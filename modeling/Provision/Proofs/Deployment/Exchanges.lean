import Provision.Deployment.Registration
import Provision.Proofs.Input.Sending

/-!
# What a request is built from

A registration builds its request when all that the request mentions is settled. Here the request
is taken apart again: what its fields say, and what has been awaited for them (`exchange_builds`).
-/

namespace Provision

namespace Deployment

/-- Each of the results is that of its place. -/
theorem map_await {α β : Type} {await : α → Await β} {list : List α} {results : List β}
    (ended : awaitAll await list = .done results) : list.map await = results.map .done := by
  induction list generalizing results with
  | nil =>
    cases ended
    rfl
  | cons head rest ih =>
    obtain ⟨b, first, ended⟩ := Await.andThen_eq_done ended
    obtain ⟨bs, later, ended⟩ := Await.andThen_eq_done ended
    cases ended
    rw [List.map_cons, List.map_cons, first, ih later]

theorem mem_results {α β : Type} {await : α → Await β} {list : List α} {results : List β}
    (ended : awaitAll await list = .done results) {b : β} :
    b ∈ results ↔ ∃ a ∈ list, await a = .done b := by
  have placed : b ∈ results ↔ .done b ∈ results.map Await.done := by simp
  rw [placed, ← map_await ended, List.mem_map]

/-- All results were awaited. -/
theorem exists_result {α β : Type} {await : α → Await β} {list : List α} {results : List β}
    (ended : awaitAll await list = .done results) {a : α} (member : a ∈ list) :
    ∃ b ∈ results, await a = .done b := by
  have placed : await a ∈ results.map Await.done :=
    map_await ended ▸ List.mem_map_of_mem member
  obtain ⟨b, result, same⟩ := List.mem_map.mp placed
  exact ⟨b, result, same.symm⟩

namespace Exchange

def parent : Exchange → String
  | .register request => request.parent
  | .read request => request.parent

/-- The protect flag, which only a request to register has. -/
def protect? : Exchange → Option (Option Bool)
  | .register request => some request.protect
  | .read _ => none

def version : Exchange → String
  | .register request => request.version
  | .read request => request.version

def pluginDownloadUrl : Exchange → String
  | .register request => request.pluginDownloadUrl
  | .read request => request.pluginDownloadUrl

def provider : Exchange → String
  | .register request => request.provider
  | .read request => request.provider

end Exchange

/-- The request of a registration with what was awaited for it. -/
structure Builds (d : Deployment) (features : EngineFeatures) (job : Registration)
    (request : Exchange) : Prop where
  dependencies : ∃ properties urns, d.serialize features job.name job.args = .done properties ∧
    d.dependencyUrns (Ascending.union properties.allDependencies job.options.dependsOn)
      (some job.key) = .done urns
  parent : d.parentUrn job.parent = .done request.parent
  provider : d.optionalProviderReference job.provider = .done request.provider
  protect : ∀ protect, request.protect? = some protect → protect = job.protect
  version : request.version = job.options.version.getD ""
  pluginDownloadUrl : request.pluginDownloadUrl = job.options.pluginDownloadUrl.getD ""
  /-- A resource is read if it has a URN to look it up by, or an id to read it by. -/
  id : ∃ id, d.readId job = .done id ∧ ∀ read, request = .read read →
    read.id = id.getD "" ∧ read.urn = job.options.urn.getD "" ∧
      (job.options.urn = none → id.isSome = true)

theorem exchange_builds {d : Deployment} {features : EngineFeatures} {job : Registration}
    {request : Exchange} (ready : d.exchange features job = .done request) :
    d.Builds features job request := by
  obtain ⟨properties, serialized, ready⟩ := Await.andThen_eq_done ready
  obtain ⟨urns, dependencies, ready⟩ := Await.andThen_eq_done ready
  obtain ⟨table, -, ready⟩ := Await.andThen_eq_done ready
  obtain ⟨parentUrn, parent, ready⟩ := Await.andThen_eq_done ready
  obtain ⟨reference, provider, ready⟩ := Await.andThen_eq_done ready
  obtain ⟨providers, -, ready⟩ := Await.andThen_eq_done ready
  obtain ⟨aliases, -, ready⟩ := Await.andThen_eq_done ready
  obtain ⟨id, read, ready⟩ := Await.andThen_eq_done ready
  have settled : ∃ properties urns, d.serialize features job.name job.args = .done properties ∧
      d.dependencyUrns (Ascending.union properties.allDependencies job.options.dependsOn)
        (some job.key) = .done urns := ⟨properties, urns, serialized, dependencies⟩
  dsimp only at ready
  split at ready
  · rename_i given
    cases ready
    refine ⟨settled, parent, provider, by rintro protect ⟨⟩, rfl, rfl, id, read, ?_⟩
    rintro request ⟨⟩
    refine ⟨rfl, rfl, fun none => ?_⟩
    simpa [none] using given
  · cases ready
    refine ⟨settled, parent, provider, ?_, rfl, rfl, id, read, by rintro request ⟨⟩⟩
    rintro protect ⟨⟩
    rfl

end Deployment

end Provision
