import Provision.Proofs.Deployment.Runs

/-!
# Registrations settle uniformly

A registration that was accepted owns the slots of its URN, its id and its declared properties
from then on. However the engine answers, and whatever else happens meanwhile, the slots are open
until the task of the registration ends; then they all hold data that depends on the resource, or
all hold the one failure that names the resource and the cause, for good.
-/

namespace Provision

namespace Deployment

/-- What an accepted registration does: it starts the task of a new resource. -/
theorem register_accepted {d : Deployment} {spec : ResourceSpec} {key : Key}
    (ok : (d.register spec).1.outcome = .ok key) :
    ∃ job d', Starts d spec job d' ∧ job.key = key ∧
      (d.register spec).2 =
        { d' with tasks := d'.tasks ++ [⟨.registration job, .underWay, true⟩] } := by
  unfold register at ok ⊢
  split at ok
  · cases ok
  · rename_i args options runs prepared
    obtain ⟨job, d', starts, step⟩ := start_spec d spec (d.effectiveParent spec)
      ((((d.effectiveParent spec).map fun key => (d.arena.inheritance key).transformations).getD [])
        ++ spec.transformations) args options
    dsimp only at ok ⊢
    rw [step] at ok ⊢
    exact ⟨job, d', starts, Except.ok.inj ok, rfl⟩

end Deployment

namespace Ledger

open Deployment World

variable {σ : Type} {engine : Engine σ} {l l₁ l₂ : Ledger σ} {spec : ResourceSpec} {key : Key}

/-- A registration that is accepted, by any of the ways to register: the ledgers before and
after. -/
inductive Accepts : Ledger σ → ResourceSpec → Key → Ledger σ → Prop where
  | register {l : Ledger σ} {before after : List (List DeclaredOutput)} {spec : ResourceSpec}
      {key : Key} (holds : l.held = before ++ spec.outputs :: after)
      (ok : (l.deployment.register spec).1.outcome = .ok key) :
      Accepts l spec key { l.edit fun d => (d.register spec).2 with held := before ++ after }
  | registerProvider {l : Ledger σ} {before after : List (List DeclaredOutput)}
      {spec : ResourceSpec} {key : Key} (holds : l.held = before ++ spec.outputs :: after)
      (package : String) (ok : (l.deployment.registerProvider package spec).1.outcome = .ok key) :
      Accepts l { spec with kind := .provider, type := providerType package } key
        { l.edit fun d => (d.registerProvider package spec).2 with held := before ++ after }
  | beginRun {l : Ledger σ} {key : Key} (ok : l.world.beginRun.1 = .ok key) :
      Accepts l (stackSpec l.deployment.settings) key { l with world := l.world.beginRun.2 }

/-- An accepted registration is a step of the program. -/
theorem Accepts.step (accepts : Accepts l spec key l₁) : Step engine l l₁ := by
  cases accepts with
  | register holds ok => exact .register l holds
  | registerProvider holds package ok => exact .registerProvider l holds package
  | beginRun ok => exact .beginRun l

/-- Every way to register comes to the registration of the resource, apart from the root stack that
a run notes. -/
theorem Accepts.registers (accepts : Accepts l spec key l₁) :
    (l.deployment.register spec).1.outcome = .ok key ∧
      ∃ root, l₁.deployment = { (l.deployment.register spec).2 with root } := by
  cases accepts with
  | register holds ok => exact ⟨ok, _, rfl⟩
  | registerProvider holds package ok =>
    unfold Deployment.registerProvider at ok
    split at ok
    · cases ok
    · rename_i named
      exact ⟨ok, _, congrArg Prod.snd (if_neg named)⟩
  | beginRun ok =>
    unfold World.beginRun at ok ⊢
    dsimp only at ok ⊢
    split at ok
    · cases ok
    · rename_i registered
      cases ok
      exact ⟨registered, _, rfl⟩

/-- The last task is that of the new resource. -/
theorem Accepts.starts (accepts : Accepts l spec key l₁) :
    ∃ job d', Starts l.deployment spec job d' ∧ job.key = key ∧
      l₁.deployment.tasks = d'.tasks ++ [⟨.registration job, .underWay, true⟩] ∧
      l₁.deployment.arena = d'.arena := by
  obtain ⟨ok, root, same⟩ := accepts.registers
  obtain ⟨job, d', starts, new, after⟩ := register_accepted ok
  refine ⟨job, d', starts, new, ?_⟩
  rw [same, after]
  exact ⟨rfl, rfl⟩

/-- How the task with the given number carries out a registration. -/
structure CarriesOut (engine : Engine σ) (l : Ledger σ) (number : Nat) (spec : ResourceSpec)
    (key : Key) (job : Registration) (progress : Progress) : Prop where
  task : ∃ tracked : Bool,
    l.deployment.tasks[number]? = some ⟨.registration job, progress, tracked⟩
  asked : job.key = key ∧ job.name = spec.name ∧ job.type = spec.type ∧ job.kind = spec.kind ∧
    job.outputs = spec.outputs
  /-- The handle of the resource observes the slots. -/
  handle : l.deployment.arena.identity? key =
    some
      { type := spec.type, name := spec.name, kind := spec.kind
        urn := .source (.slot job.urnSlot), id := job.idSlot.map fun slot => .source (.slot slot) }
  hasId : job.idSlot.isSome = spec.kind.isCustomLike
  nodup : (slotsOf job).Nodup
  settlement : Settlement job l.deployment progress
  /-- The end is the end: neither it nor the outcomes change any more. -/
  lasting : progress ≠ .underWay → ∀ l', History engine l l' →
    (∃ tracked : Bool,
      l'.deployment.tasks[number]? = some ⟨.registration job, progress, tracked⟩) ∧
    ∀ n ∈ slotsOf job, ∀ result, l.graph.Holds n result → l'.graph.Holds n result
  /-- No other slot is touched, neither when the task runs nor when it is answered. -/
  apart : ∀ n, n ∉ slotsOf job →
    (l.world.runTask engine number).deployment.graph.slots[n]? = l.graph.slots[n]? ∧
    (progress = .underWay → ∀ answer,
      (l.deployment.answered number job answer).graph.slots[n]? = l.graph.slots[n]?)

/-- A task that is under way writes the slots of its own registration only. -/
theorem runTask_apart (engine : Engine σ) {number : Nat} {job : Registration}
    {progress : Progress} {tracked : Bool} (owned : l.Owned)
    (task : l.deployment.tasks[number]? = some ⟨.registration job, progress, tracked⟩) {n : Nat}
    (other : n ∉ slotsOf job) :
    (l.world.runTask engine number).deployment.graph.slots[n]? = l.graph.slots[n]? := by
  unfold runTask
  rw [task]
  cases progress with
  | endless | finished => rfl
  | underWay =>
    obtain ⟨completes, -⟩ := runRegistration_spec engine (owned.ready task)
    exact completes.writes.same completes.length other

theorem answered_apart {number : Nat} {job : Registration} {tracked : Bool} (owned : l.Owned)
    (task : l.deployment.tasks[number]? = some ⟨.registration job, .underWay, tracked⟩)
    (answer : Except Failure Registered) {n : Nat} (other : n ∉ slotsOf job) :
    (l.deployment.answered number job answer).graph.slots[n]? = l.graph.slots[n]? := by
  obtain ⟨completes, -⟩ := conclude_spec (owned.ready task) answer
  exact completes.writes.same completes.length other

/-- From its acceptance on, a registration is carried out by one task, with all its slots open
until the task ends, and all settled in one way from then on. -/
theorem registration_settles_uniformly (engine : Engine σ) (reachable : Reachable engine l)
    (accepts : Accepts l spec key l₁) (later : History engine l₁ l₂) :
    ∃ job progress,
      CarriesOut engine l₂ l.deployment.tasks.length spec key job progress := by
  have step : Step engine l l₁ := accepts.step
  obtain ⟨owned₁, -⟩ := step.keeps reachable.owned
  obtain ⟨owned₂, follows⟩ := later.keeps owned₁
  obtain ⟨job, d', starts, same, tasks, arena⟩ := accepts.starts
  have first : l₁.deployment.tasks[l.deployment.tasks.length]? =
      some ⟨.registration job, .underWay, true⟩ := by
    rw [tasks, starts.tasks]
    simp
  obtain ⟨progress, tracked, task, -⟩ := follows.tasks _ _ first
  obtain ⟨accepted, settlement⟩ :=
    owned₂.settled job progress tracked (List.mem_of_getElem? task)
  have handle := follows.identities _ _ (arena ▸ starts.handle)
  rw [same, starts.type, starts.name, starts.kind] at handle
  refine ⟨job, progress,
    { task := ⟨tracked, task⟩
      asked := ⟨same, starts.name, starts.type, starts.kind, starts.outputs⟩
      handle := handle
      hasId := starts.kind ▸ accepted.hasId
      nodup := accepted.nodup
      settlement := settlement
      lasting := ?_
      apart := fun n other => ⟨runTask_apart engine owned₂ task other, ?_⟩ }⟩
  · intro ended l₃ after
    obtain ⟨-, follows'⟩ := after.keeps owned₂
    refine ⟨?_, fun n _ result holds => follows'.resolved n result holds⟩
    obtain ⟨progress', tracked', task', waiting | rfl⟩ := follows'.tasks _ _ task
    · exact absurd waiting ended
    · exact ⟨tracked', task'⟩
  · rintro rfl answer
    exact answered_apart owned₂ task answer other

/-- An engine that registers everything with one property, and an id for each. -/
def obliging : Engine Unit where
  supportsFeature _ s := (.ok ⟨true⟩, s)
  register request s :=
    (.ok { urn := "urn:" ++ request.name, id := "id", object := [("size", .string "large")] }, s)
  read _ s := (.error .monitorClosed, s)
  call _ s := (.error .monitorClosed, s)
  registerOutputs _ s := (.ok (), s)
  registerPackage _ s := (.error .monitorClosed, s)

/-- A resource with a property of text, which the program has declared. -/
def sized : ResourceSpec :=
  { kind := .custom, type := "pkg:index:Thing", name := "thing"
    outputs := [⟨"size", 0, ⟨.string, []⟩⟩] }

def declaring : Ledger Unit :=
  { (initial {} ()).edit fun d => (d.declare [] "size" ⟨.string, []⟩).2 with held := [sized.outputs] }

theorem registration_settles_uniformly_obliging :
    let after : Ledger Unit :=
      { declaring.edit fun d => (d.register sized).2 with held := [] }
    let ended : Ledger Unit := { after with world := after.world.runTask obliging 0 }
    Reachable obliging declaring ∧ Accepts declaring sized 0 after ∧
      ended.deployment.tasks.map Task.progress = [.finished (.ok ())] ∧
      ∃ job progress, CarriesOut obliging ended 0 sized 0 job progress := by
  intro after ended
  have declared : Step obliging { initial {} () with held := [[]] } declaring :=
    @Step.declare _ _ _ [] [] [] rfl "size" ⟨.string, []⟩
  have reachable : Reachable obliging declaring :=
    ⟨{}, (), .step (.step .here (.collect _)) declared⟩
  have accepts : Accepts declaring sized 0 after := @Accepts.register _ _ [] [] _ _ rfl rfl
  exact ⟨reachable, accepts, rfl,
    registration_settles_uniformly obliging reachable accepts (.step .here (.runTask after 0))⟩

end Ledger

end Provision
