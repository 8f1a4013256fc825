import Mathlib.Logic.Relation
import Provision.Proofs.Deployment.Exchanges
import Provision.Proofs.Deployment.Foreseen
import Provision.Proofs.Deployment.Runs
import Provision.Proofs.Input.Sending
import Provision.Proofs.Resource.Walk

/-!
# Registrations that wait for each other

Before a registration sends its request it awaits the URNs of its parent, of its provider, and of
all that its direct dependencies stand for. These are the resources in its options, and those that
its arguments depend on, an argument that waits for an output on the resource with that output. A
component stands for all that is below it at the moment, so a registration may come to wait for one
that was started later. Of these three ways to wait it is the only one that closes a circle
(`waiting_circle_iff`), and there are circles (`siblings_wait_for_each_other`).
-/

namespace Provision

namespace Deployment

open Relation

/-- The resources that the arguments and the options of a registration depend on. -/
def direct (d : Deployment) (job : Registration) : List Key :=
  d.argumentKeys job.args ++ job.options.dependsOn

/-- What a registration must await before it can send its request. -/
def Awaits (d : Deployment) (job : Registration) (key : Key) : Prop :=
  job.parent = some key ∨ job.provider = some key ∨
    key ∈ d.arena.transitiveDependencies (d.direct job) (some job.key)

/-- A registration that has not ended. -/
def Pending (d : Deployment) (job : Registration) : Prop :=
  ∃ tracked, ⟨.registration job, .underWay, tracked⟩ ∈ d.tasks

/-- One pending registration waits for another. -/
structure WaitsOn (d : Deployment) (first second : Registration) : Prop where
  pending : d.Pending first
  pending' : d.Pending second
  awaits : d.Awaits first second.key

/-- Every pending registration was started after its parent, its provider, and the resources
that it depends on directly. -/
def Backward (d : Deployment) : Prop :=
  ∀ job, d.Pending job → ∀ key,
    job.parent = some key ∨ job.provider = some key ∨ key ∈ d.direct job → key < job.key

/-- A request is sent only when everything it awaits is settled. -/
theorem exchange_awaits {d : Deployment} {features : EngineFeatures} {job : Registration}
    {request : Exchange} (ready : d.exchange features job = .done request) {key : Key}
    (awaits : d.Awaits job key) : ∃ urn, d.awaitUrn key = .done urn := by
  have builds := exchange_builds ready
  rcases awaits with above | manager | expanded
  · have parent := builds.parent
    rw [above] at parent
    obtain ⟨urn, settled, -⟩ := Await.andThen_eq_done parent
    exact ⟨urn, settled⟩
  · have provider := builds.provider
    rw [manager] at provider
    obtain ⟨urn, settled, -⟩ := Await.andThen_eq_done provider
    exact ⟨urn, settled⟩
  · obtain ⟨properties, urns, serialized, dependencies⟩ := builds.dependencies
    obtain ⟨all, settled, -⟩ := Await.andThen_eq_done dependencies
    obtain ⟨dependable, root, direct, path⟩ := Arena.mem_transitiveDependencies.mp expanded
    have collected : root ∈ Ascending.union properties.allDependencies job.options.dependsOn :=
      (Ascending.mem_union _ _ _).mpr
        ((List.mem_append.mp direct).imp_left (mem_argumentKeys serialized root).mp)
    obtain ⟨urn, -, here⟩ := exists_result settled
      (Arena.mem_transitiveDependencies.mpr ⟨dependable, root, collected, path⟩)
    exact ⟨urn, here⟩

/-- A registration waits for a resource of which it takes an output as an argument. -/
theorem WaitsOn.of_argument {d : Deployment} {first second : Registration}
    (pending : d.Pending first) (pending' : d.Pending second) {name : String} {slot : Nat}
    (argument : (name, .deferred (.slot slot)) ∈ first.args) (own : slot ∈ slotsOf second)
    (unsettled : d.graph.peek (.slot slot) = none)
    (dependable : d.arena.isDependable second.key = true) (different : second.key ≠ first.key) :
    d.WaitsOn first second := by
  obtain ⟨tracked, task⟩ := pending'
  have waited (depth : Nat) := key_mem_sourceKeys task own unsettled depth
  have direct : second.key ∈ d.direct first :=
    List.mem_append_left _ (Input.mem_keysOfFields_of_mem argument (waited _))
  refine ⟨pending, ⟨tracked, task⟩, .inr (.inr (Arena.mem_transitiveDependencies.mpr ?_))⟩
  exact ⟨dependable, second.key, direct, .here fun same => different (Option.some.inj same)⟩

/-- A path along which a measure does not fall has a step along which it does not fall. -/
theorem exists_ascent {α : Type} {r : α → α → Prop} (measure : α → Nat) {a b : α}
    (path : TransGen r a b) :
    measure b < measure a ∨ ∃ x y, r x y ∧ measure x ≤ measure y ∧ ReflTransGen r a x ∧
      ReflTransGen r y b := by
  induction path with
  | single step =>
    rename_i b
    rcases Nat.lt_or_ge (measure b) (measure a) with less | less
    · exact .inl less
    · exact .inr ⟨a, b, step, less, .refl, .refl⟩
  | tail before step ih =>
    rename_i b c
    rcases ih with fell | ⟨x, y, ascent, le, first, last⟩
    · rcases Nat.lt_or_ge (measure c) (measure b) with less | less
      · exact .inl (Nat.lt_trans less fell)
      · exact .inr ⟨b, c, step, less, before.to_reflTransGen, .refl⟩
    · exact .inr ⟨x, y, ascent, le, first, last.tail step⟩

variable {d : Deployment}

/-- What is awaited out of order is reached through a component that was there before. -/
theorem Backward.later {job : Registration} {key : Key} (backward : d.Backward)
    (pending : d.Pending job) (awaits : d.Awaits job key) (le : job.key ≤ key) :
    job.key < key ∧ d.arena.isDependable key = true ∧
      ∃ root ∈ d.direct job, d.arena.Reaches (some job.key) root key := by
  have before := backward job pending
  rcases awaits with parent | provider | expanded
  · exact absurd (before key (.inl parent)) (Nat.not_lt.mpr le)
  · exact absurd (before key (.inr (.inl provider))) (Nat.not_lt.mpr le)
  · obtain ⟨dependable, root, direct, path⟩ := Arena.mem_transitiveDependencies.mp expanded
    have different : job.key ≠ key := by
      rintro rfl
      exact path.last_ne rfl
    exact ⟨Nat.lt_of_le_of_ne le different, dependable, root, direct, path⟩

/-- A pending registration has no URN yet. -/
theorem Pending.awaitUrn {held : List (List DeclaredOutput)} {own : List Nat}
    {job : Registration} (pending : d.Pending job) (owned : d.Owned held own) :
    d.awaitUrn job.key = .pending := by
  obtain ⟨tracked, task⟩ := pending
  obtain ⟨accepted, isOpen⟩ := owned.settled job .underWay tracked task
  obtain ⟨name, slot⟩ := isOpen job.urnSlot (by simp [slotsOf])
  have unsettled : d.graph.peek (.slot job.urnSlot) = none := by
    simp [Graph.peek, Graph.observe, Graph.observeWithin, slot]
  simp [Deployment.awaitUrn, urnOf, accepted.handle, TextOutput.peek, unsettled, awaitValue]

/-- Pending registrations wait for each other in a circle exactly if one of them depends on a
component below which another was started later, and the later one waits, directly or through
others, for the earlier one. -/
theorem waiting_circle_iff (backward : d.Backward) :
    (∃ job, TransGen (d.WaitsOn) job job) ↔
      ∃ early late, d.Pending early ∧ early.key < late.key ∧
        d.arena.isDependable late.key = true ∧
        (∃ component ∈ d.direct early,
          component < early.key ∧ d.arena.Reaches (some early.key) component late.key) ∧
        TransGen (d.WaitsOn) late early := by
  constructor
  · rintro ⟨job, circle⟩
    rcases exists_ascent Registration.key circle with less | ⟨early, late, step, le, first, last⟩
    · exact absurd less (Nat.lt_irrefl _)
    · obtain ⟨less, dependable, component, direct, path⟩ :=
        backward.later step.pending step.awaits le
      have back : ReflTransGen (d.WaitsOn) late early := last.trans first
      refine ⟨early, late, step.pending, less, dependable,
        ⟨component, direct, backward early step.pending component (.inr (.inr direct)), path⟩, ?_⟩
      rcases reflTransGen_iff_eq_or_transGen.mp back with rfl | back
      · exact absurd less (Nat.lt_irrefl _)
      · exact back
  · rintro ⟨early, late, pending, -, dependable, ⟨component, direct, -, path⟩, back⟩
    have other : d.Pending late := by
      obtain ⟨next, step, -⟩ := TransGen.head'_iff.mp back
      exact step.pending
    have awaits : d.Awaits early late.key :=
      .inr (.inr (Arena.mem_transitiveDependencies.mpr ⟨dependable, component, direct, path⟩))
    exact ⟨late, back.tail ⟨pending, other, awaits⟩⟩

end Deployment

namespace Ledger

open Deployment

/-- A registration that waits for a pending one cannot send its request. -/
theorem WaitsOn.blocks {σ : Type} {engine : Engine σ} {l : Ledger σ} {features : EngineFeatures}
    {first second : Registration} (reachable : Reachable engine l)
    (waits : l.deployment.WaitsOn first second) (request : Exchange) :
    l.deployment.exchange features first ≠ .done request := by
  intro ready
  obtain ⟨urn, settled⟩ := exchange_awaits ready waits.awaits
  rw [waits.pending'.awaitUrn reachable.owned] at settled
  cases settled

/-- The ledger after a registration without declared properties. -/
def registering {σ : Type} (l : Ledger σ) (spec : ResourceSpec) : Ledger σ :=
  l.edit fun d => (d.register spec).2

theorem Reachable.registering {σ : Type} {engine : Engine σ} {l : Ledger σ}
    (reachable : Reachable engine l) {spec : ResourceSpec} (undeclared : spec.outputs = []) :
    Reachable engine (l.registering spec) := by
  obtain ⟨settings, s, history⟩ := reachable
  have next : Step engine { l with held := [] :: l.held } (l.registering spec) :=
    @Step.register _ _ _ [] l.held spec (by rw [undeclared]; rfl)
  exact ⟨settings, s, .step (.step history (.collect l)) next⟩

/-- A group, a resource that depends on the group, and one in the group that depends on the
other resource. -/
def siblings : Ledger Unit :=
  (((initial {} ()).registering
      { kind := .component, type := "pkg:index:Group", name := "group" }).registering
      { kind := .custom, type := "pkg:index:Thing", name := "outside"
        options := { dependsOn := [0] } }).registering
      { kind := .custom, type := "pkg:index:Thing", name := "inside"
        options := { parent := some 0, dependsOn := [1] } }

def groupJob : Registration :=
  { key := 0, type := "pkg:index:Group", name := "group", kind := .component, parent := none
    args := [], options := {}, provider := none, explicitProviders := [], protect := none
    urnSlot := 0, idSlot := none, outputs := [] }

def outsideJob : Registration :=
  { key := 1, type := "pkg:index:Thing", name := "outside", kind := .custom, parent := none
    args := [], options := { dependsOn := [0] }, provider := none, explicitProviders := []
    protect := none, urnSlot := 1, idSlot := some 2, outputs := [] }

def insideJob : Registration :=
  { key := 2, type := "pkg:index:Thing", name := "inside", kind := .custom, parent := some 0
    args := [], options := { parent := some 0, dependsOn := [1] }, provider := none
    explicitProviders := [], protect := none, urnSlot := 3, idSlot := some 4, outputs := [] }

theorem siblings_pending (job : Registration) :
    siblings.deployment.Pending job ↔ job = groupJob ∨ job = outsideJob ∨ job = insideJob := by
  have tasks : siblings.deployment.tasks =
      [⟨.registration groupJob, .underWay, true⟩, ⟨.registration outsideJob, .underWay, true⟩,
        ⟨.registration insideJob, .underWay, true⟩] := rfl
  simp [Pending, tasks]

theorem siblings_backward : siblings.deployment.Backward := by
  intro job pending key before
  rcases (siblings_pending job).mp pending with rfl | rfl | rfl
  · rcases before with before | before | before
    · cases before
    · cases before
    · cases before
  · rcases before with before | before | before
    · cases before
    · cases before
    · obtain rfl : key = 0 := List.mem_singleton.mp before
      decide
  · rcases before with before | before | before
    · cases before
      decide
    · cases before
    · obtain rfl : key = 1 := List.mem_singleton.mp before
      decide

/-- The group stands for the resource inside, which waits for the one outside. -/
theorem siblings_circle :
    Relation.TransGen siblings.deployment.WaitsOn outsideJob outsideJob := by
  have forth : siblings.deployment.WaitsOn outsideJob insideJob :=
    ⟨(siblings_pending _).mpr (by simp), (siblings_pending _).mpr (by simp),
      .inr (.inr (by decide))⟩
  have back : siblings.deployment.WaitsOn insideJob outsideJob :=
    ⟨(siblings_pending _).mpr (by simp), (siblings_pending _).mpr (by simp),
      .inr (.inr (by decide))⟩
  exact .tail (.single forth) back

theorem waiting_circle_iff_siblings :
    siblings.deployment.Backward ∧
      ∃ early late, siblings.deployment.Pending early ∧ early.key < late.key ∧
        siblings.deployment.arena.isDependable late.key = true ∧
        (∃ component ∈ siblings.deployment.direct early,
          component < early.key ∧
            siblings.deployment.arena.Reaches (some early.key) component late.key) ∧
        Relation.TransGen siblings.deployment.WaitsOn late early :=
  ⟨siblings_backward, (waiting_circle_iff siblings_backward).mp ⟨_, siblings_circle⟩⟩

theorem siblings_wait_for_each_other :
    Reachable Engine.closed siblings ∧ siblings.deployment.Backward ∧
      ∃ job, Relation.TransGen siblings.deployment.WaitsOn job job := by
  have reachable : Reachable Engine.closed siblings :=
    ((Reachable.registering ⟨{}, (), .here⟩ rfl).registering rfl).registering rfl
  exact ⟨reachable, siblings_backward, outsideJob, siblings_circle⟩

end Ledger

end Provision
