import Provision.Proofs.Deployment.Inheritance

/-!
# What is found under a URN

A resource that the program registered is indexed under its URN when it gets it, and from then on
references to the URN and the engine's mention of it lead to the resource, with one exception:
a handle made by name for the same URN takes its place in the index, until another registration
gets the URN (`found_under_urn_iff`). Every other step respects an entry that leads to a
registered resource (`Step.turns`).
-/

namespace Provision

namespace Deployment

structure Bears (d : Deployment) (job : Registration) (urn : String) : Prop where
  registered : job ∈ d.registrations
  known : d.graph.known job.urnSlot = some urn

/-- The program registered or read the resource, and it has the URN. -/
def RegisteredUnder (d : Deployment) (job : Registration) (urn : String) : Prop :=
  job ∈ d.registrations ∧ d.awaitUrn job.key = .done (some urn)

/-- The index leads from the URN to a resource that goes by it. -/
def Points (d : Deployment) (urn : String) : Prop :=
  ∃ job, d.arena.urns.lookup urn = some job.key ∧ d.Bears job urn

/-- Programs register resources of every kind but that of the handles. -/
def Genuine (d : Deployment) : Prop := ∀ job ∈ d.registrations, job.kind ≠ .dependency

/-- Every registered resource is there, and none is a handle. -/
def Handled (d : Deployment) : Prop :=
  ∀ job ∈ d.registrations, ∃ identity, d.arena.identity? job.key = some identity ∧
    identity.kind ≠ .dependency

/-- For one URN: nothing happens, or another resource gets it and is indexed under it. -/
inductive Turns (urn : String) (d d' : Deployment) : Prop where
  | same (points : d'.Points urn ↔ d.Points urn) (bears : ∀ job, d'.Bears job urn ↔ d.Bears job urn)
  | named {job : Registration} (points : d'.Points urn) (bears : d'.Bears job urn)
      (new : ¬ d.Bears job urn)

variable {d d' : Deployment} {urn : String} {job : Registration}

/-- A registration that was accepted stays one of the deployment's own. -/
theorem Follows.registrations (follows : Follows d d') :
    ∀ job ∈ d.registrations, job ∈ d'.registrations := by
  intro job member
  obtain ⟨progress, tracked, task⟩ := mem_registrations.mp member
  obtain ⟨number, here⟩ := List.getElem?_of_mem task
  obtain ⟨progress', tracked', later, -⟩ := follows.tasks number _ here
  exact mem_registrations.mpr ⟨progress', tracked', List.mem_of_getElem? later⟩

/-- A text stays in its slot. -/
theorem Bears.of_resolved (bears : d.Bears job urn)
    (registrations : ∀ job ∈ d.registrations, job ∈ d'.registrations)
    (resolved : ∀ n result, d.graph.Holds n result → d'.graph.Holds n result) :
    d'.Bears job urn := by
  obtain ⟨registered, known⟩ := bears
  refine ⟨registrations job registered, ?_⟩
  obtain ⟨data, holds, text⟩ := Graph.holds_of_known known
  rw [(resolved _ _ holds).known_ok, text]

theorem Bears.after (bears : d.Bears job urn) (follows : Follows d d') : d'.Bears job urn :=
  bears.of_resolved follows.registrations follows.resolved

theorem Handled.after (handled : d.Handled) (changes : Changes d d') : d'.Handled := by
  intro job member
  obtain ⟨identity, here, kind⟩ := handled job (changes.registrations ▸ member)
  exact ⟨identity, changes.identities here, kind⟩

/-- What leaves the registrations and the texts of their slots alone. -/
theorem bears_congr (urn : String) (registrations : d'.registrations = d.registrations)
    (known : ∀ job ∈ d.registrations, d'.graph.known job.urnSlot = some urn ↔
      d.graph.known job.urnSlot = some urn) (job : Registration) :
    d'.Bears job urn ↔ d.Bears job urn := by
  constructor
  · rintro ⟨registered, here⟩
    rw [registrations] at registered
    exact ⟨registered, (known job registered).mp here⟩
  · rintro ⟨registered, here⟩
    exact ⟨registrations ▸ registered, (known job registered).mpr here⟩

theorem Turns.trans {d₁ d₂ : Deployment} (first : Turns urn d d₁) (second : Turns urn d₁ d₂)
    (kept : ∀ job, d.Bears job urn → d₁.Bears job urn) : Turns urn d d₂ := by
  cases second with
  | named points bears new => exact .named points bears fun old => new (kept _ old)
  | same points bears =>
    cases first with
    | same points' bears' =>
      exact .same (points.trans points') fun job => (bears job).trans (bears' job)
    | named points' bears' new => exact .named (points.mpr points') ((bears _).mpr bears') new

/-- An entry that leads to a handle leads to no registered resource. -/
theorem Handled.not_points (handled : d.Handled)
    (free : ∀ key identity, d.arena.urns.lookup urn = some key →
      d.arena.identity? key = some identity → identity.kind = .dependency) : ¬ d.Points urn := by
  rintro ⟨job, found, bears⟩
  obtain ⟨identity, here, kind⟩ := handled job bears.registered
  exact kind (free job.key identity found here)

/-- A new handle is indexed under its URN. -/
theorem Handled.not_points_handle (handled : d.Handled) (reference : Reference) :
    ¬ (d.insertDependency reference.urn reference.id reference.packageVersion).2.Points
      reference.urn := by
  rintro ⟨job, found, bears⟩
  obtain ⟨identity, here, -⟩ := handled job bears.registered
  have key : d.arena.size = job.key := by
    rw [insertDependency_eq] at found
    simpa [Arena.recordUrn, Fields.lookup_set] using found
  exact Nat.ne_of_lt (Arena.lt_of_identity? here) key.symm

theorem bears_insertDependency (reference : Reference) :
    (d.insertDependency reference.urn reference.id reference.packageVersion).2.Bears job urn ↔
      d.Bears job urn :=
  ⟨fun h => ⟨h.registered, h.known⟩, fun h => ⟨h.registered, h.known⟩⟩

theorem points_insertDependency (reference : Reference) (other : reference.urn ≠ urn) :
    (d.insertDependency reference.urn reference.id reference.packageVersion).2.Points urn ↔
      d.Points urn := by
  have same : (d.insertDependency reference.urn reference.id
      reference.packageVersion).2.arena.urns.lookup urn = d.arena.urns.lookup urn := by
    rw [insertDependency_eq]
    exact (Fields.lookup_set ..).trans (if_neg (Ne.symm other))
  simp only [Points, same, bears_insertDependency]

theorem Change.turns (change : Change d d') (handled : d.Handled) (urn : String) :
    Turns urn d d' := by
  cases change with
  | aside arena registrations resolved known =>
    have bears := bears_congr urn registrations fun job member => by rw [known job member]
    refine .same ?_ bears
    simp only [Points, arena, bears]
  | @named _ job member before urn' arena registrations resolved after known =>
    have own : d'.Bears job urn' := ⟨registrations ▸ member, after⟩
    by_cases same : urn' = urn
    · subst same
      refine .named ⟨job, ?_, own⟩ own ?_
      · rw [arena]
        exact (Fields.lookup_set ..).trans (if_pos rfl)
      · rintro ⟨-, named⟩
        cases before.symm.trans named
    · have bears := bears_congr urn registrations fun other mine => by
        by_cases slot : other.urnSlot = job.urnSlot
        · rw [slot, before, after]
          simp [same]
        · rw [known other mine slot]
      have lookup : d'.arena.urns.lookup urn = d.arena.urns.lookup urn := by
        rw [arena]
        exact (Fields.lookup_set ..).trans (if_neg (Ne.symm same))
      refine .same ?_ bears
      simp only [Points, lookup, bears]
  | stood reference free =>
    by_cases same : reference.urn = urn
    · subst same
      refine .same ?_ fun job => bears_insertDependency reference
      exact iff_of_false (handled.not_points_handle reference) (handled.not_points free)
    · exact .same (points_insertDependency reference same) fun job =>
        bears_insertDependency reference

theorem Changes.bears (changes : Changes d d') (bears : d.Bears job urn) : d'.Bears job urn :=
  bears.of_resolved (fun _ member => changes.registrations ▸ member) fun _ _ => changes.resolved

theorem Changes.turns (changes : Changes d d') (handled : d.Handled) (urn : String) :
    Turns urn d d' := by
  induction changes with
  | refl => exact .same Iff.rfl fun _ => Iff.rfl
  | tail before change ih =>
    exact ih.trans (change.turns (handled.after before) urn) fun _ => Changes.bears before

/-- A new registration has no URN. -/
theorem Founds.turns {e : Enrolment} {above : Inheritance} (founds : Founds d e above d')
    (urn : String) : Turns urn d d' := by
  have bears (job : Registration) : d'.Bears job urn ↔ d.Bears job urn := by
    constructor
    · rintro ⟨registered, known⟩
      rw [founds.registrations, List.mem_append, List.mem_singleton] at registered
      rw [founds.known] at known
      rcases registered with old | rfl
      · exact ⟨old, known⟩
      · cases founds.unnamed.symm.trans known
    · rintro ⟨registered, known⟩
      refine ⟨?_, (founds.known _).trans known⟩
      rw [founds.registrations]
      exact List.mem_append_left _ registered
  refine .same ?_ bears
  simp only [Points, founds.urns, bears]

end Deployment

namespace Ledger

open Deployment

variable {σ : Type} {engine : Engine σ} {l l' : Ledger σ} {urn : String} {job : Registration}

/-- A handle made by name for the URN is what a step has put into the index, or the step has
respected an entry that leads to a registered resource. -/
theorem Step.turns (sound : l.Sound) (handled : l.deployment.Handled) (step : Step engine l l')
    (urn : String) :
    l' = l.edit (fun d => (d.dependencyResource urn).2) ∨ Turns urn l.deployment l'.deployment := by
  cases (step.course sound).2 with
  | accepts accepted =>
    obtain ⟨_, _, _, -, job, -, founds⟩ := accepted.founds
    exact .inr (founds.turns urn)
  | @names other named =>
    by_cases same : other = urn
    · exact .inl (same ▸ named)
    · subst named
      exact .inr (.same (points_insertDependency ⟨other, none, none⟩ same) fun job =>
        bears_insertDependency ⟨other, none, none⟩)
  | changes changes => exact .inr (changes.turns handled urn)

theorem Sound.handled (sound : l.Sound) (genuine : l.deployment.Genuine) :
    l.deployment.Handled := by
  intro job member
  obtain ⟨progress, tracked, task⟩ := mem_registrations.mp member
  exact ⟨_, (sound.owned.settled job progress tracked task).1.handle, genuine job member⟩

theorem Sound.registeredUnder_iff (sound : l.Sound) :
    l.deployment.RegisteredUnder job urn ↔ l.deployment.Bears job urn := by
  have text (registered : job ∈ l.deployment.registrations) :
      l.deployment.awaitUrn job.key = .done (some urn) ↔
        l.graph.known job.urnSlot = some urn := by
    obtain ⟨progress, tracked, task⟩ := mem_registrations.mp registered
    have handle := (sound.owned.settled job progress tracked task).1.handle
    simp only [Deployment.awaitUrn, urnOf, handle, Option.bind_eq_bind, Option.bind_some]
    exact Graph.awaitValue_slot
  exact ⟨fun h => ⟨h.1, (text h.1).mp h.2⟩, fun h => ⟨h.1, (text h.1).mpr h.2⟩⟩

theorem Reachable.step (reachable : Reachable engine l) (step : Step engine l l') :
    Reachable engine l' := by
  obtain ⟨settings, s, history⟩ := reachable
  exact ⟨settings, s, .step history step⟩

theorem Reachable.later (reachable : Reachable engine l) (history : History engine l l') :
    Reachable engine l' :=
  history.induct (fun _ _ before step => before.step step) reachable

/-- A handle was made by name for the URN, and no registration has got the URN since. -/
def Displaced (engine : Engine σ) (l : Ledger σ) (urn : String) : Prop :=
  ∃ before, Reachable engine before ∧
    History engine (before.edit fun d => (d.dependencyResource urn).2) l ∧
    ∀ job, l.deployment.RegisteredUnder job urn → before.deployment.RegisteredUnder job urn

theorem Step.genuine (sound : l.Sound) (step : Step engine l l')
    (genuine : l'.deployment.Genuine) : l.deployment.Genuine :=
  fun job member => genuine job ((step.keeps sound.owned).2.registrations job member)

/-- After a handle was made for the URN, the index leads to a registered resource only if one has
got the URN since. -/
theorem History.points_new {before : Ledger σ} (reachable : Reachable engine before)
    (history : History engine (before.edit fun d => (d.dependencyResource urn).2) l)
    (genuine : l.deployment.Genuine) (points : l.deployment.Points urn) :
    ∃ job, l.deployment.Bears job urn ∧ ¬ before.deployment.Bears job urn := by
  have naming : Step engine before (before.edit fun d => (d.dependencyResource urn).2) :=
    .reads before (.dependencyResource urn)
  have made := reachable.step naming
  induction history with
  | here =>
    have handled := reachable.sound.handled (naming.genuine reachable.sound genuine)
    exact absurd points (handled.not_points_handle ⟨urn, none, none⟩)
  | @step l₁ l₂ earlier step ih =>
    have sound := (made.later earlier).sound
    have genuine₁ := step.genuine sound genuine
    have handled := sound.handled genuine₁
    rcases step.turns sound handled urn with rfl | turns
    · exact absurd points (handled.not_points_handle ⟨urn, none, none⟩)
    · cases turns with
      | same points' bears' =>
        obtain ⟨job, bears, new⟩ := ih genuine₁ (points'.mp points)
        exact ⟨job, (bears' job).mpr bears, new⟩
      | named _ bears new =>
        refine ⟨_, bears, fun old => new ?_⟩
        have kept := (bears_insertDependency ⟨urn, none, none⟩).mpr old
        exact kept.after (earlier.keeps made.owned).2

/-- Where a registered resource has the URN, the index leads to one, or a handle has displaced
it. -/
theorem Reachable.points_or_displaced (reachable : Reachable engine l)
    (genuine : l.deployment.Genuine) (bears : l.deployment.Bears job urn) :
    l.deployment.Points urn ∨ Displaced engine l urn := by
  obtain ⟨settings, s, history⟩ := reachable
  induction history generalizing job with
  | here => cases bears.registered
  | @step l₁ l₂ earlier step ih =>
    have reachable : Reachable engine l₁ := ⟨settings, s, earlier⟩
    have sound := reachable.sound
    have sound₂ := (reachable.step step).sound
    have genuine₁ := step.genuine sound genuine
    rcases step.turns sound (sound.handled genuine₁) urn with rfl | turns
    · refine .inr ⟨l₁, reachable, .here, fun job here => ?_⟩
      rw [sound₂.registeredUnder_iff] at here
      exact sound.registeredUnder_iff.mpr ((bears_insertDependency ⟨urn, none, none⟩).mp here)
    · cases turns with
      | named points => exact .inl points
      | same points bears' =>
        refine (ih genuine₁ ((bears' job).mp bears)).imp points.mpr ?_
        rintro ⟨before, first, history, old⟩
        refine ⟨before, first, .step history step, fun job here => old job ?_⟩
        rw [sound₂.registeredUnder_iff, bears'] at here
        exact sound.registeredUnder_iff.mpr here

/-- Where the index leads to a registered resource, everything finds it, and nothing is made. -/
theorem found_of_points {d : Deployment} (handled : d.Handled) (points : d.Points urn) :
    ∃ job, d.Bears job urn ∧ d.resourceForUrn urn = (job.key, d) ∧
      ∀ reference : Reference, reference.urn = urn →
        d.referenceResource reference = (job.key, d) := by
  obtain ⟨job, found, bears⟩ := points
  obtain ⟨identity, here, kind⟩ := handled job bears.registered
  have indexed := findByUrn_eq_some.mpr ⟨found, identity, here⟩
  refine ⟨job, bears, ?_, ?_⟩
  · simp only [resourceForUrn, indexed]
  · rintro reference rfl
    rw [referenceResource_indexed indexed here, if_pos (.inl kind)]

/-- What is found for a URN is no new handle if it is a registered resource. -/
theorem points_of_found {d : Deployment} (handled : d.Handled) (bears : d.Bears job urn)
    (found : (d.resourceForUrn urn).1 = job.key) : d.Points urn := by
  unfold resourceForUrn at found
  split at found
  · rename_i key indexed
    obtain rfl : key = job.key := found
    exact ⟨job, (findByUrn_eq_some.mp indexed).1, bears⟩
  · obtain ⟨identity, here, -⟩ := handled job bears.registered
    exact absurd found.symm (Nat.ne_of_lt (Arena.lt_of_identity? here))

/-- If a registered resource has the URN, then looking the URN up and resolving any reference to it
lead to a registered resource that has it and make nothing, exactly if none was displaced. -/
theorem found_under_urn_iff (reachable : Reachable engine l) (genuine : l.deployment.Genuine)
    (registered : l.deployment.RegisteredUnder job urn) :
    (∃ job, l.deployment.RegisteredUnder job urn ∧
      l.deployment.resourceForUrn urn = (job.key, l.deployment) ∧
      ∀ reference : Reference, reference.urn = urn →
        l.deployment.referenceResource reference = (job.key, l.deployment)) ↔
      ¬ Displaced engine l urn := by
  have sound := reachable.sound
  have handled := sound.handled genuine
  constructor
  · rintro ⟨job, here, found, -⟩ ⟨before, first, history, old⟩
    have points := points_of_found handled (sound.registeredUnder_iff.mp here)
      (congrArg Prod.fst found)
    obtain ⟨job', bears, new⟩ := history.points_new first genuine points
    exact new (first.sound.registeredUnder_iff.mp (old job' (sound.registeredUnder_iff.mpr bears)))
  · intro kept
    have points := (reachable.points_or_displaced genuine
      (sound.registeredUnder_iff.mp registered)).resolve_right kept
    obtain ⟨job, bears, found⟩ := found_of_points handled points
    exact ⟨job, sound.registeredUnder_iff.mpr bears, found⟩

/-- A registered resource before and after the engine's answer, and after a handle was made for its
URN. -/
def asked : Ledger Unit :=
  (initial {} ()).registering { kind := .custom, type := "pkg:index:Thing", name := "thing" }

def answered : Ledger Unit := { asked with world := asked.world.runTask obliging 0 }

def renamed : Ledger Unit := answered.edit fun d => (d.dependencyResource "urn:thing").2

def thingJob : Registration :=
  { key := 0, type := "pkg:index:Thing", name := "thing", kind := .custom, parent := none
    args := [], options := {}, provider := none, explicitProviders := [], protect := none
    urnSlot := 0, idSlot := some 1, outputs := [] }

theorem asked_reachable : Reachable obliging asked :=
  Reachable.registering ⟨{}, (), .here⟩ rfl

theorem answered_reachable : Reachable obliging answered :=
  asked_reachable.step (.runTask asked 0)

theorem answered_genuine : answered.deployment.Genuine := by
  have all : answered.deployment.registrations = [thingJob] := rfl
  simp [Genuine, all, thingJob]

theorem answered_registered : answered.deployment.RegisteredUnder thingJob "urn:thing" :=
  ⟨by simp [show answered.deployment.registrations = [thingJob] from rfl], rfl⟩

theorem found_under_urn_iff_answered :
    Reachable obliging answered ∧ answered.deployment.Genuine ∧
      answered.deployment.RegisteredUnder thingJob "urn:thing" ∧
      ¬ Displaced obliging answered "urn:thing" := by
  refine ⟨answered_reachable, answered_genuine, answered_registered, ?_⟩
  refine (found_under_urn_iff answered_reachable answered_genuine answered_registered).mp ?_
  refine ⟨thingJob, answered_registered, rfl, ?_⟩
  rintro ⟨_, id, packageVersion⟩ rfl
  rfl

/-- A registered resource has the URN, and the URN leads to a handle; a reference with an id even
makes another one. -/
theorem handle_displaces_registered :
    Reachable obliging renamed ∧ renamed.deployment.RegisteredUnder thingJob "urn:thing" ∧
      renamed.deployment.resourceForUrn "urn:thing" = (1, renamed.deployment) ∧
      (renamed.deployment.referenceResource ⟨"urn:thing", some "id", none⟩).1 = 2 ∧
      renamed.deployment.registrations = [thingJob] ∧ renamed.deployment.arena.size = 2 ∧
      (renamed.deployment.arena.identity? 1).map Identity.kind = some .dependency :=
  ⟨answered_reachable.step (.reads answered (.dependencyResource "urn:thing")),
    ⟨answered_registered.1, rfl⟩, rfl, rfl, rfl, rfl, rfl⟩

end Ledger

end Provision
