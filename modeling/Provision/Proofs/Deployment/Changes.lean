import Mathlib.Logic.Relation
import Provision.Proofs.Deployment.Uniformity

/-!
# What changes between registrations

Whatever happens in a deployment while no registration is started is made of three elementary
changes: a registered resource gets its URN and is indexed under it, a handle is made for a URN
under which none of the program's own resources is found, or the resources stay as they are. In
each of them every resource keeps what it is and what its children inherit, and every
registration its job (`Changes.registrations`, `Changes.inheritance`).
-/

namespace Provision

/-- The resource that stands for one known by a reference only. -/
def Reference.handle (reference : Reference) (key : Key) : Identity :=
  { type := ((Urn.parse? reference.urn).getD ("", "")).1
    name := ((Urn.parse? reference.urn).getD ("", "")).2
    kind := .dependency
    urn := .settled (.ok ⟨some reference.urn, false, [key]⟩)
    id := reference.id.map fun id =>
      .settled (.ok ⟨if id = "" then none else some id, false, [key]⟩)
    packageVersion := reference.packageVersion }

def Job.registration? : Job → Option Registration
  | .registration job => some job
  | .call _ => none

namespace Graph

def known (graph : Graph HostValue) (slot : Nat) : Option String :=
  match (graph.slots[slot]?).bind Slot.outcome with
  | some (.ok data) => data.value.map TextOutput.textOf
  | _ => none

variable {graph : Graph HostValue} {slot n : Nat}

theorem known_congr {graph' : Graph HostValue} (same : graph'.slots[n]? = graph.slots[n]?) :
    graph'.known n = graph.known n := by
  unfold known
  rw [same]

theorem IsOpen.known (h : graph.IsOpen n) : graph.known n = none := by
  obtain ⟨name, h⟩ := h
  simp [Graph.known, h]

theorem Holds.known_ok {data : Data HostValue} (h : graph.Holds n (.ok data)) :
    graph.known n = data.value.map TextOutput.textOf := by
  obtain ⟨name, h⟩ := h
  simp [Graph.known, h]

theorem Holds.known_error {cause : Failure} (h : graph.Holds n (.error cause)) :
    graph.known n = none := by
  obtain ⟨name, h⟩ := h
  simp [Graph.known, h]

theorem holds_of_known {text : String} (h : graph.known n = some text) :
    ∃ data, graph.Holds n (.ok data) ∧ data.value.map TextOutput.textOf = some text := by
  unfold known at h
  split at h
  · rename_i data found
    obtain ⟨⟨name, outcome⟩, here, rfl⟩ := Option.bind_eq_some_iff.mp found
    exact ⟨data, ⟨name, here⟩, h⟩
  · cases h

theorem Holds.known_congr {result : Settled HostValue} {graph' : Graph HostValue}
    (h : graph.Holds n result) (h' : graph'.Holds n result) : graph'.known n = graph.known n := by
  obtain ⟨name, h⟩ := h
  obtain ⟨name', h'⟩ := h'
  simp [Graph.known, h, h']

theorem known_addSlot (graph : Graph HostValue) (name : String) (n : Nat) :
    (graph.addSlot name).2.known n = graph.known n := by
  unfold known addSlot
  dsimp only
  rcases Nat.lt_trichotomy n graph.slots.length with less | rfl | more
  · rw [List.getElem?_append_left less]
  · simp
  · rw [List.getElem?_eq_none (by simp; omega), List.getElem?_eq_none (by omega)]

/-- What is observed of a text in a slot. -/
theorem awaitValue_slot {text : String} :
    awaitValue ((TextOutput.source (.slot n)).peek graph) = .done (some text) ↔
      graph.known n = some text := by
  have peeked : graph.peek (.slot n) = (graph.slots[n]?).bind Slot.outcome := by
    simp [Graph.peek, Graph.observe, Graph.observeWithin]
  simp only [TextOutput.peek, Graph.known, peeked]
  cases (graph.slots[n]?).bind Slot.outcome with
  | none => simp [awaitValue]
  | some result =>
    cases result with
    | error cause => simp [awaitValue, Except.map]
    | ok data => simp [awaitValue, Except.map, Data.map]

/-- An outcome without a text names nothing. -/
def Unnamed (outcome : Settled HostValue) : Prop := ∀ data, outcome = .ok data → data.value = none

/-- Completing a slot changes nothing about the text of another, of one that has an outcome
already, or by an outcome without a text. -/
theorem known_complete {outcome : Settled HostValue}
    (other : n = slot → (∃ result, graph.Holds n result) ∨ Unnamed outcome) :
    (graph.complete slot outcome).2.known n = graph.known n := by
  by_cases same : n = slot
  · have writes := complete_writes graph slot outcome
    rcases other same with ⟨result, holds⟩ | unnamed
    · exact holds.known_congr (writes.resolved n result holds)
    · subst same
      cases found : graph.slots[n]? with
      | none => simp [complete, found]
      | some old =>
        obtain ⟨name, _ | result⟩ := old
        · have isOpen : graph.IsOpen n := ⟨name, found⟩
          rw [isOpen.known]
          have holds := (complete_of_open isOpen outcome).2
          cases outcome with
          | error cause =>
            obtain ⟨name, holds⟩ := holds
            simp [known, holds]
          | ok data => rw [holds.known_ok, unnamed data rfl, Option.map_none]
        · have holds : graph.Holds n result := ⟨name, found⟩
          exact holds.known_congr (writes.resolved n result holds)
  · have writes := complete_writes graph slot outcome
    exact known_congr (writes.same (complete_length graph slot outcome) (by simpa using same))

theorem known_drop (graph : Graph HostValue) (slot n : Nat) :
    (graph.drop slot).known n = graph.known n := by
  by_cases same : slot = n
  · subst same
    unfold known drop
    dsimp only
    rw [List.getElem?_modify_eq]
    cases graph.slots[slot]? with
    | none => rfl
    | some old =>
      obtain ⟨name, _ | result⟩ := old
      · rfl
      · rfl
  · exact known_congr (by simp [drop, same])

end Graph

namespace Deployment

open Relation

/-- The registrations of a deployment, in the order in which they were accepted. -/
def registrations (d : Deployment) : List Registration :=
  (d.tasks.map Task.job).filterMap Job.registration?

theorem mem_registrations {d : Deployment} {job : Registration} :
    job ∈ d.registrations ↔
      ∃ progress tracked, ⟨.registration job, progress, tracked⟩ ∈ d.tasks := by
  unfold registrations
  simp only [List.mem_filterMap, List.mem_map]
  constructor
  · rintro ⟨_, ⟨⟨job', progress, tracked⟩, member, rfl⟩, is⟩
    cases job' with
    | registration other =>
      cases is
      exact ⟨progress, tracked, member⟩
    | call other => cases is
  · rintro ⟨progress, tracked, member⟩
    exact ⟨_, ⟨_, member, rfl⟩, rfl⟩

theorem registrations_note (d : Deployment) (number : Nat) (progress : Progress) :
    (d.note number progress).registrations = d.registrations := by
  have jobs : (d.note number progress).tasks.map Task.job = d.tasks.map Task.job := by
    refine List.ext_getElem? fun i => ?_
    simp only [note, List.getElem?_map, List.getElem?_modify]
    split
    · cases d.tasks[i]? <;> rfl
    · simp
  simp only [registrations, jobs]

/-- An elementary change of a deployment in which no registration is started. -/
inductive Change (d : Deployment) : Deployment → Prop where
  /-- Outputs, the progress of tasks and reports; the URN of no registration. -/
  | aside {d' : Deployment} (arena : d'.arena = d.arena)
      (registrations : d'.registrations = d.registrations)
      (resolved : ∀ n result, d.graph.Holds n result → d'.graph.Holds n result)
      (known : ∀ job ∈ d.registrations,
        d'.graph.known job.urnSlot = d.graph.known job.urnSlot) : Change d d'
  /-- A registered resource gets its URN, under which it is indexed. -/
  | named {d' : Deployment} {job : Registration} (member : job ∈ d.registrations)
      (before : d.graph.known job.urnSlot = none) (urn : String)
      (arena : d'.arena = d.arena.recordUrn job.key urn)
      (registrations : d'.registrations = d.registrations)
      (resolved : ∀ n result, d.graph.Holds n result → d'.graph.Holds n result)
      (after : d'.graph.known job.urnSlot = some urn)
      (known : ∀ other ∈ d.registrations, other.urnSlot ≠ job.urnSlot →
        d'.graph.known other.urnSlot = d.graph.known other.urnSlot) : Change d d'
  /-- A handle is made for a URN under which no resource but another handle is found. -/
  | stood (reference : Reference)
      (free : ∀ key identity, d.arena.urns.lookup reference.urn = some key →
        d.arena.identity? key = some identity → identity.kind = .dependency) :
      Change d
        (d.insertDependency reference.urn reference.id reference.packageVersion).2

/-- Elementary changes, one after the other. -/
abbrev Changes : Deployment → Deployment → Prop := ReflTransGen Change

theorem insertDependency_eq (d : Deployment) (reference : Reference) :
    d.insertDependency reference.urn reference.id reference.packageVersion =
      (d.arena.size,
        { d with
          arena := (d.arena.insert {} reference.handle).2.recordUrn d.arena.size reference.urn }) :=
  rfl

/-- A handle hands nothing down, like a resource that does not exist. -/
theorem inheritance_insertDependency (reference : Reference) (d : Deployment) (key : Key) :
    (d.insertDependency reference.urn reference.id reference.packageVersion).2.arena.inheritance
      key = d.arena.inheritance key := by
  rw [insertDependency_eq, Arena.inheritance_recordUrn, Arena.inheritance_insert]
  split
  · rename_i new
    subst new
    unfold Arena.inheritance Arena.node? Arena.size
    rw [List.getElem?_eq_none (Nat.le_refl _)]
    rfl
  · rfl

namespace Changes

variable {d d' : Deployment}

theorem single (change : Change d d') : Changes d d' := ReflTransGen.single change

theorem registrations (changes : Changes d d') : d'.registrations = d.registrations := by
  induction changes with
  | refl => rfl
  | tail _ change ih =>
    rw [← ih]
    cases change with
    | aside _ registrations => exact registrations
    | named _ _ _ _ registrations => exact registrations
    | stood reference => rfl

theorem resolved (changes : Changes d d') {n : Nat} {result : Settled HostValue}
    (holds : d.graph.Holds n result) : d'.graph.Holds n result := by
  induction changes with
  | refl => exact holds
  | tail _ change ih =>
    cases change with
    | aside _ _ resolved => exact resolved n result ih
    | named _ _ _ _ _ resolved => exact resolved n result ih
    | stood reference => exact ih

theorem identities (changes : Changes d d') {key : Key} {identity : Identity}
    (here : d.arena.identity? key = some identity) : d'.arena.identity? key = some identity := by
  induction changes with
  | refl => exact here
  | tail _ change ih =>
    cases change with
    | aside arena => rwa [arena]
    | named _ _ _ arena => rwa [arena, Arena.identity?_recordUrn]
    | stood reference =>
      rw [insertDependency_eq, Arena.identity?_recordUrn]
      exact Arena.identity?_insert _ _ ih

/-- What is inherited from a key never changes. -/
theorem inheritance (changes : Changes d d') (key : Key) :
    d'.arena.inheritance key = d.arena.inheritance key := by
  induction changes with
  | refl => rfl
  | @tail d₁ d₂ _ change ih =>
    rw [← ih]
    cases change with
    | aside arena => rw [arena]
    | named _ _ _ arena => rw [arena, Arena.inheritance_recordUrn]
    | stood reference => exact inheritance_insertDependency reference d₁ key

end Changes

end Deployment

end Provision
