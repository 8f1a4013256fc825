import Mathlib.Data.List.Induction
import Provision.Proofs.Output.Observations

/-!
# The life of outputs

A program creates slots, completes them, asks about them and drops them, defines outputs over slots
and over the outputs defined before, and observes any of these, in any order. Every history of such
events is `Orderly`: a slot is completed once and says so, what was found stays, and functions run
at most once, on known values only (`History.orderly`).

A slot goes through the phases of `Phase`; an event moves it on (`Phase.step`). What was found stays
with every event (`Step.settles`), and so does the soundness of the journal (`Step.sound`).
-/

namespace Provision

def Graph.Has {V : Type} (graph : Graph V) : Source → Prop
  | .slot number => number < graph.slots.length
  | .cell number => number < graph.cells.length

/-- The outputs of a program, and the slots it has not dropped. -/
structure Keeper (V : Type) where
  journal : Journal V
  held : List Nat

/-- What a program does, with the answer it gets. -/
inductive Event (V : Type) where
  | created (slot : Nat) (name : String)
  | attempted (slot : Nat) (outcome : Settled V) (answer : Except Failure Unit)
  | asked (slot : Nat) (answer : Bool)
  | dropped (slot : Nat)
  | defined (output : Output V)
  | observed (source : Source) (answer : Option (Settled V))

namespace Keeper

variable {V : Type}

abbrev graph (k : Keeper V) : Graph V := k.journal.graph

def empty : Keeper V := ⟨⟨Graph.empty, []⟩, []⟩

/-- The graph changed, and all else as before. -/
def edit (k : Keeper V) (graph : Graph V) : Keeper V := ⟨⟨graph, k.journal.ran⟩, k.held⟩

@[simp] theorem edit_graph (k : Keeper V) (graph : Graph V) : (k.edit graph).graph = graph := rfl

/-- One event. A dropped slot can no longer be used, as its owner has given it up. -/
inductive Step : Keeper V → Event V → Keeper V → Prop where
  | create (k : Keeper V) (name : String) :
      Step k (.created (k.graph.addSlot name).1 name)
        ⟨⟨(k.graph.addSlot name).2, k.journal.ran⟩, (k.graph.addSlot name).1 :: k.held⟩
  | attempt (k : Keeper V) {slot : Nat} (held : slot ∈ k.held) (outcome : Settled V) :
      Step k (.attempted slot outcome (k.graph.complete slot outcome).1)
        (k.edit (k.graph.complete slot outcome).2)
  | ask (k : Keeper V) {slot : Nat} (held : slot ∈ k.held) :
      Step k (.asked slot (k.graph.isResolved slot)) k
  | drop (k : Keeper V) {slot : Nat} (held : slot ∈ k.held) :
      Step k (.dropped slot) ⟨⟨k.graph.drop slot, k.journal.ran⟩, k.held.filter (· ≠ slot)⟩
  | define (k : Keeper V) {output : Output V} (sourced : output.Over k.graph.Has) :
      Step k (.defined output) (k.edit (k.graph.define output).2)
  | observe (k : Keeper V) (source : Source) :
      Step k (.observed source (k.graph.observe source).1)
        ⟨⟨(k.graph.observe source).2, (k.journal.observe source).2.ran⟩, k.held⟩

inductive History : Keeper V → List (Event V) → Keeper V → Prop where
  | nil (k : Keeper V) : History k [] k
  | cons {k k' k'' : Keeper V} {event : Event V} {events : List (Event V)} (step : Step k event k')
      (rest : History k' events k'') : History k (event :: events) k''

variable {k k' : Keeper V} {event : Event V} {past rest events : List (Event V)}

theorem History.split (history : History k (past ++ rest) k') :
    ∃ middle, History k past middle ∧ History middle rest k' := by
  induction past generalizing k with
  | nil => exact ⟨k, .nil k, history⟩
  | cons event past ih =>
    cases history with
    | cons step later =>
      obtain ⟨middle, before, after⟩ := ih later
      exact ⟨middle, .cons step before, after⟩

/-- What every event keeps, a history keeps. -/
theorem History.keeps {P : Keeper V → Prop}
    (keeps : ∀ {k k' : Keeper V} {event : Event V}, Step k event k' → P k → P k')
    (history : History k events k') (h : P k) : P k' := by
  induction history with
  | nil k => exact h
  | cons step _ ih => exact ih (keeps step h)

/-! ## Slots -/

/-- The name under which an event creates the slot. -/
def creation? (slot : Nat) : Event V → Option String
  | .created number name => if number = slot then some name else none
  | _ => none

/-- The answer to an attempt to complete the slot. -/
def attempt? (slot : Nat) : Event V → Option (Except Failure Unit)
  | .attempted number _ answer => if number = slot then some answer else none
  | _ => none

def creations (slot : Nat) (events : List (Event V)) : List String :=
  events.filterMap (creation? slot)

/-- The answers to the attempts to complete the slot, by data or by a failure. -/
def attempts (slot : Nat) (events : List (Event V)) : List (Except Failure Unit) :=
  events.filterMap (attempt? slot)

theorem creations_concat (slot : Nat) (past : List (Event V)) (event : Event V) :
    creations slot (past ++ [event]) = creations slot past ++ (creation? slot event).toList := by
  cases last : creation? slot event <;> simp [creations, last]

theorem attempts_concat (slot : Nat) (past : List (Event V)) (event : Event V) :
    attempts slot (past ++ [event]) = attempts slot past ++ (attempt? slot event).toList := by
  cases last : attempt? slot event <;> simp [attempts, last]

theorem mem_creations {slot : Nat} {name : String} :
    name ∈ creations slot events ↔ .created slot name ∈ events := by
  unfold creations
  rw [List.mem_filterMap]
  constructor
  · rintro ⟨event, isIn, same⟩
    cases event with
    | created number other =>
      obtain ⟨rfl, rfl⟩ : number = slot ∧ other = name := by simpa [creation?] using same
      exact isIn
    | _ => cases same
  · intro isIn
    exact ⟨_, isIn, by simp [creation?]⟩

/-- How far a slot has come, after the events of the past. -/
inductive Phase (slot : Nat) (past : List (Event V)) (k : Keeper V) : Prop where
  | absent (found : k.graph.slots[slot]? = none) (held : slot ∉ k.held)
      (created : creations slot past = []) (attempted : attempts slot past = [])
  | waiting (name : String) (found : k.graph.slots[slot]? = some ⟨name, none⟩)
      (created : creations slot past = [name]) (attempted : attempts slot past = [])
  | completed (name : String) (outcome : Settled V) (later : Nat)
      (found : k.graph.slots[slot]? = some ⟨name, some outcome⟩)
      (created : creations slot past = [name])
      (attempted : attempts slot past =
        .ok () :: List.replicate later (.error (.alreadyResolved name)))
  | abandoned (name : String)
      (found : k.graph.slots[slot]? = some ⟨name, some (.error (Slot.dropped name))⟩)
      (held : slot ∉ k.held) (created : creations slot past = [name])
      (attempted : attempts slot past = [])

namespace Phase

variable {slot : Nat}

/-- An event that is not about the slot leaves it in its phase. -/
theorem untouched (phase : Phase slot past k) (creation : creation? slot event = none)
    (attempt : attempt? slot event = none)
    (same : k'.graph.slots[slot]? = k.graph.slots[slot]?) (held : slot ∈ k'.held → slot ∈ k.held) :
    Phase slot (past ++ [event]) k' := by
  have created : creations slot (past ++ [event]) = creations slot past := by
    simp [creations_concat, creation]
  have attempted : attempts slot (past ++ [event]) = attempts slot past := by
    simp [attempts_concat, attempt]
  cases phase with
  | absent found out never noAttempt =>
    exact .absent (same.trans found) (fun isIn => out (held isIn)) (created.trans never)
      (attempted.trans noAttempt)
  | waiting name found one noAttempt =>
    exact .waiting name (same.trans found) (created.trans one) (attempted.trans noAttempt)
  | completed name outcome later found one all =>
    exact .completed name outcome later (same.trans found) (created.trans one)
      (attempted.trans all)
  | abandoned name found out one noAttempt =>
    exact .abandoned name (same.trans found) (fun isIn => out (held isIn)) (created.trans one)
      (attempted.trans noAttempt)

theorem created (phase : Phase slot past k) (name : String)
    (fresh : slot = (k.graph.addSlot name).1) :
    Phase slot (past ++ [.created slot name])
      ⟨⟨(k.graph.addSlot name).2, k.journal.ran⟩, slot :: k.held⟩ := by
  have missing : k.graph.slots[slot]? = none := by simp [fresh, Graph.addSlot]
  cases phase with
  | absent _ _ before noAttempt =>
    refine .waiting name ?_ ?_ ?_
    · simp [fresh, Graph.addSlot]
    · simpa [creations_concat, creation?] using before
    · simpa [attempts_concat, attempt?] using noAttempt
  | _ => simp_all

theorem attempted (phase : Phase slot past k) (held : slot ∈ k.held) (outcome : Settled V) :
    Phase slot (past ++ [.attempted slot outcome (k.graph.complete slot outcome).1])
      (k.edit (k.graph.complete slot outcome).2) := by
  cases phase with
  | absent _ out => exact absurd held out
  | waiting name found one noAttempt =>
    have lt := (List.getElem?_eq_some_iff.mp found).1
    have step : k.graph.complete slot outcome =
        (.ok (), { k.graph with slots := k.graph.slots.set slot ⟨name, some outcome⟩ }) := by
      simp [Graph.complete, found, Slot.complete]
    rw [step]
    refine .completed name outcome 0 ?_ ?_ ?_
    · simp [edit, lt]
    · simpa [creations_concat, creation?] using one
    · simpa [attempts_concat, attempt?] using noAttempt
  | completed name first later found one all =>
    have step : k.graph.complete slot outcome = (.error (.alreadyResolved name), k.graph) := by
      simp [Graph.complete, found, Slot.complete]
    rw [step]
    refine .completed name first (later + 1) found ?_ ?_
    · simpa [creations_concat, creation?] using one
    · rw [attempts_concat, all, List.replicate_succ']
      simp [attempt?]
  | abandoned _ _ out => exact absurd held out

theorem dropped (phase : Phase slot past k) (held : slot ∈ k.held) :
    Phase slot (past ++ [.dropped slot])
      ⟨⟨k.graph.drop slot, k.journal.ran⟩, k.held.filter (· ≠ slot)⟩ := by
  cases phase with
  | absent _ out => exact absurd held out
  | waiting name found one noAttempt =>
    refine .abandoned name ?_ ?_ ?_ ?_
    · simp [Graph.drop, found, Slot.drop]
    · simp
    · simpa [creations_concat, creation?] using one
    · simpa [attempts_concat, attempt?] using noAttempt
  | completed name outcome later found one all =>
    refine .completed name outcome later ?_ ?_ ?_
    · simp [Graph.drop, found, Slot.drop]
    · simpa [creations_concat, creation?] using one
    · simpa [attempts_concat, attempt?] using all
  | abandoned _ _ out => exact absurd held out

/-- An event moves a slot on from phase to phase. -/
theorem step (phase : Phase slot past k) (step : Step k event k') :
    Phase slot (past ++ [event]) k' := by
  cases step with
  | create name =>
    by_cases fresh : slot = (k.graph.addSlot name).1
    · rw [← fresh]
      exact phase.created name fresh
    · refine phase.untouched ?_ rfl ?_ ?_
      · simp [creation?, Ne.symm fresh]
      · simp only [Graph.addSlot] at fresh ⊢
        rw [List.getElem?_append]
        split
        · rfl
        · rw [List.getElem?_eq_none (by simp; omega), List.getElem?_eq_none (by omega)]
      · simp [fresh]
  | @attempt number held outcome =>
    by_cases same : number = slot
    · subst same
      exact phase.attempted held outcome
    · refine phase.untouched rfl ?_ ?_ id
      · simp [attempt?, same]
      · exact (Graph.complete_writes k.graph number outcome).same (by simp)
          (by simpa using Ne.symm same)
  | ask held => exact phase.untouched rfl rfl rfl id
  | @drop number held =>
    by_cases same : number = slot
    · subst same
      exact phase.dropped held
    · refine phase.untouched rfl rfl ?_ ?_
      · exact (Graph.drop_writes k.graph number).same (by simp [Graph.drop])
          (by simpa using Ne.symm same)
      · intro isIn
        exact (List.mem_filter.mp isIn).1
  | define sourced => exact phase.untouched rfl rfl rfl id
  | observe source => exact phase.untouched rfl rfl (by rw [graph, Graph.observe_slots]) id

end Phase

theorem History.phase (history : History empty events k) (slot : Nat) : Phase slot events k := by
  induction events using List.reverseRecOn generalizing k with
  | nil =>
    cases history
    exact .absent rfl (by simp [empty]) rfl rfl
  | append_singleton past event ih =>
    obtain ⟨middle, before, last⟩ := history.split
    cases last with
    | cons step ended =>
      cases ended
      exact (ih before).step step

/-! ## What was found, and what has run -/

/-- What is settled stays so. -/
theorem Step.settles {source : Source} {result : Settled V} (step : Step k event k')
    (settles : k.graph.Settles result source) : k'.graph.Settles result source := by
  cases step with
  | create name =>
    cases source with
    | slot number => exact (Graph.addSlot_writes k.graph name).resolved number result settles
    | cell number => exact settles
  | @attempt slot held outcome =>
    cases source with
    | slot number =>
      exact (Graph.complete_writes k.graph slot outcome).resolved number result settles
    | cell number =>
      obtain ⟨calls, found⟩ := settles
      refine ⟨calls, ?_⟩
      rw [edit_graph, Graph.complete_cells]
      exact found
  | ask held => exact settles
  | @drop slot held =>
    cases source with
    | slot number => exact (Graph.drop_writes k.graph slot).resolved number result settles
    | cell number => exact settles
  | define sourced =>
    cases source with
    | slot number => exact settles
    | cell number =>
      obtain ⟨calls, found⟩ := settles
      refine ⟨calls, (List.getElem?_append_left ?_).trans found⟩
      exact (List.getElem?_eq_some_iff.mp found).1
  | observe other => exact settles.observed other

/-- The journal stays sound. -/
theorem Step.sound (step : Step k event k') (sound : k.journal.Sound) : k'.journal.Sound := by
  cases step with
  | create name => exact sound.of_cells rfl
  | @attempt slot held outcome => exact sound.of_cells (Graph.complete_cells k.graph slot outcome)
  | ask held => exact sound
  | drop held => exact sound.of_cells rfl
  | define sourced =>
    refine sound.define (Output.over_mono ?_ sourced)
    intro origin has
    cases origin with
    | slot number => exact Nat.zero_le _
    | cell number => exact has
  | observe source =>
    have observed := sound.observe source
    rw [← Journal.observe_graph]
    exact observed

theorem History.settles {source : Source} {result : Settled V} (history : History k events k')
    (settles : k.graph.Settles result source) : k'.graph.Settles result source :=
  history.keeps (P := fun k => k.graph.Settles result source) Step.settles settles

theorem History.sound (history : History empty events k) : k.journal.Sound :=
  history.keeps (P := fun k => k.journal.Sound) Step.sound .empty

/-- What a source settled before a history answers after it. -/
theorem History.answer {source : Source} {result : Settled V} {answer : Option (Settled V)}
    (history : History k (past ++ .observed source answer :: rest) k')
    (settles : k.graph.Settles result source) : answer = some result := by
  obtain ⟨middle, before, after⟩ := history.split
  cases after with
  | cons step _ =>
    cases step with
    | observe => exact (before.settles settles).answer

/-- The promises about the events of a program, and the state `k` that they lead to. -/
structure Orderly (events : List (Event V)) (k : Keeper V) : Prop where
  /-- Of the attempts to complete a slot the first succeeds, and every later one is told that the
  slot of this name is completed. -/
  completed_once : ∀ slot, attempts slot events = [] ∨ ∃ name later,
    (∀ other, .created slot other ∈ events ↔ other = name) ∧
      attempts slot events = .ok () :: List.replicate later (.error (.alreadyResolved name))
  /-- A slot is resolved exactly after the first attempt. -/
  asked_truly : ∀ past slot answer rest, events = past ++ .asked slot answer :: rest →
    (answer = true ↔ attempts slot past ≠ [])
  /-- The output of a slot that is dropped before any attempt fails. -/
  dropped_fails : ∀ past slot name between answer rest,
    events = past ++ .dropped slot :: (between ++ .observed (.slot slot) answer :: rest) →
    .created slot name ∈ past → attempts slot past = [] →
    answer = some (.error (.registrationFailed name
      "completion slot dropped before it was resolved"))
  /-- What an output was once found to be it is found to be ever after. -/
  found_stays : ∀ past source result between answer rest,
    events = past ++ .observed source (some result) ::
      (between ++ .observed source answer :: rest) →
    answer = some result
  /-- No function runs twice: none at the same place of the same output. -/
  runs_once : (k.journal.ran.map fun entry => (entry.1, entry.2.place)).Nodup
  /-- No function runs on a failure, or on data whose value is not known. -/
  runs_on_known : ∀ entry ∈ k.journal.ran, entry.2.OnKnown
  /-- The runs noted are the calls that the outputs count. -/
  runs_counted : ∀ number, k.graph.calls (.cell number) =
    k.journal.ran.countP fun entry => entry.1 = number

theorem History.completed_once (history : History empty events k) (slot : Nat) :
    attempts slot events = [] ∨ ∃ name later,
      (∀ other, .created slot other ∈ events ↔ other = name) ∧
        attempts slot events = .ok () :: List.replicate later (.error (.alreadyResolved name)) := by
  cases history.phase slot with
  | absent _ _ _ attempted => exact .inl attempted
  | waiting _ _ _ attempted => exact .inl attempted
  | completed name outcome later _ created attempted =>
    refine .inr ⟨name, later, fun other => ?_, attempted⟩
    rw [← mem_creations, created, List.mem_singleton]
  | abandoned _ _ _ _ attempted => exact .inl attempted

theorem History.asked_truly {slot : Nat} {answer : Bool}
    (history : History empty (past ++ .asked slot answer :: rest) k) :
    answer = true ↔ attempts slot past ≠ [] := by
  obtain ⟨middle, before, after⟩ := history.split
  cases after with
  | cons step _ =>
    cases step with
    | ask held =>
      cases before.phase slot with
      | absent _ out => exact absurd held out
      | waiting name found _ attempted => simp [Graph.isResolved, found, Slot.isResolved, attempted]
      | completed name outcome later found _ attempted =>
        simp [Graph.isResolved, found, Slot.isResolved, attempted]
      | abandoned _ _ out => exact absurd held out

theorem History.dropped_fails {slot : Nat} {name : String} {answer : Option (Settled V)}
    {between : List (Event V)}
    (history : History empty
      (past ++ .dropped slot :: (between ++ .observed (.slot slot) answer :: rest)) k)
    (isCreated : .created slot name ∈ past) (unattempted : attempts slot past = []) :
    answer = some (.error (Slot.dropped name)) := by
  obtain ⟨middle, before, after⟩ := history.split
  cases after with
  | cons step later =>
    cases step with
    | drop held =>
      have fails : (middle.graph.drop slot).Settles (.error (Slot.dropped name)) (.slot slot) := by
        cases before.phase slot with
        | absent _ out => exact absurd held out
        | waiting other found created _ =>
          rw [← mem_creations, created, List.mem_singleton] at isCreated
          subst isCreated
          exact ⟨name, by simp [Graph.drop, found, Slot.drop]⟩
        | completed _ _ _ _ _ attempted =>
          rw [unattempted] at attempted
          cases attempted
        | abandoned _ _ out => exact absurd held out
      exact later.answer fails

theorem History.found_stays {source : Source} {result : Settled V} {answer : Option (Settled V)}
    {between : List (Event V)}
    (history : History k
      (past ++ .observed source (some result) :: (between ++ .observed source answer :: rest)) k') :
    answer = some result := by
  obtain ⟨middle, before, after⟩ := history.split
  cases after with
  | cons step later =>
    generalize same : some result = first at step
    cases step with
    | observe => exact (later.answer (Graph.settles_of_answer same.symm)).trans same

/-- Whatever a program does with slots and outputs, and in whichever order, is orderly. -/
theorem History.orderly (history : History empty events k) : Orderly events k where
  completed_once := history.completed_once
  asked_truly := by
    rintro past slot answer rest rfl
    exact history.asked_truly
  dropped_fails := by
    rintro past slot name between answer rest rfl isCreated unattempted
    exact history.dropped_fails isCreated unattempted
  found_stays := by
    rintro past source result between answer rest rfl
    exact history.found_stays
  runs_once := history.sound.once
  runs_on_known := history.sound.known
  runs_counted := history.sound.calls

/-- Two slots, of which one is completed twice and one is dropped, and outputs over them that are
observed before and after. -/
def tale : List (Event Nat) := [
  .created 0 "size",
  .created 1 "place",
  .defined (.map (· + 1) (.source (.slot 0))),
  .defined (.apply (fun v => .map (· * v) (.source (.cell 0))) (.source (.slot 0))),
  .defined (.tuple Nat.add (.source (.cell 1)) (.source (.slot 1))),
  .observed (.cell 1) none,
  .attempted 0 (.ok ⟨some 2, false, [0]⟩) (.ok ()),
  .attempted 0 (.error (.output "late")) (.error (.alreadyResolved "size")),
  .asked 0 true,
  .asked 1 false,
  .observed (.cell 1) (some (.ok ⟨some 6, false, [0]⟩)),
  .dropped 1,
  .observed (.slot 1) (some (.error (.registrationFailed "place"
    "completion slot dropped before it was resolved"))),
  .observed (.cell 2) (some (.error (.registrationFailed "place"
    "completion slot dropped before it was resolved"))),
  .observed (.cell 1) (some (.ok ⟨some 6, false, [0]⟩))]

/-- Each of the three functions runs once, the inner one at the second observation of the cell. -/
theorem tale_history : ∃ k : Keeper Nat, History empty tale k ∧
    (k.journal.ran.map fun entry => (entry.1, entry.2.place)) =
      [(0, []), (1, []), (1, [.product])] := by
  have zero : 0 < 2 := by decide
  have one : 1 < 2 := by decide
  refine ⟨?_, ?history, ?runs⟩
  case history =>
    refine .cons (.create _ "size") ?_
    refine .cons (.create _ "place") ?_
    refine .cons (.define _ zero) ?_
    refine .cons (.define _ ⟨fun _ => Nat.one_pos, zero⟩) ?_
    refine .cons (.define _ ⟨one, one⟩) ?_
    refine .cons (.observe _ (.cell 1)) ?_
    refine .cons (.attempt _ (by decide) (.ok ⟨some 2, false, [0]⟩)) ?_
    refine .cons (.attempt _ (by decide) (.error (.output "late"))) ?_
    refine .cons (.ask _ (by decide)) ?_
    refine .cons (.ask _ (by decide)) ?_
    refine .cons (.observe _ (.cell 1)) ?_
    refine .cons (.drop _ (by decide)) ?_
    refine .cons (.observe _ (.slot 1)) ?_
    refine .cons (.observe _ (.cell 2)) ?_
    refine .cons (.observe _ (.cell 1)) ?_
    exact .nil _
  case runs => rfl

theorem orderly_tale : ∃ k : Keeper Nat, History empty tale k ∧
    (k.journal.ran.map fun entry => (entry.1, entry.2.place)) =
      [(0, []), (1, []), (1, [.product])] ∧ Orderly tale k := by
  obtain ⟨k, history, ran⟩ := tale_history
  exact ⟨k, history, ran, history.orderly⟩

end Keeper

end Provision
