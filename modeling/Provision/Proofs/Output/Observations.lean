import Provision.Proofs.Output.Runs
import Provision.Proofs.Output.Slots

/-!
# Observations of a graph

A source that an observation has found settled stays settled with that result, whatever is observed
after it (`Settles.observed`). What runs in an observation is kept in a log beside the graph, one
entry for each function, with the cell and the place where it stands; the log never has a place
twice (`observeLogged_logged`).
-/

namespace Provision

namespace Output

variable {V γ δ : Type} {readBoth : Source → γ → Option (Settled V) × γ}
  {read : Source → δ → Option (Settled V) × δ} (project : γ → δ)

mutual

/-- An observation does not see what its state has beside the part that the sources are read in. -/
theorem pollWith_project
    (same : ∀ origin g, read origin (project g) =
      ((readBoth origin g).1, project (readBoth origin g).2)) :
    ∀ (output : Output V) (g : γ), pollWith read output (project g) =
      ((pollWith readBoth output g).1, project (pollWith readBoth output g).2)
  | .settled _, _ => rfl
  | .source origin, g => by
    unfold pollWith
    rw [same]
    obtain ⟨_ | result, g'⟩ := readBoth origin g <;> rfl
  | .async _ _, _ => rfl
  | .map f outer, g => by
    have ho := pollWith_project same outer g
    unfold pollWith
    dsimp only
    rw [ho]
    dsimp only
    split <;> rfl
  | .apply f outer, g => by
    have ho := pollWith_project same outer g
    unfold pollWith
    dsimp only
    rw [ho]
    dsimp only
    split
    · rw [pollWith_project same (f _) _]
    all_goals rfl
  | .after _ _ inner, g => by
    have hi := pollWith_project same inner g
    unfold pollWith
    dsimp only
    rw [hi]
  | .combine collect parts, g => by
    have hp := pollParts_project same (decide (eagerParts < parts.length)) false parts g
    unfold pollWith
    dsimp only
    rw [hp]
    dsimp only
    split <;> rfl
  | .tuple pair left right, g => by
    have hl := pollWith_project same left g
    have hr := pollWith_project same right (pollWith readBoth left g).2
    unfold pollWith
    dsimp only
    rw [hl]
    dsimp only
    rw [hr]
    dsimp only
    split
    · rfl
    · split <;> rfl
  | .asSecret inner, g => by
    have hi := pollWith_project same inner g
    unfold pollWith
    dsimp only
    rw [hi]
  | .withResources _ inner, g => by
    have hi := pollWith_project same inner g
    unfold pollWith
    dsimp only
    rw [hi]

theorem pollParts_project
    (same : ∀ origin g, read origin (project g) =
      ((readBoth origin g).1, project (readBoth origin g).2)) (patient waiting : Bool) :
    ∀ (parts : List (Output V)) (g : γ), pollParts read patient waiting parts (project g) =
      ((pollParts readBoth patient waiting parts g).1,
        project (pollParts readBoth patient waiting parts g).2)
  | [], _ => rfl
  | part :: rest, g => by
    have hp := pollWith_project same part g
    unfold pollParts
    dsimp only
    rw [hp]
    dsimp only
    split
    · rfl
    · rw [pollParts_project same patient _ rest (pollWith readBoth part g).2]

end

theorem result?_eq_some {output : Output V} {result : Settled V} :
    output.result? = some result ↔ output = .settled result := by
  cases output <;> simp [result?]

end Output

/-- Only cells with a smaller number lie behind a source. -/
def Source.reach : Source → Nat
  | .slot _ => 0
  | .cell number => number + 1

namespace Graph

variable {V : Type}

/-! ## What was found stays -/

/-- The source is settled with this result. -/
def Settles (graph : Graph V) (result : Settled V) : Source → Prop
  | .slot number => graph.Holds number result
  | .cell number => ∃ calls, graph.cells[number]? = some ⟨.settled result, calls⟩

theorem store_cells (graph : Graph V) (number : Nat) (polled : Output.Polled V) (n : Nat) :
    (graph.store number polled).cells[n]? =
      if number = n then graph.cells[n]?.map fun cell => ⟨polled.output, cell.calls + polled.calls⟩
      else graph.cells[n]? := by
  unfold store
  rw [List.getElem?_modify]
  split
  · rfl
  · exact Option.map_id'

theorem store_cells_cases {graph : Graph V} {number : Nat} {polled : Output.Polled V} {n : Nat}
    {cell : Cell V} (stored : (graph.store number polled).cells[n]? = some cell) :
    (n = number ∧ ∃ old, graph.cells[n]? = some old ∧
      cell = ⟨polled.output, old.calls + polled.calls⟩) ∨
    n ≠ number ∧ graph.cells[n]? = some cell := by
  rw [store_cells] at stored
  split at stored
  · rename_i same
    obtain ⟨old, found, same'⟩ := Option.map_eq_some_iff.mp stored
    exact .inl ⟨same.symm, old, found, same'.symm⟩
  · rename_i differ
    exact .inr ⟨Ne.symm differ, stored⟩

theorem observeWithin_settles {result : Settled V} {source : Source} (depth : Nat) (other : Source)
    (graph : Graph V) (settles : graph.Settles result source) :
    (observeWithin depth other graph).2.Settles result source := by
  induction depth generalizing other graph with
  | zero => cases other <;> exact settles
  | succ depth ih =>
    cases other with
    | slot number => exact settles
    | cell number =>
      unfold observeWithin
      split
      · exact settles
      · rename_i cell found
        have kept : (cell.output.pollWith (observeWithin depth) graph).2.Settles result source :=
          Output.pollWith_preserves (fun origin g => ih origin g) cell.output graph settles
        cases source with
        | slot n => exact kept
        | cell n =>
          obtain ⟨calls, before⟩ := settles
          obtain ⟨calls', kept⟩ := kept
          refine ⟨if number = n then calls' + 0 else calls', ?_⟩
          dsimp only
          rw [store_cells, kept]
          split
          · -- The cell itself is settled: observing it changes nothing.
            rename_i same
            subst same
            rw [before] at found
            cases found
            rfl
          · rfl

/-- What is settled stays as it is when anything is observed. -/
theorem Settles.observed {graph : Graph V} {result : Settled V} {source : Source}
    (settles : graph.Settles result source) (other : Source) :
    (graph.observe other).2.Settles result source :=
  observeWithin_settles _ other graph settles

/-- A settled source answers with its result. -/
theorem Settles.answer {graph : Graph V} {result : Settled V} {source : Source}
    (settles : graph.Settles result source) : (graph.observe source).1 = some result := by
  cases source with
  | slot number =>
    obtain ⟨name, held⟩ := settles
    simp [observe, observeWithin, held]
  | cell number =>
    obtain ⟨calls, held⟩ := settles
    unfold observe observeWithin
    rw [held]
    rfl

theorem observeWithin_cell {graph : Graph V} {number : Nat} {cell : Cell V} (depth : Nat)
    (found : graph.cells[number]? = some cell) :
    observeWithin (depth + 1) (.cell number) graph =
      ((cell.output.pollWith (observeWithin depth) graph).1.output.result?,
        (cell.output.pollWith (observeWithin depth) graph).2.store number
          (cell.output.pollWith (observeWithin depth) graph).1) := by
  rw [observeWithin, found]

theorem observeWithin_cells_length (depth : Nat) (source : Source) (graph : Graph V) :
    (observeWithin depth source graph).2.cells.length = graph.cells.length := by
  induction depth generalizing source graph with
  | zero => cases source <;> rfl
  | succ depth ih =>
    cases source with
    | slot number => rfl
    | cell number =>
      unfold observeWithin
      split
      · rfl
      · rename_i cell found
        have kept := Output.pollWith_preserves (P := fun g => g.cells.length = graph.cells.length)
          (fun origin g same => (ih origin g).trans same) cell.output graph rfl
        simpa [store] using kept

/-- What an observation has found, it has settled. -/
theorem settles_of_answer {graph : Graph V} {result : Settled V} {source : Source}
    (answer : (graph.observe source).1 = some result) :
    (graph.observe source).2.Settles result source := by
  cases source with
  | slot number =>
    obtain ⟨⟨name, outcome⟩, found, completed⟩ := Option.bind_eq_some_iff.mp answer
    cases completed
    exact ⟨name, found⟩
  | cell number =>
    cases found : graph.cells[number]? with
    | none =>
      rw [observe, observeWithin, found] at answer
      cases answer
    | some cell =>
      have length := observeWithin_cells_length (graph.cells.length + 1) (.cell number) graph
      have lt := (List.getElem?_eq_some_iff.mp found).1
      rw [observe, observeWithin_cell _ found] at answer ⊢
      rw [observeWithin_cell _ found] at length
      have settled := Output.result?_eq_some.mp answer
      obtain ⟨stored, isStored⟩ : ∃ stored, _[number]? = some stored :=
        ⟨_, List.getElem?_eq_getElem (Nat.lt_of_lt_of_eq lt length.symm)⟩
      refine ⟨stored.calls, isStored.trans ?_⟩
      obtain ⟨-, old, -, rfl⟩ | ⟨differ, -⟩ := store_cells_cases isStored
      · rw [settled]
      · exact absurd rfl differ

@[simp] theorem complete_cells (graph : Graph V) (number : Nat) (outcome : Settled V) :
    (graph.complete number outcome).2.cells = graph.cells := by
  unfold complete
  split
  · rfl
  · split <;> rfl

theorem define_cells {graph : Graph V} {output : Output V} {n : Nat} {cell : Cell V}
    (found : (graph.define output).2.cells[n]? = some cell) :
    graph.cells[n]? = some cell ∨ n = graph.cells.length ∧ cell = ⟨output, 0⟩ := by
  simp only [define] at found
  obtain lt | ge := Nat.lt_or_ge n graph.cells.length
  · rw [List.getElem?_append_left lt] at found
    exact .inl found
  · rw [List.getElem?_append_right ge, List.getElem?_singleton] at found
    split at found
    · cases found
      exact .inr ⟨by omega, rfl⟩
    · cases found

end Graph

/-! ## Functions run once -/

/-- A graph, and beside it the functions that have run, each with the number of its cell. -/
structure Journal (V : Type) where
  graph : Graph V
  ran : List (Nat × Output.Run V)

namespace Journal

variable {V : Type}

/-- Remember what an observation of a cell has found, and what has run for it. -/
def store (number : Nat) (polled : Output.Polled V) (ran : List (Output.Run V))
    (journal : Journal V) : Journal V :=
  ⟨journal.graph.store number polled, journal.ran ++ ran.map fun run => (number, run)⟩

/-- Observe a source as `Graph.observeWithin` does, and note what runs. -/
def observeWithin : Nat → Source → Journal V → Option (Settled V) × Journal V
  | _, .slot number, journal => (journal.graph.slots[number]?.bind Slot.outcome, journal)
  | 0, .cell _, journal => (none, journal)
  | depth + 1, .cell number, journal =>
    match journal.graph.cells[number]? with
    | none => (none, journal)
    | some cell =>
      let (polled, after) := cell.output.pollWith (observeWithin depth) journal
      (polled.output.result?,
        after.store number polled (cell.output.runs (observeWithin depth) journal))

def observe (source : Source) (journal : Journal V) : Option (Settled V) × Journal V :=
  observeWithin (journal.graph.cells.length + 1) source journal

/-- The notes do not change what is observed. -/
theorem observeWithin_graph (depth : Nat) (source : Source) (journal : Journal V) :
    journal.graph.observeWithin depth source =
      ((observeWithin depth source journal).1, (observeWithin depth source journal).2.graph) := by
  induction depth generalizing source journal with
  | zero => cases source <;> rfl
  | succ depth ih =>
    cases source with
    | slot number => rfl
    | cell number =>
      unfold observeWithin Graph.observeWithin
      cases journal.graph.cells[number]? with
      | none => rfl
      | some cell =>
        dsimp only
        rw [Output.pollWith_project graph ih]
        rfl

theorem observe_graph (source : Source) (journal : Journal V) :
    (journal.observe source).2.graph = (journal.graph.observe source).2 :=
  (congrArg Prod.snd (observeWithin_graph _ source journal)).symm

/-- Cells refer to earlier cells only. The functions noted are gone from their cells, and none is
noted twice: each has run once, on a known value. The cells count them. -/
structure Sound (journal : Journal V) : Prop where
  layered : ∀ n (cell : Cell V), journal.graph.cells[n]? = some cell →
    cell.output.Over fun origin => origin.reach ≤ n
  placed : ∀ entry ∈ journal.ran, entry.1 < journal.graph.cells.length
  once : (journal.ran.map fun entry => (entry.1, entry.2.place)).Nodup
  spent : ∀ entry ∈ journal.ran, ∀ cell : Cell V, journal.graph.cells[entry.1]? = some cell →
    entry.2.place ∉ cell.output.openPlaces
  known : ∀ entry ∈ journal.ran, entry.2.OnKnown
  counted : ∀ n (cell : Cell V), journal.graph.cells[n]? = some cell →
    cell.calls = journal.ran.countP fun entry => entry.1 = n

namespace Sound

variable {journal : Journal V}

theorem empty : Sound (⟨Graph.empty, []⟩ : Journal V) where
  layered := by simp [Graph.empty]
  placed := by simp
  once := by simp
  spent := by simp
  known := by simp
  counted := by simp [Graph.empty]

/-- What a cell counts is noted. -/
theorem calls (sound : journal.Sound) (number : Nat) :
    journal.graph.calls (.cell number) = journal.ran.countP fun entry => entry.1 = number := by
  unfold Graph.calls
  dsimp only
  cases found : journal.graph.cells[number]? with
  | some cell => exact sound.counted number cell found
  | none =>
    symm
    rw [Option.map_none, Option.getD_none, List.countP_eq_zero]
    intro entry noted
    have lt := sound.placed entry noted
    have le := List.getElem?_eq_none_iff.mp found
    simp only [decide_eq_true_eq]
    omega

/-- What happens to slots does not matter. -/
theorem of_cells {graph : Graph V} (sound : journal.Sound)
    (same : graph.cells = journal.graph.cells) : Sound ⟨graph, journal.ran⟩ := by
  constructor
  case layered => rw [same]; exact sound.layered
  case placed => rw [same]; exact sound.placed
  case once => exact sound.once
  case spent => rw [same]; exact sound.spent
  case known => exact sound.known
  case counted => rw [same]; exact sound.counted

/-- A new cell over earlier ones, of which nothing has run. -/
theorem define {output : Output V} (sound : journal.Sound)
    (sourced : output.Over fun origin => origin.reach ≤ journal.graph.cells.length) :
    Sound ⟨(journal.graph.define output).2, journal.ran⟩ where
  layered := by
    intro n cell found
    obtain found | ⟨rfl, rfl⟩ := Graph.define_cells found
    · exact sound.layered n cell found
    · exact sourced
  placed := by
    intro entry noted
    have lt := sound.placed entry noted
    simp only [Graph.define, List.length_append]
    omega
  once := sound.once
  spent := by
    intro entry noted cell found
    have lt := sound.placed entry noted
    obtain found | ⟨last, -⟩ := Graph.define_cells found
    · exact sound.spent entry noted cell found
    · omega
  known := sound.known
  counted := by
    intro n cell found
    obtain found | ⟨rfl, rfl⟩ := Graph.define_cells found
    · exact sound.counted n cell found
    · symm
      rw [List.countP_eq_zero]
      intro entry noted
      have lt := sound.placed entry noted
      simp only [decide_eq_true_eq]
      omega

/-- A cell replaced by what an observation has left of it, with the functions that ran noted. -/
theorem store {number : Nat} {cell : Cell V} {polled : Output.Polled V}
    {ran : List (Output.Run V)} (sound : journal.Sound)
    (found : journal.graph.cells[number]? = some cell)
    (sourced : polled.output.Over fun origin => origin.reach ≤ number)
    (spends : Output.Spends cell.output.openPlaces polled.output.openPlaces ran)
    (length : ran.length = polled.calls) : (journal.store number polled ran).Sound where
  layered := by
    intro n other stored
    obtain ⟨rfl, old, -, rfl⟩ | ⟨-, kept⟩ := Graph.store_cells_cases stored
    · exact sourced
    · exact sound.layered n other kept
  placed := by
    intro entry noted
    simp only [Journal.store, Graph.store, List.length_modify]
    obtain noted | noted := List.mem_append.mp noted
    · exact sound.placed entry noted
    · obtain ⟨run, -, rfl⟩ := List.mem_map.mp noted
      exact (List.getElem?_eq_some_iff.mp found).1
  once := by
    simp only [Journal.store, List.map_append, List.map_map]
    rw [List.nodup_append']
    refine ⟨sound.once, ?_, ?_⟩
    · have places := spends.once.map (f := fun place => (number, place)) fun _ _ same => by
        simpa using same
      simpa [Function.comp_def] using places
    · -- What ran before is no longer open in the cell, what ran now was.
      intro key before now
      obtain ⟨entry, noted, rfl⟩ := List.mem_map.mp before
      obtain ⟨run, isIn, same⟩ := List.mem_map.mp now
      obtain ⟨same, place⟩ := Prod.mk.inj same
      have closed := sound.spent entry noted cell (same ▸ found)
      exact closed (place ▸ spends.opened run isIn)
  spent := by
    intro entry noted other stored
    obtain ⟨same, old, -, rfl⟩ | ⟨differ, kept⟩ := Graph.store_cells_cases stored
    · obtain noted | noted := List.mem_append.mp noted
      · have closed := sound.spent entry noted cell (same ▸ found)
        exact fun isOpen => closed (spends.fewer isOpen)
      · obtain ⟨run, isIn, rfl⟩ := List.mem_map.mp noted
        exact spends.spent run isIn
    · obtain noted | noted := List.mem_append.mp noted
      · exact sound.spent entry noted other kept
      · obtain ⟨run, -, rfl⟩ := List.mem_map.mp noted
        exact absurd rfl differ
  known := by
    intro entry noted
    obtain noted | noted := List.mem_append.mp noted
    · exact sound.known entry noted
    · obtain ⟨run, isIn, rfl⟩ := List.mem_map.mp noted
      exact spends.known run isIn
  counted := by
    intro n other stored
    simp only [Journal.store, List.countP_append, List.countP_map, Function.comp_def]
    obtain ⟨rfl, old, kept, rfl⟩ | ⟨differ, kept⟩ := Graph.store_cells_cases stored
    · simp [sound.counted n old kept, length]
    · simp [sound.counted n other kept, Ne.symm differ]

end Sound

/-- The cells from `bound` on are as before. -/
def Beneath (bound : Nat) (before after : Journal V) : Prop :=
  ∀ n, bound ≤ n → after.graph.cells[n]? = before.graph.cells[n]?

theorem observeWithin_sound (depth : Nat) (source : Source) (journal : Journal V)
    (sound : journal.Sound) :
    (observeWithin depth source journal).2.Sound ∧
      Beneath source.reach journal (observeWithin depth source journal).2 := by
  induction depth generalizing source journal with
  | zero => cases source <;> exact ⟨sound, fun _ _ => rfl⟩
  | succ depth ih =>
    cases source with
    | slot number => exact ⟨sound, fun _ _ => rfl⟩
    | cell number =>
      unfold observeWithin
      split
      · exact ⟨sound, fun _ _ => rfl⟩
      · rename_i cell found
        have sourced := sound.layered number cell found
        have keeps : ∀ origin : Source, origin.reach ≤ number →
            ∀ j : Journal V, j.Sound ∧ Beneath number journal j →
              (observeWithin depth origin j).2.Sound ∧
                Beneath number journal (observeWithin depth origin j).2 := by
          intro origin reach j held
          obtain ⟨after, beneath⟩ := ih origin j held.1
          exact ⟨after, fun n le => (beneath n (by omega)).trans (held.2 n le)⟩
        obtain ⟨after, beneath⟩ :=
          Output.pollWith_keeps keeps cell.output sourced journal ⟨sound, fun _ _ => rfl⟩
        refine ⟨after.store ((beneath number (Nat.le_refl _)).trans found)
          (Output.pollWith_over cell.output sourced journal)
          (Output.pollWith_spends _ cell.output journal)
          (Output.length_runs _ cell.output journal), ?_⟩
        intro n le
        simp only [Source.reach] at le
        simp only [store, Graph.store_cells]
        rw [if_neg (by omega), beneath n (by omega)]

/-- Observing keeps the notes sound. -/
theorem Sound.observe {journal : Journal V} (sound : journal.Sound) (source : Source) :
    (journal.observe source).2.Sound :=
  (observeWithin_sound _ source journal sound).1

end Journal

end Provision
