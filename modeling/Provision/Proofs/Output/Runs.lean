import Mathlib.Data.List.Nodup
import Mathlib.Data.Set.BooleanAlgebra
import Mathlib.Order.CompletePartialOrder
import Provision.Proofs.Output.Sources

/-!
# The functions an observation runs

Each function of an output stands at a place, the way down to it. An observation runs the functions
at some places (`runs`), as many as it counts (`length_runs`), and leaves an expression in which
those places are gone (`pollWith_spends`): whoever keeps the expression that is left will not run
them again.
-/

namespace Provision.Output

/-- One turn on the way down into an expression. -/
inductive Turn where
  | operand
  /-- Into what a function has produced. -/
  | product
  | left
  | right
  | head
  | tail
  deriving DecidableEq, Repr

/-- Where a function stands in an expression, seen from its root. -/
abbrev Place := List Turn

variable {V γ : Type}

/-- A function that ran. -/
structure Run (V : Type) where
  place : Place
  /-- What the function was given; a computation of the program's own is given nothing. -/
  input : Option (Settled V)

namespace Run

/-- The function was given a known value, or nothing. -/
def OnKnown (run : Run V) : Prop :=
  ∀ input, run.input = some input →
    ∃ v secret dependencies, input = .ok ⟨some v, secret, dependencies⟩

/-- The same run, seen from one turn further up. -/
def under (turn : Turn) (run : Run V) : Run V := { run with place := turn :: run.place }

@[simp] theorem under_place (turn : Turn) (run : Run V) :
    (run.under turn).place = turn :: run.place := rfl

/-- The run of a function at the root. -/
def here (data : Data V) : Run V := ⟨[], some (.ok data)⟩

theorem here_onKnown {data : Data V} (known : data.value.isSome = true) : (here data).OnKnown := by
  obtain ⟨value, secret, dependencies⟩ := data
  obtain ⟨v, rfl⟩ := Option.isSome_iff_exists.mp known
  rintro _ ⟨⟩
  exact ⟨v, secret, dependencies, rfl⟩

end Run

/-! ## Observations that log what runs -/

mutual

/-- The functions that observing the expression runs, in their order. -/
def runs (read : Source → γ → Option (Settled V) × γ) : Output V → γ → List (Run V)
  | .settled _, _ | .source _, _ => []
  | .async _ _, _ => [⟨[], none⟩]
  | .map _ outer, g =>
    (runs read outer g).map (Run.under .operand) ++
      match (pollWith read outer g).1.output with
      | .settled (.ok data) => if data.value.isSome then [.here data] else []
      | _ => []
  | .apply f outer, g =>
    (runs read outer g).map (Run.under .operand) ++
      match (pollWith read outer g).1.output with
      | .settled (.ok ⟨some v, secret, dependencies⟩) =>
        .here ⟨some v, secret, dependencies⟩ ::
          (runs read (f v) (pollWith read outer g).2).map (Run.under .product)
      | _ => []
  | .after _ _ inner, g => (runs read inner g).map (Run.under .product)
  | .combine _ parts, g => runsParts read (decide (eagerParts < parts.length)) false parts g
  | .tuple _ left right, g =>
    (runs read left g).map (Run.under .left) ++
      match (pollWith read left g).1.output with
      | .settled (.error _) => []
      | _ => (runs read right (pollWith read left g).2).map (Run.under .right)
  | .asSecret inner, g => (runs read inner g).map (Run.under .operand)
  | .withResources _ inner, g => (runs read inner g).map (Run.under .operand)

def runsParts (read : Source → γ → Option (Settled V) × γ) (patient waiting : Bool) :
    List (Output V) → γ → List (Run V)
  | [], _ => []
  | part :: rest, g =>
    (runs read part g).map (Run.under .head) ++
      match (pollWith read part g).1.output, patient && waiting with
      | .settled (.error _), false => []
      | output, _ =>
        (runsParts read patient (waiting || output.result?.isNone) rest
          (pollWith read part g).2).map (Run.under .tail)

end

@[simp] theorem Polled.within_calls (p : Polled V) (change : Data V → Data V)
    (rebuild : Output V → Output V) : (p.within change rebuild).calls = p.calls := by
  unfold within
  split <;> rfl

variable (read : Source → γ → Option (Settled V) × γ)

mutual

/-- The log has an entry for each call that the observation counts. -/
theorem length_runs : ∀ (output : Output V) (g : γ),
    (runs read output g).length = (pollWith read output g).1.calls
  | .settled _, _ => rfl
  | .source origin, g => by
    unfold pollWith runs
    split <;> rfl
  | .async _ _, _ => rfl
  | .map f outer, g => by
    have ho := length_runs outer g
    unfold pollWith runs
    dsimp only
    cases (pollWith read outer g).1.output with
    | settled result =>
      cases result with
      | error cause => simpa using ho
      | ok data =>
        simp only [List.length_append, List.length_map, ho]
        split <;> rfl
    | _ => simpa using ho
  | .apply f outer, g => by
    have ho := length_runs outer g
    unfold pollWith runs
    dsimp only
    cases (pollWith read outer g).1.output with
    | settled result =>
      obtain cause | ⟨_ | v, secret, dependencies⟩ := result
      · simpa using ho
      · simpa using ho
      · have hf := length_runs (f v) (pollWith read outer g).2
        simp only [List.length_append, List.length_cons, List.length_map, ho, hf,
          Polled.within_calls]
        omega
    | _ => simpa using ho
  | .after _ _ inner, g => by
    have hi := length_runs inner g
    unfold pollWith runs
    simpa using hi
  | .combine collect parts, g => by
    have hp := length_runsParts (decide (eagerParts < parts.length)) false parts g
    unfold pollWith runs
    dsimp only
    split <;> exact hp
  | .tuple pair left right, g => by
    have hl := length_runs left g
    have hr := length_runs right (pollWith read left g).2
    unfold pollWith runs
    dsimp only
    cases (pollWith read left g).1.output with
    | settled result =>
      cases result with
      | error cause => simpa using hl
      | ok data =>
        simp only [List.length_append, List.length_map, hl, hr]
        split <;> rfl
    | _ =>
      simp only [List.length_append, List.length_map, hl, hr]
      split <;> rfl
  | .asSecret inner, g => by
    have hi := length_runs inner g
    unfold pollWith runs
    simpa using hi
  | .withResources _ inner, g => by
    have hi := length_runs inner g
    unfold pollWith runs
    simpa using hi

theorem length_runsParts (patient waiting : Bool) : ∀ (parts : List (Output V)) (g : γ),
    (runsParts read patient waiting parts g).length =
      (pollParts read patient waiting parts g).1.calls
  | [], _ => rfl
  | part :: rest, g => by
    have hp := length_runs part g
    have hr := length_runsParts patient
      (waiting || (pollWith read part g).1.output.result?.isNone) rest (pollWith read part g).2
    unfold pollParts runsParts
    dsimp only
    cases seen : (pollWith read part g).1.output with
    | settled result =>
      rw [seen] at hr
      cases result with
      | error cause =>
        cases patient && waiting with
        | false => simpa using hp
        | true => simpa [hp] using hr
      | ok data => simpa [hp] using hr
    | _ =>
      rw [seen] at hr
      simpa [hp] using hr

end

/-! ## Places whose function has not run -/

/-- The places behind one turn. -/
def Under (turn : Turn) (places : Set Place) : Set Place := (turn :: ·) '' places

theorem mem_under {turn : Turn} {places : Set Place} {place : Place} :
    turn :: place ∈ Under turn places ↔ place ∈ places := by
  simp [Under]

theorem under_mono {turn : Turn} {places more : Set Place} (sub : places ⊆ more) :
    Under turn places ⊆ Under turn more :=
  Set.image_mono sub

theorem under_disjoint_root (turn : Turn) (places : Set Place) :
    Disjoint (Under turn places) {[]} := by
  simp [Under]

theorem under_disjoint {turn other : Turn} (differ : turn ≠ other) (places places' : Set Place) :
    Disjoint (Under turn places) (Under other places') := by
  rw [Set.disjoint_left]
  rintro _ ⟨place, -, rfl⟩ ⟨place', -, same⟩
  exact differ (List.cons.inj same).1.symm

mutual

/-- The places whose functions can still run. What a function will produce is not known before it
has run: every place behind it is among them. -/
def openPlaces : Output V → Set Place
  | .settled _ | .source _ => ∅
  | .async _ _ => {[]}
  | .map _ outer => Under .operand (openPlaces outer) ∪ {[]}
  | .apply _ outer => Under .operand (openPlaces outer) ∪ ({[]} ∪ Under .product Set.univ)
  | .after _ _ inner => Under .product (openPlaces inner)
  | .combine _ parts => openParts parts
  | .tuple _ left right => Under .left (openPlaces left) ∪ Under .right (openPlaces right)
  | .asSecret inner | .withResources _ inner => Under .operand (openPlaces inner)

def openParts : List (Output V) → Set Place
  | [] => ∅
  | part :: rest => Under .head (openPlaces part) ∪ Under .tail (openParts rest)

end

/-- The functions that ran were open before and are not open after, each ran once and on a known
value, and no place has become open. -/
structure Spends (before after : Set Place) (ran : List (Run V)) : Prop where
  opened : ∀ run ∈ ran, run.place ∈ before
  once : (ran.map Run.place).Nodup
  fewer : after ⊆ before
  spent : ∀ run ∈ ran, run.place ∉ after
  known : ∀ run ∈ ran, run.OnKnown

namespace Spends

variable {before after before' after' : Set Place} {ran ran' : List (Run V)}

theorem nothing (fewer : after ⊆ before) : Spends before after ([] : List (Run V)) where
  opened := by simp
  once := by simp
  fewer := fewer
  spent := by simp
  known := by simp

/-- A function at the root has run. -/
theorem root {run : Run V} (place : run.place = []) (known : run.OnKnown) :
    Spends {[]} ∅ [run] where
  opened := by simp [place]
  once := by simp
  fewer := by simp
  spent := by simp
  known := by simpa using known

theorem weaken (spends : Spends before after ran) (more : before ⊆ before')
    (less : after' ⊆ after) : Spends before' after' ran where
  opened := fun run mem => more (spends.opened run mem)
  once := spends.once
  fewer := (less.trans spends.fewer).trans more
  spent := fun run mem isOpen => spends.spent run mem (less isOpen)
  known := spends.known

theorem under (turn : Turn) (spends : Spends before after ran) :
    Spends (Under turn before) (Under turn after) (ran.map (Run.under turn)) where
  opened := by
    intro run mem
    obtain ⟨inner, isIn, rfl⟩ := List.mem_map.mp mem
    exact mem_under.mpr (spends.opened inner isIn)
  once := by
    have places : (ran.map (Run.under turn)).map Run.place =
        (ran.map Run.place).map (turn :: ·) := by
      simp [Function.comp_def]
    rw [places]
    exact spends.once.map fun _ _ same => (List.cons.inj same).2
  fewer := under_mono spends.fewer
  spent := by
    intro run mem isOpen
    obtain ⟨inner, isIn, rfl⟩ := List.mem_map.mp mem
    exact spends.spent inner isIn (mem_under.mp isOpen)
  known := by
    intro run mem
    obtain ⟨inner, isIn, rfl⟩ := List.mem_map.mp mem
    exact spends.known inner isIn

/-- What stands beside each other is spent independently. -/
theorem append (spends : Spends before after ran) (spends' : Spends before' after' ran')
    (apart : Disjoint before before') :
    Spends (before ∪ before') (after ∪ after') (ran ++ ran') where
  opened := by
    intro run mem
    obtain mem | mem := List.mem_append.mp mem
    · exact .inl (spends.opened run mem)
    · exact .inr (spends'.opened run mem)
  once := by
    rw [List.map_append, List.nodup_append']
    refine ⟨spends.once, spends'.once, ?_⟩
    intro place mem mem'
    obtain ⟨run, isIn, rfl⟩ := List.mem_map.mp mem
    obtain ⟨run', isIn', same⟩ := List.mem_map.mp mem'
    exact Set.disjoint_left.mp apart (spends.opened run isIn) (same ▸ spends'.opened run' isIn')
  fewer := Set.union_subset_union spends.fewer spends'.fewer
  spent := by
    intro run mem isOpen
    obtain mem | mem := List.mem_append.mp mem <;> obtain isOpen | isOpen := isOpen
    · exact spends.spent run mem isOpen
    · exact Set.disjoint_left.mp apart (spends.opened run mem) (spends'.fewer isOpen)
    · exact Set.disjoint_left.mp apart (spends.fewer isOpen) (spends'.opened run mem)
    · exact spends'.spent run mem isOpen
  known := by
    intro run mem
    obtain mem | mem := List.mem_append.mp mem
    · exact spends.known run mem
    · exact spends'.known run mem

/-- Beside what is left as it is, and then given up. -/
theorem beside_nothing {ran : List (Run V)} (spends : Spends before after ran)
    (apart : Disjoint before before') : Spends (before ∪ before') ∅ (ran ++ []) :=
  (spends.append (nothing (Set.empty_subset before')) apart).weaken subset_rfl
    (Set.empty_subset _)

end Spends

/-- An expression around an observed output has the open places of that output. -/
theorem Polled.within_openPlaces {p : Polled V} {change : Data V → Data V}
    {rebuild : Output V → Output V} {turn : Turn}
    (rebuilt : ∀ output, (rebuild output).openPlaces = Under turn output.openPlaces) :
    (p.within change rebuild).output.openPlaces ⊆ Under turn p.output.openPlaces := by
  unfold within
  split
  · exact Set.empty_subset _
  · exact Set.empty_subset _
  · exact (rebuilt _).subset

mutual

/-- An observation spends the places of the functions that it runs. -/
theorem pollWith_spends : ∀ (output : Output V) (g : γ),
    Spends output.openPlaces (pollWith read output g).1.output.openPlaces (runs read output g)
  | .settled _, _ => .nothing subset_rfl
  | .source origin, g => by
    unfold pollWith
    split <;> exact .nothing subset_rfl
  | .async _ _, _ => .root rfl (by rintro _ ⟨⟩)
  | .map f outer, g => by
    have ho := (pollWith_spends outer g).under .operand
    have apart := under_disjoint_root .operand outer.openPlaces
    unfold pollWith runs
    dsimp only
    cases seen : (pollWith read outer g).1.output with
    | settled result =>
      rw [seen] at ho
      cases result with
      | error cause => exact ho.beside_nothing apart
      | ok data =>
        dsimp only
        split
        · rename_i known
          exact (ho.append (.root rfl (Run.here_onKnown known)) apart).weaken subset_rfl
            (Set.empty_subset _)
        · exact ho.beside_nothing apart
    | _ =>
      rw [seen] at ho
      exact ho.append (.nothing subset_rfl) apart
  | .apply f outer, g => by
    have ho := (pollWith_spends outer g).under .operand
    have apart : Disjoint (Under .operand outer.openPlaces) ({[]} ∪ Under .product Set.univ) := by
      rw [Set.disjoint_union_right]
      exact ⟨under_disjoint_root _ _, under_disjoint (by decide) _ _⟩
    unfold pollWith runs
    dsimp only
    cases seen : (pollWith read outer g).1.output with
    | settled result =>
      rw [seen] at ho
      obtain cause | ⟨_ | v, secret, dependencies⟩ := result
      · exact ho.beside_nothing apart
      · exact ho.beside_nothing apart
      · have hf := (pollWith_spends (f v) (pollWith read outer g).2).under .product
        have own : Spends {[]} ∅ [Run.here ⟨some v, secret, dependencies⟩] :=
          .root rfl (Run.here_onKnown rfl)
        have both := own.append hf (under_disjoint_root _ _).symm
        refine (ho.append (both.weaken ?_ ?_) apart).weaken subset_rfl Set.subset_union_right
        · exact Set.union_subset_union_right _ (under_mono (Set.subset_univ _))
        · exact (Polled.within_openPlaces fun _ => rfl).trans Set.subset_union_right
    | _ =>
      rw [seen] at ho
      exact ho.append (.nothing subset_rfl) apart
  | .after _ _ inner, g =>
    ((pollWith_spends inner g).under .product).weaken subset_rfl
      (Polled.within_openPlaces fun _ => rfl)
  | .combine collect parts, g => by
    have hp := pollParts_spends (decide (eagerParts < parts.length)) false parts g
    unfold pollWith
    dsimp only
    split
    · exact hp.weaken subset_rfl (Set.empty_subset _)
    · exact hp.weaken subset_rfl (Set.empty_subset _)
    · exact hp
  | .tuple pair left right, g => by
    have hl := (pollWith_spends left g).under .left
    have hr := (pollWith_spends right (pollWith read left g).2).under .right
    have apart : Disjoint (Under .left left.openPlaces) (Under .right right.openPlaces) :=
      under_disjoint (by decide) _ _
    unfold pollWith runs
    dsimp only
    cases seen : (pollWith read left g).1.output with
    | settled result =>
      rw [seen] at hl
      cases result with
      | error cause => exact hl.beside_nothing apart
      | ok data =>
        have both := hl.append hr apart
        dsimp only
        split
        · exact both.weaken subset_rfl (Set.empty_subset _)
        · exact both.weaken subset_rfl (Set.empty_subset _)
        · exact both
    | _ =>
      rw [seen] at hl
      have both := hl.append hr apart
      dsimp only
      split
      · exact both.weaken subset_rfl (Set.empty_subset _)
      · contradiction
      · exact both
  | .asSecret inner, g =>
    ((pollWith_spends inner g).under .operand).weaken subset_rfl
      (Polled.within_openPlaces fun _ => rfl)
  | .withResources _ inner, g =>
    ((pollWith_spends inner g).under .operand).weaken subset_rfl
      (Polled.within_openPlaces fun _ => rfl)

theorem pollParts_spends (patient waiting : Bool) : ∀ (parts : List (Output V)) (g : γ),
    Spends (openParts parts) (openParts (pollParts read patient waiting parts g).1.parts)
      (runsParts read patient waiting parts g)
  | [], _ => .nothing subset_rfl
  | part :: rest, g => by
    have hp := (pollWith_spends part g).under .head
    have apart : Disjoint (Under .head part.openPlaces) (Under .tail (openParts rest)) :=
      under_disjoint (by decide) _ _
    have hr := (pollParts_spends patient
      (waiting || (pollWith read part g).1.output.result?.isNone) rest
      (pollWith read part g).2).under .tail
    unfold pollParts runsParts
    dsimp only
    cases seen : (pollWith read part g).1.output with
    | settled result =>
      rw [seen] at hp hr
      cases result with
      | error cause =>
        cases patient && waiting with
        | false => exact hp.append (.nothing subset_rfl) apart
        | true => exact hp.append hr apart
      | ok data => exact hp.append hr apart
    | _ =>
      rw [seen] at hp hr
      exact hp.append hr apart

end

end Provision.Output
