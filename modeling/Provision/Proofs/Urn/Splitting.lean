import Mathlib.Data.List.Infix
import Provision.Urn

/-!
# The last separator

Where a text is split at its last `::`. What stands behind it is unbroken: it holds no `::`, and it
does not begin with a colon, which would make a later `::` with the colon before it
(`splitLast_eq_some_iff`). So a text that is put together with an unbroken end is taken apart into
the same parts.
-/

namespace Provision.Urn

/-- No `::` stands in the text, nor comes about where the text follows a colon. -/
def Unbroken (cs : List Char) : Prop := ¬ [':', ':'] <:+: ':' :: cs

instance : DecidablePred Unbroken :=
  fun cs => inferInstanceAs (Decidable (¬ [':', ':'] <:+: ':' :: cs))

theorem infix_cons {c : Char} {cs : List Char} :
    [':', ':'] <:+: c :: cs ↔ (c = ':' ∧ ∃ rest, cs = ':' :: rest) ∨ [':', ':'] <:+: cs := by
  rw [List.infix_cons_iff, List.cons_prefix_cons]
  refine or_congr_left (and_congr ⟨Eq.symm, Eq.symm⟩ ?_)
  cases cs with
  | nil => simp
  | cons d rest => simp [eq_comm]

/-- An unbroken text does not begin with a colon, and no `::` stands in it. -/
theorem unbroken_iff {cs : List Char} :
    Unbroken cs ↔ ¬ [':', ':'] <:+: cs ∧ cs.head? ≠ some ':' := by
  unfold Unbroken
  rw [infix_cons, not_or, and_comm]
  refine and_congr_right' ?_
  cases cs with
  | nil => simp
  | cons d rest => simp

variable {c : Char} {cs rest before after more : List Char}

theorem splitLast_cons_of_some (later : splitLast rest = some (before, after)) :
    splitLast (c :: rest) = some (c :: before, after) := by
  rw [splitLast.eq_def]
  dsimp only
  rw [later]

theorem splitLast_cons_of_none (later : splitLast rest = none) :
    splitLast (c :: rest) = some (before, after) ↔ before = [] ∧ c = ':' ∧ rest = ':' :: after := by
  rw [splitLast.eq_def]
  dsimp only
  rw [later]
  dsimp only
  split
  · rename_i following
    simp [eq_comm]
  · rename_i other
    exact iff_of_false nofun fun ⟨_, colon, again⟩ => other after colon again

theorem splitLast_eq_none_iff : splitLast cs = none ↔ ¬ [':', ':'] <:+: cs := by
  induction cs with
  | nil => simp [splitLast]
  | cons c rest ih =>
    rw [infix_cons, not_or, ← ih]
    cases later : splitLast rest with
    | some parts =>
      rw [splitLast_cons_of_some later]
      simp
    | none =>
      rw [Option.eq_none_iff_forall_ne_some, and_iff_left rfl]
      constructor
      · rintro none ⟨colon, following, again⟩
        exact none _ ((splitLast_cons_of_none later).mpr ⟨rfl, colon, again⟩)
      · intro other parts found
        obtain ⟨-, colon, again⟩ := (splitLast_cons_of_none later).mp found
        exact other ⟨colon, _, again⟩

/-- A text is split at a `::` exactly if what follows is unbroken. -/
theorem splitLast_eq_some_iff :
    splitLast cs = some (before, after) ↔ cs = before ++ ':' :: ':' :: after ∧ Unbroken after := by
  constructor
  · intro parts
    induction cs generalizing before with
    | nil => cases parts
    | cons c rest ih =>
      cases later : splitLast rest with
      | some found =>
        rw [splitLast_cons_of_some later] at parts
        cases parts
        obtain ⟨rfl, unbroken⟩ := ih later
        exact ⟨rfl, unbroken⟩
      | none =>
        obtain ⟨rfl, rfl, rfl⟩ := (splitLast_cons_of_none later).mp parts
        exact ⟨rfl, splitLast_eq_none_iff.mp later⟩
  · rintro ⟨rfl, unbroken⟩
    induction before with
    | nil =>
      exact (splitLast_cons_of_none (splitLast_eq_none_iff.mpr unbroken)).mpr ⟨rfl, rfl, rfl⟩
    | cons c before ih => exact splitLast_cons_of_some ih

end Provision.Urn
