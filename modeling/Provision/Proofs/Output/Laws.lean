import Mathlib.Data.List.Forall2
import Provision.Proofs.Output.Sources

/-!
# Laws of the combinators

Outputs can be regrouped: a known value applied to a function is what the function produces, making
an output of a value adds nothing, functions that are applied one after the other may be applied as
one, and a plain function may be applied as one that produces outputs. Whoever observes such
outputs, as often as he likes and whatever has arrived meanwhile, finds the same
(`regrouping_unobserved`).
-/

namespace Provision

namespace Data

variable {α : Type}

/-- The same value, secrecy and set of dependencies. -/
structure Same (first second : Data α) : Prop where
  value : first.value = second.value
  secret : first.secret = second.secret
  dependencies : ∀ key, key ∈ first.dependencies ↔ key ∈ second.dependencies

theorem Same.refl (data : Data α) : data.Same data := ⟨rfl, rfl, fun _ => .rfl⟩

theorem Same.symm {first second : Data α} (same : first.Same second) : second.Same first :=
  ⟨same.value.symm, same.secret.symm, fun key => (same.dependencies key).symm⟩

/-- What is no secret and depends on nothing throws no shadow. -/
theorem after_nothing (data : Data α) : (data.after false []).Same data :=
  ⟨rfl, rfl, by simp [after]⟩

/-- A known value has only the shadow that falls on it. -/
theorem known_after (v : α) (secret : Bool) (dependencies : List Key) :
    ((known v).after secret dependencies).Same ⟨some v, secret, dependencies⟩ :=
  ⟨rfl, by simp [after, known], by simp [after, known]⟩

/-- Two shadows are one. -/
theorem after_after (data : Data α) (secret secret' : Bool) (dependencies dependencies' : List Key) :
    Same (data.after (secret || secret') (Ascending.union dependencies dependencies'))
      ((data.after secret' dependencies').after secret dependencies) :=
  ⟨rfl, by simp [after, Bool.or_assoc], by simp [after, or_assoc]⟩

end Data

namespace Output

variable {V γ : Type}

/-- The same data, or the same failure. -/
inductive SameResult : Settled V → Settled V → Prop where
  | data {first second : Data V} (same : first.Same second) : SameResult (.ok first) (.ok second)
  | failure (cause : Failure) : SameResult (.error cause) (.error cause)

theorem SameResult.refl : ∀ result : Settled V, SameResult result result
  | .ok d => .data (.refl d)
  | .error cause => .failure cause

/-- What an observation leaves: the expression, and the state in which the sources were read. -/
def observed (read : Source → γ → Option (Settled V) × γ) (output : Output V) (g : γ) :
    Output V × γ :=
  ((pollWith read output g).1.output, (pollWith read output g).2)

/-- Observe an output again and again, in whatever states: what is found, and what state is left. -/
def observations (read : Source → γ → Option (Settled V) × γ) :
    Output V → List γ → List (Option (Settled V) × γ)
  | _, [] => []
  | output, g :: later =>
    ((observed read output g).1.result?, (observed read output g).2) ::
      observations read (observed read output g).1 later

/-- The same was found, or nothing in both cases, and the same state is left. -/
def SameFinding (first second : Option (Settled V) × γ) : Prop :=
  Option.Rel SameResult first.1 second.1 ∧ first.2 = second.2

/-- No observations tell the outputs apart. -/
def Alike (read : Source → γ → Option (Settled V) × γ) (first second : Output V) : Prop :=
  ∀ states, List.Forall₂ SameFinding (observations read first states)
    (observations read second states)

/-! ### One observation -/

/-- What two observations leave: the same result, or related expressions that wait. -/
inductive Meets (R : Output V → Output V → Prop) : Output V × γ → Output V × γ → Prop where
  | settled {first second : Settled V} (same : SameResult first second) (g : γ) :
      Meets R (.settled first, g) (.settled second, g)
  | waiting {first second : Output V} (waits : first.result? = none)
      (waits' : second.result? = none) (related : R first second) (g : γ) :
      Meets R (first, g) (second, g)

variable {read : Source → γ → Option (Settled V) × γ} {output rest : Output V} {g g' : γ}

theorem observed_create (v : V) (g : γ) :
    observed read (.create v) g = (.settled (.ok ⟨some v, false, []⟩), g) := rfl

/-- An observation finds a result, or leaves something that waits. -/
theorem observed_cases (read : Source → γ → Option (Settled V) × γ) (output : Output V) (g : γ) :
    (∃ result g', observed read output g = (.settled result, g')) ∨
      ∃ rest g', observed read output g = (rest, g') ∧ rest.result? = none := by
  generalize observed read output g = left
  obtain ⟨rest, g'⟩ := left
  cases rest with
  | settled result => exact .inl ⟨result, g', rfl⟩
  | _ => exact .inr ⟨_, g', rfl, rfl⟩

section Map

variable {f : V → V}

theorem observed_map_settled {result : Settled V}
    (seen : observed read output g = (.settled result, g')) :
    observed read (.map f output) g = (.settled (result.map (Data.map f)), g') := by
  obtain ⟨found, state⟩ := Prod.mk.inj seen
  unfold observed pollWith
  dsimp only
  rw [found, state]
  cases result <;> rfl

theorem observed_map_waiting (seen : observed read output g = (rest, g'))
    (waits : rest.result? = none) : observed read (.map f output) g = (.map f rest, g') := by
  obtain ⟨found, state⟩ := Prod.mk.inj seen
  unfold observed pollWith
  dsimp only
  rw [found, state]
  cases rest with
  | settled => cases waits
  | _ => rfl

end Map

section After

variable {secret : Bool} {dependencies : List Key}

theorem observed_after_settled {result : Settled V}
    (seen : observed read output g = (.settled result, g')) :
    observed read (.after secret dependencies output) g =
      (.settled (result.map (Data.after secret dependencies)), g') := by
  obtain ⟨found, state⟩ := Prod.mk.inj seen
  unfold observed pollWith Polled.within
  dsimp only
  rw [found, state]
  cases result <;> rfl

theorem observed_after_waiting (seen : observed read output g = (rest, g'))
    (waits : rest.result? = none) :
    observed read (.after secret dependencies output) g =
      (.after secret dependencies rest, g') := by
  obtain ⟨found, state⟩ := Prod.mk.inj seen
  unfold observed pollWith Polled.within
  dsimp only
  rw [found, state]
  cases rest with
  | settled => cases waits
  | _ => rfl

/-- Only what an observation leaves of the output inside matters. -/
theorem observed_after_congr {other : Output V} (same : observed read output g = observed read other g') :
    observed read (.after secret dependencies output) g =
      observed read (.after secret dependencies other) g' := by
  rcases observed_cases read other g' with ⟨result, left, seen⟩ | ⟨rest, left, seen, waits⟩
  · rw [observed_after_settled seen, observed_after_settled (same.trans seen)]
  · rw [observed_after_waiting seen waits, observed_after_waiting (same.trans seen) waits]

end After

section Apply

variable {f : V → Output V}

/-- A function that has a value is observed in the shadow of that value. -/
theorem observed_apply_known {v : V} {secret : Bool} {dependencies : List Key}
    (seen : observed read output g = (.settled (.ok ⟨some v, secret, dependencies⟩), g')) :
    observed read (.apply f output) g = observed read (.after secret dependencies (f v)) g' := by
  obtain ⟨found, state⟩ := Prod.mk.inj seen
  unfold observed pollWith
  dsimp only
  rw [found, state]

theorem observed_apply_unknown {secret : Bool} {dependencies : List Key}
    (seen : observed read output g = (.settled (.ok ⟨none, secret, dependencies⟩), g')) :
    observed read (.apply f output) g = (.settled (.ok ⟨none, secret, dependencies⟩), g') := by
  obtain ⟨found, state⟩ := Prod.mk.inj seen
  unfold observed pollWith
  dsimp only
  rw [found, state]

theorem observed_apply_failed {cause : Failure}
    (seen : observed read output g = (.settled (.error cause), g')) :
    observed read (.apply f output) g = (.settled (.error cause), g') := by
  obtain ⟨found, state⟩ := Prod.mk.inj seen
  unfold observed pollWith
  dsimp only
  rw [found, state]

theorem observed_apply_waiting (seen : observed read output g = (rest, g'))
    (waits : rest.result? = none) : observed read (.apply f output) g = (.apply f rest, g') := by
  obtain ⟨found, state⟩ := Prod.mk.inj seen
  unfold observed pollWith
  dsimp only
  rw [found, state]
  cases rest with
  | settled => cases waits
  | _ => rfl

theorem observed_apply_congr {other : Output V}
    (same : observed read output g = observed read other g') :
    observed read (.apply f output) g = observed read (.apply f other) g' := by
  rcases observed_cases read other g' with ⟨result, left, seen⟩ | ⟨rest, left, seen, waits⟩
  · match result with
    | .error cause => rw [observed_apply_failed seen, observed_apply_failed (same.trans seen)]
    | .ok ⟨none, _, _⟩ => rw [observed_apply_unknown seen, observed_apply_unknown (same.trans seen)]
    | .ok ⟨some v, _, _⟩ => rw [observed_apply_known seen, observed_apply_known (same.trans seen)]
  · rw [observed_apply_waiting seen waits, observed_apply_waiting (same.trans seen) waits]

end Apply

/-! ### Many observations -/

/-- What relates two outputs before every observation and after it is not seen by observing. -/
theorem alike_of_meets {R : Output V → Output V → Prop}
    (meets : ∀ {first second}, R first second → ∀ g,
      Meets R (observed read first g) (observed read second g))
    {first second : Output V} (related : R first second) : Alike read first second := by
  -- What is settled once is found by all later observations.
  have lasting {r r' : Settled V} (same : SameResult r r') : Alike read (.settled r) (.settled r') := by
    intro states
    induction states with
    | nil => exact .nil
    | cons g later ih => exact .cons ⟨.some same, rfl⟩ ih
  intro states
  induction states generalizing first second with
  | nil => exact .nil
  | cons g later ih =>
    unfold observations
    have one := meets related g
    generalize observed read first g = left at one
    generalize observed read second g = left' at one
    cases one with
    | settled same g' => exact .cons ⟨.some same, rfl⟩ (lasting same later)
    | waiting waits waits' related g' =>
      refine .cons ⟨?_, rfl⟩ (ih related)
      dsimp only
      rw [waits, waits']
      exact .none

/-- The ways to regroup an output, with what observations leave of them. -/
inductive Regroups : Output V → Output V → Prop where
  | create (f : V → Output V) (v : V) : Regroups (.apply f (.create v)) (f v)
  | clear (output : Output V) : Regroups (.after false [] output) output
  | remake (output : Output V) : Regroups (.apply .create output) output
  | map (f : V → V) (output : Output V) :
      Regroups (.map f output) (.apply (fun v => .create (f v)) output)
  | apply (f f' : V → Output V) (output : Output V) :
      Regroups (.apply f' (.apply f output)) (.apply (fun v => .apply f' (f v)) output)
  | shaded (f : V → Output V) (secret : Bool) (dependencies : List Key) (output : Output V) :
      Regroups (.apply f (.after secret dependencies output))
        (.after secret dependencies (.apply f output))
  | after (secret secret' : Bool) (dependencies dependencies' : List Key) (output : Output V) :
      Regroups (.after (secret || secret') (Ascending.union dependencies dependencies') output)
        (.after secret dependencies (.after secret' dependencies' output))

theorem meets_clear (output : Output V) (g : γ) :
    Meets Regroups (observed read (.after false [] output) g) (observed read output g) := by
  rcases observed_cases read output g with ⟨result, g', seen⟩ | ⟨rest, g', seen, waits⟩
  · rw [observed_after_settled seen, seen]
    cases result with
    | error cause => exact .settled (.failure cause) g'
    | ok data => exact .settled (.data data.after_nothing) g'
  · rw [observed_after_waiting seen waits, seen]
    exact .waiting rfl waits (.clear rest) g'

theorem meets_after (secret secret' : Bool) (dependencies dependencies' : List Key)
    (output : Output V) (g : γ) :
    Meets Regroups
      (observed read (.after (secret || secret') (Ascending.union dependencies dependencies')
        output) g)
      (observed read (.after secret dependencies (.after secret' dependencies' output)) g) := by
  rcases observed_cases read output g with ⟨result, g', seen⟩ | ⟨rest, g', seen, waits⟩
  · rw [observed_after_settled seen, observed_after_settled (observed_after_settled seen)]
    cases result with
    | error cause => exact .settled (.failure cause) g'
    | ok data => exact .settled (.data (data.after_after _ _ _ _)) g'
  · rw [observed_after_waiting seen waits,
      observed_after_waiting (observed_after_waiting seen waits) rfl]
    exact .waiting rfl rfl (.after _ _ _ _ rest) g'

theorem meets_shaded (f : V → Output V) (secret : Bool) (dependencies : List Key)
    (output : Output V) (g : γ) :
    Meets Regroups (observed read (.apply f (.after secret dependencies output)) g)
      (observed read (.after secret dependencies (.apply f output)) g) := by
  rcases observed_cases read output g with ⟨result, g', seen⟩ | ⟨rest, g', seen, waits⟩
  · have shaded : observed read (.after secret dependencies output) g =
        (.settled (result.map (Data.after secret dependencies)), g') := observed_after_settled seen
    match result with
    | .error cause =>
      rw [observed_apply_failed shaded, observed_after_settled (observed_apply_failed seen)]
      exact .settled (.failure cause) g'
    | .ok ⟨none, secret', dependencies'⟩ =>
      rw [observed_apply_unknown shaded, observed_after_settled (observed_apply_unknown seen)]
      exact .settled (.refl _) g'
    | .ok ⟨some v, secret', dependencies'⟩ =>
      -- The function's output stands in both shadows, at once or one after the other.
      rw [observed_apply_known shaded, observed_after_congr (observed_apply_known seen)]
      exact meets_after _ _ _ _ (f v) g'
  · have shaded : observed read (.after secret dependencies output) g =
        (.after secret dependencies rest, g') := observed_after_waiting seen waits
    rw [observed_apply_waiting shaded rfl,
      observed_after_waiting (observed_apply_waiting seen waits) rfl]
    exact .waiting rfl rfl (.shaded f secret dependencies rest) g'

theorem meets_create (f : V → Output V) (v : V) (g : γ) :
    Meets Regroups (observed read (.apply f (.create v)) g) (observed read (f v) g) := by
  rw [observed_apply_known (observed_create v g)]
  exact meets_clear (f v) g

theorem meets_remake (output : Output V) (g : γ) :
    Meets Regroups (observed read (.apply .create output) g) (observed read output g) := by
  rcases observed_cases read output g with ⟨result, g', seen⟩ | ⟨rest, g', seen, waits⟩
  · match result with
    | .error cause =>
      rw [observed_apply_failed seen, seen]
      exact .settled (.failure cause) g'
    | .ok ⟨none, secret, dependencies⟩ =>
      rw [observed_apply_unknown seen, seen]
      exact .settled (.refl _) g'
    | .ok ⟨some v, secret, dependencies⟩ =>
      rw [observed_apply_known seen, observed_after_settled (observed_create v g'), seen]
      exact .settled (.data (Data.known_after v secret dependencies)) g'
  · rw [observed_apply_waiting seen waits, seen]
    exact .waiting rfl waits (.remake rest) g'

theorem meets_map (f : V → V) (output : Output V) (g : γ) :
    Meets Regroups (observed read (.map f output) g)
      (observed read (.apply (fun v => .create (f v)) output) g) := by
  rcases observed_cases read output g with ⟨result, g', seen⟩ | ⟨rest, g', seen, waits⟩
  · rw [observed_map_settled seen]
    match result with
    | .error cause =>
      rw [observed_apply_failed seen]
      exact .settled (.failure cause) g'
    | .ok ⟨none, secret, dependencies⟩ =>
      rw [observed_apply_unknown seen]
      exact .settled (.refl _) g'
    | .ok ⟨some v, secret, dependencies⟩ =>
      rw [observed_apply_known seen, observed_after_settled (observed_create (f v) g')]
      exact .settled (.data (Data.known_after (f v) secret dependencies).symm) g'
  · rw [observed_map_waiting seen waits, observed_apply_waiting seen waits]
    exact .waiting rfl rfl (.map f rest) g'

theorem meets_apply (f f' : V → Output V) (output : Output V) (g : γ) :
    Meets Regroups (observed read (.apply f' (.apply f output)) g)
      (observed read (.apply (fun v => .apply f' (f v)) output) g) := by
  rcases observed_cases read output g with ⟨result, g', seen⟩ | ⟨rest, g', seen, waits⟩
  · match result with
    | .error cause =>
      rw [observed_apply_failed (observed_apply_failed seen), observed_apply_failed seen]
      exact .settled (.failure cause) g'
    | .ok ⟨none, secret, dependencies⟩ =>
      rw [observed_apply_unknown (observed_apply_unknown seen), observed_apply_unknown seen]
      exact .settled (.refl _) g'
    | .ok ⟨some v, secret, dependencies⟩ =>
      rw [observed_apply_congr (observed_apply_known seen), observed_apply_known seen]
      exact meets_shaded f' secret dependencies (f v) g'
  · rw [observed_apply_waiting (observed_apply_waiting seen waits) rfl,
      observed_apply_waiting seen waits]
    exact .waiting rfl rfl (.apply f f' rest) g'

/-- Regrouped outputs are found the same by an observation, and what it leaves is regrouped. -/
theorem Regroups.meets {first second : Output V} (regroups : Regroups first second) (g : γ) :
    Meets Regroups (observed read first g) (observed read second g) := by
  cases regroups with
  | create f v => exact meets_create f v g
  | clear output => exact meets_clear _ g
  | remake output => exact meets_remake _ g
  | map f output => exact meets_map f output g
  | apply f f' output => exact meets_apply f f' output g
  | shaded f secret dependencies output => exact meets_shaded f secret dependencies output g
  | after secret secret' dependencies dependencies' output =>
    exact meets_after secret secret' dependencies dependencies' output g

/-- However the sources are read, and in whatever states they are at the observations: no
observations tell a function of a known value from what it produces, an output remade of its value
from the output itself, two functions one after the other from one that goes through both, or a
plain function from one that makes an output of its value. -/
theorem regrouping_unobserved (read : Source → γ → Option (Settled V) × γ) (v : V)
    (output : Output V) (f f' : V → Output V) (plain : V → V) :
    Alike read (.apply f (.create v)) (f v) ∧
      Alike read (.apply .create output) output ∧
      Alike read (.apply f' (.apply f output)) (.apply (fun v => .apply f' (f v)) output) ∧
      Alike read (.map plain output) (.apply (fun v => .create (plain v)) output) :=
  ⟨alike_of_meets Regroups.meets (.create f v), alike_of_meets Regroups.meets (.remake output),
    alike_of_meets Regroups.meets (.apply f f' output),
    alike_of_meets Regroups.meets (.map plain output)⟩

end Output

end Provision
