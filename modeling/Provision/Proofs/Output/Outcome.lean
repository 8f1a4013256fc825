import Provision.Proofs.Output.Sources

/-!
# What an output comes to

Where every source has a result, an output has one too, which is computed from the expression
alone. Observing the output finds that result, whatever else an observation does to the state in
which the sources are read (`pollWith_outcome`).
-/

namespace Provision.Output

variable {V γ : Type}

mutual

/-- The result of an output whose sources have the given results. -/
def outcome (resolved : Source → Settled V) : Output V → Settled V
  | .settled result => result
  | .source origin => resolved origin
  | .async result dependencies => result.map fun v => (Data.known v).dependingOn dependencies
  | .map f outer => (outcome resolved outer).map (Data.map f)
  | .apply f outer =>
    match outcome resolved outer with
    | .ok ⟨some v, secret, dependencies⟩ =>
      (outcome resolved (f v)).map (Data.after secret dependencies)
    | .ok ⟨none, secret, dependencies⟩ => .ok ⟨none, secret, dependencies⟩
    | .error cause => .error cause
  | .after secret dependencies inner =>
    (outcome resolved inner).map (Data.after secret dependencies)
  | .combine collect parts =>
    (outcomes resolved parts).map fun all => (Data.combine all).map collect
  | .tuple pair left right =>
    match outcome resolved left, outcome resolved right with
    | .error cause, _ => .error cause
    | .ok _, .error cause => .error cause
    | .ok a, .ok b => .ok ((Data.pair a b).map fun v => pair v.1 v.2)
  | .asSecret inner => (outcome resolved inner).map Data.asSecret
  | .withResources dependencies inner =>
    (outcome resolved inner).map (Data.dependingOn dependencies)

/-- The data of all parts, or the first failure among them. -/
def outcomes (resolved : Source → Settled V) : List (Output V) → Except Failure (List (Data V))
  | [] => .ok []
  | part :: rest =>
    match outcome resolved part with
    | .error cause => .error cause
    | .ok data => (outcomes resolved rest).map (data :: ·)

end

/-- While `P` holds, every allowed source has its result, and reading one keeps `P`. -/
def Answers (read : Source → γ → Option (Settled V) × γ) (P : γ → Prop)
    (resolved : Source → Settled V) (allowed : Source → Prop) : Prop :=
  ∀ origin, allowed origin → ∀ g, P g →
    (read origin g).1 = some (resolved origin) ∧ P (read origin g).2

/-- What surrounds an observed output that is settled changes its data. -/
theorem Polled.within_settled {p : Polled V} {result : Settled V} (change : Data V → Data V)
    (rebuild : Output V → Output V) (settled : p.output = .settled result) :
    (p.within change rebuild).output = .settled (result.map change) := by
  unfold within
  rw [settled]
  cases result <;> rfl

variable {read : Source → γ → Option (Settled V) × γ} {P : γ → Prop}
  {resolved : Source → Settled V} {allowed : Source → Prop}

theorem Answers.kept (answers : Answers read P resolved allowed) {output : Output V}
    (sourced : output.Over allowed) {g : γ} (h : P g) : P (pollWith read output g).2 :=
  pollWith_keeps (fun origin ok g hg => (answers origin ok g hg).2) output sourced g h

mutual

/-- Observing an output finds its outcome, if all its sources are resolved. -/
theorem pollWith_outcome (answers : Answers read P resolved allowed) :
    ∀ (output : Output V), output.Over allowed → ∀ g, P g →
      (pollWith read output g).1.output = .settled (outcome resolved output)
  | .settled _, _, _, _ => rfl
  | .source origin, sourced, g, h => by
    have answer := (answers origin sourced g h).1
    unfold pollWith
    split
    · rename_i r g' same
      rw [same] at answer
      cases answer
      rfl
    · rename_i g' same
      rw [same] at answer
      cases answer
  | .async _ _, _, _, _ => rfl
  | .map f outer, sourced, g, h => by
    have seen := pollWith_outcome answers outer sourced g h
    unfold pollWith outcome
    dsimp only
    rw [seen]
    cases outcome resolved outer <;> rfl
  | .apply f outer, ⟨functions, sourced⟩, g, h => by
    have seen := pollWith_outcome answers outer sourced g h
    unfold pollWith outcome
    dsimp only
    rw [seen]
    cases outcome resolved outer with
    | error cause => rfl
    | ok data =>
      obtain ⟨_ | v, secret, dependencies⟩ := data
      · rfl
      · exact Polled.within_settled _ _
          (pollWith_outcome answers (f v) (functions v) _ (answers.kept sourced h))
  | .after secret dependencies inner, sourced, g, h =>
    Polled.within_settled _ _ (pollWith_outcome answers inner sourced g h)
  | .combine collect parts, sourced, g, h => by
    have seen := pollParts_outcomes answers (decide (eagerParts < parts.length)) parts sourced g h
    unfold pollWith outcome
    dsimp only
    cases all : outcomes resolved parts with
    | error cause =>
      rw [all] at seen
      simp only [seen]
      rfl
    | ok data =>
      rw [all] at seen
      simp only [seen.1, seen.2]
      rfl
  | .tuple pair left right, ⟨overLeft, overRight⟩, g, h => by
    have seenLeft := pollWith_outcome answers left overLeft g h
    have seenRight := pollWith_outcome answers right overRight _ (answers.kept overLeft h)
    unfold pollWith outcome
    dsimp only
    rw [seenLeft]
    cases outcome resolved left with
    | error cause => rfl
    | ok a =>
      dsimp only
      rw [seenRight]
      cases outcome resolved right <;> rfl
  | .asSecret inner, sourced, g, h =>
    Polled.within_settled _ _ (pollWith_outcome answers inner sourced g h)
  | .withResources _ inner, sourced, g, h =>
    Polled.within_settled _ _ (pollWith_outcome answers inner sourced g h)

/-- Observing parts finds all their data or the first failure. -/
theorem pollParts_outcomes (answers : Answers read P resolved allowed) (patient : Bool) :
    ∀ (parts : List (Output V)), OverParts allowed parts → ∀ g, P g →
      match outcomes resolved parts with
      | .error cause => (pollParts read patient false parts g).1.failure = some cause
      | .ok all => (pollParts read patient false parts g).1.failure = none ∧
          allData (pollParts read patient false parts g).1.parts = some all
  | [], _, _, _ => ⟨rfl, rfl⟩
  | part :: rest, ⟨sourced, overRest⟩, g, h => by
    have seen := pollWith_outcome answers part sourced g h
    have later := pollParts_outcomes answers patient rest overRest _ (answers.kept sourced h)
    unfold pollParts outcomes
    dsimp only
    rw [seen, Bool.and_false]
    cases outcome resolved part with
    | error cause => rfl
    | ok data =>
      -- A settled part does not make the parts after it wait.
      cases all : outcomes resolved rest with
      | error cause =>
        rw [all] at later
        exact later
      | ok datas =>
        rw [all] at later
        refine ⟨later.1, ?_⟩
        have rebuilt := congrArg (Option.map (data :: ·)) later.2
        exact rebuilt

end

end Provision.Output
