import Provision.Output.Graph

/-!
# The sources of an output

An observation reads only sources that stand in the expression, or in what its functions produce.
What reading such a source keeps, the observation keeps (`pollWith_keeps`), and the expression that
it leaves has no other sources (`pollWith_over`).
-/

namespace Provision.Output

variable {V γ : Type}

mutual

/-- Every source of the output is among the allowed ones, also in what its functions produce. -/
def Over (allowed : Source → Prop) : Output V → Prop
  | .settled _ | .async _ _ => True
  | .source origin => allowed origin
  | .map _ outer => Over allowed outer
  | .apply f outer => (∀ v, Over allowed (f v)) ∧ Over allowed outer
  | .after _ _ inner | .asSecret inner | .withResources _ inner => Over allowed inner
  | .combine _ parts => OverParts allowed parts
  | .tuple _ left right => Over allowed left ∧ Over allowed right

def OverParts (allowed : Source → Prop) : List (Output V) → Prop
  | [] => True
  | part :: rest => Over allowed part ∧ OverParts allowed rest

end

mutual

theorem over_mono {allowed more : Source → Prop} (all : ∀ origin, allowed origin → more origin) :
    ∀ {output : Output V}, output.Over allowed → output.Over more
  | .settled _, _ | .async _ _, _ => trivial
  | .source origin, sourced => all origin sourced
  | .map _ outer, sourced => @over_mono _ _ all outer sourced
  | .apply _ _, ⟨functions, sourced⟩ =>
    ⟨fun v => over_mono all (functions v), over_mono all sourced⟩
  | .after _ _ inner, sourced | .asSecret inner, sourced | .withResources _ inner, sourced =>
    @over_mono _ _ all inner sourced
  | .combine _ parts, sourced => @overParts_mono _ _ all parts sourced
  | .tuple _ _ _, ⟨left, right⟩ => ⟨over_mono all left, over_mono all right⟩

theorem overParts_mono {allowed more : Source → Prop}
    (all : ∀ origin, allowed origin → more origin) :
    ∀ {parts : List (Output V)}, OverParts allowed parts → OverParts more parts
  | [], _ => trivial
  | _ :: _, ⟨part, rest⟩ => ⟨over_mono all part, overParts_mono all rest⟩

end

mutual

theorem over_true : ∀ output : Output V, output.Over fun _ => True
  | .settled _ | .async _ _ | .source _ => trivial
  | .map _ outer => over_true outer
  | .apply f outer => ⟨fun v => over_true (f v), over_true outer⟩
  | .after _ _ inner | .asSecret inner | .withResources _ inner => over_true inner
  | .combine _ parts => overParts_true parts
  | .tuple _ left right => ⟨over_true left, over_true right⟩

theorem overParts_true : ∀ parts : List (Output V), OverParts (fun _ => True) parts
  | [] => trivial
  | part :: rest => ⟨over_true part, overParts_true rest⟩

end

variable {P : γ → Prop} {read : Source → γ → Option (Settled V) × γ} {allowed : Source → Prop}

mutual

/-- What every reading of an allowed source keeps, an observation keeps. -/
theorem pollWith_keeps (keeps : ∀ origin, allowed origin → ∀ g, P g → P (read origin g).2) :
    ∀ (output : Output V), output.Over allowed → ∀ g, P g → P (pollWith read output g).2
  | .settled _, _, _, h => h
  | .source origin, sourced, g, h => by
    have hr := keeps origin sourced g h
    unfold pollWith
    split <;> simp_all
  | .async _ _, _, _, h => h
  | .map f outer, sourced, g, h => by
    have ho := pollWith_keeps keeps outer sourced g h
    unfold pollWith
    dsimp only
    split <;> exact ho
  | .apply f outer, ⟨functions, sourced⟩, g, h => by
    have ho := pollWith_keeps keeps outer sourced g h
    unfold pollWith
    dsimp only
    split
    · exact pollWith_keeps keeps (f _) (functions _) _ ho
    all_goals exact ho
  | .after _ _ inner, sourced, g, h => pollWith_keeps keeps inner sourced g h
  | .combine collect parts, sourced, g, h => by
    have hp := pollParts_keeps keeps (decide (eagerParts < parts.length)) false parts sourced g h
    unfold pollWith
    dsimp only
    split <;> exact hp
  | .tuple pair left right, ⟨overLeft, overRight⟩, g, h => by
    have hl := pollWith_keeps keeps left overLeft g h
    unfold pollWith
    dsimp only
    split
    · exact hl
    · have hr := pollWith_keeps keeps right overRight _ hl
      split <;> exact hr
  | .asSecret inner, sourced, g, h => pollWith_keeps keeps inner sourced g h
  | .withResources _ inner, sourced, g, h => pollWith_keeps keeps inner sourced g h

theorem pollParts_keeps (keeps : ∀ origin, allowed origin → ∀ g, P g → P (read origin g).2)
    (patient waiting : Bool) :
    ∀ (parts : List (Output V)), OverParts allowed parts → ∀ g, P g →
      P (pollParts read patient waiting parts g).2
  | [], _, _, h => h
  | part :: rest, ⟨sourced, overRest⟩, g, h => by
    have hp := pollWith_keeps keeps part sourced g h
    unfold pollParts
    dsimp only
    split
    · exact hp
    · exact pollParts_keeps keeps patient _ rest overRest _ hp

end

/-- What every reading of a source keeps, an observation keeps. -/
theorem pollWith_preserves (keeps : ∀ origin g, P g → P (read origin g).2) (output : Output V)
    (g : γ) (h : P g) : P (pollWith read output g).2 :=
  pollWith_keeps (fun origin _ => keeps origin) output (over_true output) g h

/-- An expression around an observed output has the sources of that output. -/
theorem Polled.within_over {p : Polled V} {change : Data V → Data V}
    {rebuild : Output V → Output V} (sourced : p.output.Over allowed)
    (rebuilt : ∀ output : Output V, output.Over allowed → (rebuild output).Over allowed) :
    (p.within change rebuild).output.Over allowed := by
  unfold within
  split
  · trivial
  · trivial
  · exact rebuilt _ sourced

mutual

/-- The expression that an observation leaves has no other sources. -/
theorem pollWith_over :
    ∀ (output : Output V), output.Over allowed → ∀ g : γ,
      (pollWith read output g).1.output.Over allowed
  | .settled _, _, _ => trivial
  | .source origin, sourced, g => by
    unfold pollWith
    split
    · trivial
    · exact sourced
  | .async _ _, _, _ => trivial
  | .map f outer, sourced, g => by
    have ho := pollWith_over outer sourced g
    unfold pollWith
    dsimp only
    split
    · trivial
    · trivial
    · exact ho
  | .apply f outer, ⟨functions, sourced⟩, g => by
    have ho := pollWith_over outer sourced g
    unfold pollWith
    dsimp only
    split
    · exact Polled.within_over (pollWith_over (f _) (functions _) _) fun _ h => h
    · trivial
    · trivial
    · exact ⟨functions, ho⟩
  | .after _ _ inner, sourced, g => Polled.within_over (pollWith_over inner sourced g) fun _ h => h
  | .combine collect parts, sourced, g => by
    have hp := pollParts_over (decide (eagerParts < parts.length)) false parts sourced g
    unfold pollWith
    dsimp only
    split
    · trivial
    · trivial
    · exact hp
  | .tuple pair left right, ⟨overLeft, overRight⟩, g => by
    have hl := pollWith_over left overLeft g
    unfold pollWith
    dsimp only
    split
    · trivial
    · have hr := pollWith_over right overRight (pollWith read left g).2
      split
      · trivial
      · trivial
      · exact ⟨hl, hr⟩
  | .asSecret inner, sourced, g => Polled.within_over (pollWith_over inner sourced g) fun _ h => h
  | .withResources _ inner, sourced, g =>
    Polled.within_over (pollWith_over inner sourced g) fun _ h => h

theorem pollParts_over (patient waiting : Bool) :
    ∀ (parts : List (Output V)), OverParts allowed parts → ∀ g : γ,
      OverParts allowed (pollParts read patient waiting parts g).1.parts
  | [], _, _ => trivial
  | part :: rest, ⟨sourced, overRest⟩, g => by
    have hp := pollWith_over part sourced g
    unfold pollParts
    dsimp only
    split
    · exact ⟨trivial, overRest⟩
    · exact ⟨hp, pollParts_over patient _ rest overRest _⟩

end

end Provision.Output
