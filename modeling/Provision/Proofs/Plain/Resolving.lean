import Provision.Plain.OfValue

/-!
# Resolving the references of a value

A value is read from left to right, and the state in which references are resolved changes by
resolving only: what every single resolution keeps, the reading of a whole value keeps.
-/

namespace Provision.Plain

variable {σ : Type} {P : σ → Prop} {resolve : Resolver σ}

mutual

theorem ofValue_preserves (keeps : ∀ r s, P s → P (resolve r s).2) :
    ∀ (value : Value) (s : σ), P s → P (ofValue resolve value s).2
  | .null, _, h | .bool _, _, h | .number _, _, h | .string _, _, h | .unknown, _, h => h
  | .array items, s, h => itemsOfValues_preserves keeps items s h
  | .object fields, s, h => by
    have hf := fieldsOfValues_preserves keeps fields s h
    unfold ofValue
    split
    · exact h
    · exact hf
  | .secret content, s, h => ofValue_preserves keeps content s h
  | .reference r, s, h => keeps r s h

theorem itemsOfValues_preserves (keeps : ∀ r s, P s → P (resolve r s).2) :
    ∀ (items : List Value) (s : σ), P s → P (itemsOfValues resolve items s).2
  | [], _, h => h
  | item :: rest, s, h =>
    itemsOfValues_preserves keeps rest _ (ofValue_preserves keeps item s h)

theorem fieldsOfValues_preserves (keeps : ∀ r s, P s → P (resolve r s).2) :
    ∀ (fields : List (String × Value)) (s : σ), P s → P (fieldsOfValues resolve fields s).2
  | [], _, h => h
  | (_, value) :: rest, s, h =>
    fieldsOfValues_preserves keeps rest _ (ofValue_preserves keeps value s h)

end

end Provision.Plain
