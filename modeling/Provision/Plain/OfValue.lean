import Provision.Output.Data
import Provision.Plain.Basic

/-!
# Engine values as plain trees

Unknowns and secrets are lifted out of a value: the plain tree has null for an unknown and the
content of a secret, and two flags tell that there were some. An object that is the payload of
a file becomes the file, whatever else it holds. A resource reference is resolved by the
deployment, which may have to make a resource for it.
-/

namespace Provision

/-- A plain tree with what was lifted out of the value. -/
structure Lifted (α : Type) where
  content : α
  isKnown : Bool
  isSecret : Bool

namespace Lifted

variable {α β γ : Type}

def plain (content : α) : Lifted α := ⟨content, true, false⟩

/-- Both parts together: known if both are, and secret if either is. -/
def both (f : α → β → γ) (x : Lifted α) (y : Lifted β) : Lifted γ :=
  ⟨f x.content y.content, x.isKnown && y.isKnown, x.isSecret || y.isSecret⟩

def map (f : α → β) (x : Lifted α) : Lifted β := ⟨f x.content, x.isKnown, x.isSecret⟩

end Lifted

namespace Plain

/-- Resolves a reference to a resource; the state records the resources made for it. -/
abbrev Resolver (σ : Type) := Reference → σ → Key × σ

mutual

/-- The plain tree of a value. References are resolved from left to right. -/
def ofValue {σ : Type} (resolve : Resolver σ) : Value → σ → Lifted Plain × σ
  | .null, s => (.plain .null, s)
  | .bool b, s => (.plain (.bool b), s)
  | .number x, s => (.plain (.number x), s)
  | .string t, s => (.plain (.string t), s)
  | .array items, s =>
    let (items, s) := itemsOfValues resolve items s
    (items.map .array, s)
  | .object fields, s =>
    match File.ofValue? (.object fields) with
    | some content => (.plain (.file content), s)
    | none =>
      let (fields, s) := fieldsOfValues resolve fields s
      (fields.map .object, s)
  | .unknown, s => (⟨.null, false, false⟩, s)
  | .secret content, s =>
    let (content, s) := ofValue resolve content s
    ({ content with isSecret := true }, s)
  | .reference r, s =>
    let (key, s) := resolve r s
    (.plain (.resource key), s)

def itemsOfValues {σ : Type} (resolve : Resolver σ) : List Value → σ → Lifted (List Plain) × σ
  | [], s => (.plain [], s)
  | item :: rest, s =>
    let (item, s) := ofValue resolve item s
    let (rest, s) := itemsOfValues resolve rest s
    (.both List.cons item rest, s)

def fieldsOfValues {σ : Type} (resolve : Resolver σ) :
    List (String × Value) → σ → Lifted (List (String × Plain)) × σ
  | [], s => (.plain [], s)
  | (key, value) :: rest, s =>
    let (value, s) := ofValue resolve value s
    let (rest, s) := fieldsOfValues resolve rest s
    (.both (fun v r => (key, v) :: r) value rest, s)

end

end Plain

end Provision
