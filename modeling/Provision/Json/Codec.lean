import Provision.Json.Basic

/-!
# Plain data as documents

How the plain parts of messages and settings are written as documents and read back. A record
is written as an object. It is read from an object, where unknown members are ignored, or from
an array, whose items are its members in the order of declaration; in both a missing member
takes its default. Only an optional member may be `null`.
-/

namespace Provision

/-- A type whose values are written as documents and read back. -/
class Codec (α : Type) where
  encode : α → Json
  decode : Json → Option α

export Codec (encode decode)

namespace Codec

instance : Codec Bool where
  encode := .bool
  decode
    | .bool b => some b
    | _ => none

instance : Codec String where
  encode := .string
  decode := Json.text?

/-- A natural number below a bound. -/
def decodeNat (bound : Nat) : Json → Option Nat
  | .number (.integer i _) => if 0 ≤ i ∧ i < bound then some i.toNat else none
  | _ => none

instance : Codec UInt8 where
  encode b := .ofInt b.toNat
  decode j := (decodeNat 256 j).map Nat.toUInt8

instance {α : Type} [Codec α] : Codec (Option α) where
  encode
    | none => .null
    | some a => encode a
  decode
    | .null => some none
    | j => (decode j).map some

instance {α : Type} [Codec α] : Codec (List α) where
  encode xs := .array (xs.map encode)
  decode
    | .array items => items.mapM decode
    | _ => none

instance {α : Type} [Codec α] : Codec (Fields α) where
  encode fields := .object (fields.map fun p => (p.1, encode p.2))
  decode
    | .object members => members.mapM fun p => (decode p.2).map (p.1, ·)
    | _ => none

/-- The members of a record whose declaration lists the given names. -/
def membersOf (names : List String) : Json → Option (Fields Json)
  | .object members => some members
  | .array items => if items.length ≤ names.length then some (names.zip items) else none
  | _ => none

/-- The member `name`, or its default where it is missing. -/
def readMember {α : Type} [Codec α] (members : Fields Json) (name : String) (default : α) :
    Option α :=
  match members.lookup name with
  | none => some default
  | some j => decode j

end Codec

end Provision
