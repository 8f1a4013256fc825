import Provision.Ascending
import Provision.Number.Basic

/-!
# JSON documents

Documents as trees. A number is an integer of the 64-bit ranges, or any other finite number;
the two kinds are kept apart because they are written differently. The members of an object
are a finite map, written in the order of their keys.
-/

namespace Provision

/-- The integers that fit into 64 bits, with a sign or without: `-2^63` up to `2^64 - 1`. -/
def FitsWord (i : Int) : Prop := -(Number.twoPow 63 : Int) ≤ i ∧ i < (Number.twoPow 64 : Int)

instance (i : Int) : Decidable (FitsWord i) := by unfold FitsWord; exact inferInstance

/-- The number of a document: an integer of 64 bits, or a binary64 number. -/
inductive JsonNumber where
  | integer (value : Int) (fits : FitsWord value)
  | float (value : Number.Finite)
  deriving DecidableEq, Repr

inductive Json where
  | null
  | bool (value : Bool)
  | number (value : JsonNumber)
  | string (value : String)
  | array (items : List Json)
  | object (members : List (String × Json))
  deriving Repr

instance : Inhabited Json := ⟨.null⟩

namespace JsonNumber

/-- The nearest binary64 number. -/
def toNumber : JsonNumber → Number
  | .integer i _ => .ofInt i
  | .float x => .finite x

end JsonNumber

namespace Json

/-- An integer of the 64-bit ranges; any other one becomes the nearest number, and `null` where
there is none. -/
def ofInt (i : Int) : Json :=
  if h : FitsWord i then .number (.integer i h)
  else match Number.ofInt i with
    | .finite x => .number (.float x)
    | _ => .null

/-- The document of a number in exchange with the engine: an integral number of magnitude up to
`2^53` as an integer, another finite number as it is, and `null` for the rest. -/
def ofNumber (x : Number) : Json :=
  match x.safeInteger? with
  | some i => ofInt i
  | none => match x with
    | .finite y => .number (.float y)
    | _ => .null

/-- The object with the given members; of two with one name the last one stays. -/
def ofMembers (members : List (String × Json)) : Json := .object (Fields.ofList members)

def text? : Json → Option String
  | .string s => some s
  | _ => none

mutual

/-- In every object the names ascend strictly. -/
def Ordered : Json → Prop
  | .array items => OrderedItems items
  | .object members => Fields.Ordered members ∧ OrderedMembers members
  | _ => True

def OrderedItems : List Json → Prop
  | [] => True
  | item :: rest => Ordered item ∧ OrderedItems rest

def OrderedMembers : List (String × Json) → Prop
  | [] => True
  | (_, value) :: rest => Ordered value ∧ OrderedMembers rest

end

end Json

end Provision
