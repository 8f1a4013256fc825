import Provision.Json.Basic
import Provision.Output.Data
import Provision.Shape.Basic

/-!
# Types and values of a program

The types a program may declare for its properties, and their values. Every type has a shape,
which decides how a property is converted, and some have a zero of their own for a property
that is missing. Enumerations and records are described by data: an enumeration lists its
members with the form of each, and a table gives the fields of the records.
-/

namespace Provision

/-- The form of an enumeration's member. -/
inductive Scalar where
  | text (value : String)
  | number (value : Number)
  deriving DecidableEq, Repr

/-- How an enumeration words its refusal of a value. -/
inductive Refusal where
  /-- `no Color for number`, whatever the value. -/
  | noMember
  /-- `'x' is not a Color` for a text, and `expected Color but got number` for the rest. -/
  | notMember
  deriving DecidableEq, Repr

structure Enumeration where
  name : String
  backing : Backing
  /-- The members with their forms. -/
  members : List (String × Scalar)
  /-- The member that stands for a missing value. -/
  default? : Option String
  refusal : Refusal
  deriving DecidableEq, Repr

inductive HostType where
  | bool
  /-- A 32-bit integer. -/
  | int
  | number
  | string
  /-- A plain tree as it is. -/
  | any
  | json
  | asset
  | archive
  | file
  | resource
  | option (inner : HostType)
  | list (element : HostType)
  /-- A map from text. -/
  | map (element : HostType)
  /-- A property that is an output itself. -/
  | output (inner : HostType)
  | union (first second : HostType)
  | enum (description : Enumeration)
  | record (name : String)
  /-- The plain tree that a shape makes of a property. -/
  | shaped (shape : Shape)
  deriving DecidableEq, Repr

/-- A field of a record: its name in the program, and the property it is read from. -/
structure HostField where
  name : String
  wireName : String
  type : HostType
  deriving DecidableEq, Repr

/-- The fields of the records, by the record's name. -/
abbrev HostRecords := List (String × List HostField)

structure Schema where
  type : HostType
  records : HostRecords
  deriving DecidableEq, Repr

inductive HostValue where
  | bool (value : Bool)
  | int (value : Int)
  | number (value : Number)
  | string (value : String)
  | plain (value : Plain)
  | json (document : Json)
  | file (content : File)
  | resource (key : Key)
  /-- No value of an optional type. -/
  | absent
  | present (value : HostValue)
  | list (items : List HostValue)
  | map (fields : List (String × HostValue))
  | output (data : Data HostValue)
  | union (side : Side) (value : HostValue)
  | enum (member : String) (form : Scalar)
  /-- The fields in their order: name in the program, wire name, value. -/
  | record (fields : List (String × String × HostValue))
  deriving Repr

instance : Inhabited HostValue := ⟨.absent⟩

namespace HostType

instance : Inhabited HostType := ⟨.any⟩

def shape : HostType → Shape
  | .bool => .bool
  | .int => .int
  | .number => .number
  | .string => .string
  | .any => .any
  | .json => .json
  | .asset => .asset
  | .archive => .archive
  | .file => .file
  | .resource => .resource
  | .option inner => .optional inner.shape
  | .list element => .array element.shape
  | .map element => .map .string element.shape
  | .output inner => .output inner.shape
  | .union first second => .union first.shape second.shape
  | .enum description => .enum description.name description.backing
  | .record name => .record name
  | .shaped shape => shape

/-- The value of a missing property, for the types that have one of their own. -/
def missing? : HostType → Option HostValue
  | .enum description => do
    let member ← description.default?
    let form ← description.members.lookup member
    some (.enum member form)
  | .output inner => inner.missing?.map fun v => .output (.known v)
  | _ => none

end HostType

namespace HostRecords

/-- The fields of a record, none if it has no definition. -/
def fields (records : HostRecords) (name : String) : List HostField :=
  (records.lookup name).getD []

def parametersOf (fields : List HostField) : List Parameter :=
  fields.map fun f => ⟨f.name, f.wireName, f.type.shape⟩

def shapes (records : HostRecords) : Records :=
  records.map fun r => (r.1, parametersOf r.2)

end HostRecords

end Provision
