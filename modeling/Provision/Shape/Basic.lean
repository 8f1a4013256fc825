import Provision.Plain.Basic

/-!
# Shapes

A shape says which plain trees a type of the program accepts. Records are given by name, and a
table gives the parameters of each name, so records may refer to themselves and to each other.
-/

namespace Provision

/-- What an enumeration is written as. -/
inductive Backing where
  | string
  | number
  deriving DecidableEq, Repr

inductive Shape where
  | bool
  /-- A number, truncated to an integer. -/
  | int
  | number
  | string
  /-- Any tree, kept as it is. -/
  | any
  /-- A JSON document: no files and no resources. -/
  | json
  | asset
  | archive
  /-- An asset or an archive. -/
  | file
  | resource
  | optional (inner : Shape)
  | enum (name : String) (backing : Backing)
  | union (first second : Shape)
  | array (element : Shape)
  | map (key value : Shape)
  | output (inner : Shape)
  | record (name : String)
  /-- A type that no value can be converted to. -/
  | unsupported (name : String)
  deriving DecidableEq, Repr

/-- A parameter of a record: its name in the program, and the property it is read from. -/
structure Parameter where
  name : String
  wireName : String
  shape : Shape
  deriving DecidableEq, Repr

/-- The parameters of the records, by the record's name. -/
abbrev Records := List (String × List Parameter)

/-- The parameters of a record, none if it has no definition. -/
def Records.parameters (records : Records) (name : String) : List Parameter :=
  (records.lookup name).getD []

namespace Shape

instance : Inhabited Shape := ⟨.any⟩

/-- What messages call a shape. -/
def typeName : Shape → String
  | .bool => "bool"
  | .int => "int"
  | .number => "number"
  | .string => "string"
  | .any => "any"
  | .json => "json"
  | .asset => "asset"
  | .archive => "archive"
  | .file => "asset or archive"
  | .resource => "resource"
  | .optional inner => "Option<" ++ inner.typeName ++ ">"
  | .enum name _ => name
  | .union first second => "Union<" ++ first.typeName ++ ", " ++ second.typeName ++ ">"
  | .array element => "Vec<" ++ element.typeName ++ ">"
  | .map key value => "Map<" ++ key.typeName ++ ", " ++ value.typeName ++ ">"
  | .output inner => "Output<" ++ inner.typeName ++ ">"
  | .record name => name
  | .unsupported name => name

/-- The tree that stands where there is nothing usable for a shape. -/
def zero : Shape → Plain
  | .bool => .bool false
  | .int | .number => .number Number.zero
  | .string => .string ""
  | .asset | .file => .file (.asset .invalid)
  | .archive => .file .archiveInvalid
  | .union first _ => .union .first first.zero
  | .array _ => .array []
  | .map _ _ => .object []
  | .output inner => inner.zero
  | .any | .json | .resource | .enum _ _ | .optional _ | .record _ | .unsupported _ => .null

/-- How messages name a parameter of a record. -/
def parameterContext (record parameter : String) : String := record ++ "(" ++ parameter ++ ")"

end Shape

end Provision
