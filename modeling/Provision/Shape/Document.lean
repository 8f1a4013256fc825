import Provision.Json.Basic
import Provision.Shape.Basic

/-!
# Shapes as documents

A shape without parts is written as its name, any other one as an object whose members name the
form and give its parts.
-/

namespace Provision

namespace Shape

/-- The shapes that are written as a name. -/
def ofName? : String → Option Shape
  | "bool" => some .bool
  | "int" => some .int
  | "number" => some .number
  | "string" => some .string
  | "any" => some .any
  | "json" => some .json
  | "asset" => some .asset
  | "archive" => some .archive
  | "assetOrArchive" => some .file
  | "resource" => some .resource
  | _ => none

def ofJson? : Json → Option Shape
  | .string name => ofName? name
  | .object [("optional", inner)] => (ofJson? inner).map .optional
  | .object [("array", element)] => (ofJson? element).map .array
  | .object [("output", inner)] => (ofJson? inner).map .output
  | .object [("map", value)] => (ofJson? value).map (.map .string)
  | .object [("key", key), ("map", value)] => do some (.map (← ofJson? key) (← ofJson? value))
  | .object [("union", .array [first, second])] => do
    some (.union (← ofJson? first) (← ofJson? second))
  | .object [("enum", .object [("backing", .string "number"), ("name", .string name)])] =>
    some (.enum name .number)
  | .object [("enum", .object [("backing", .string "string"), ("name", .string name)])] =>
    some (.enum name .string)
  | .object [("unsupported", .string name)] => some (.unsupported name)
  | .object [("record", .string name)] => some (.record name)
  | _ => none

end Shape

end Provision
