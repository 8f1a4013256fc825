import Provision.Host.Basic

/-!
# Values of a program from plain trees

A value is built from a tree that has been converted to the type's shape. What can still fail
is a part whose zero is null although its type has no value for null, and an enumeration that
has no such member. Null stands for the type's own missing value where it has one.
-/

namespace Provision

def mismatch (expected : String) (value : Plain) : String :=
  "expected " ++ expected ++ " but got " ++ value.kind

/-- The number of a document: an integral one below `2^63` in magnitude as an integer. -/
def documentNumber : Number → Json
  | .finite x =>
    if x.isIntegral ∧ x.floorMagnitude < Number.twoPow 63 then .ofInt x.toInt else .number (.float x)
  | _ => .null

namespace Plain

mutual

def toJson : Plain → Except String Json
  | .null => .ok .null
  | .bool b => .ok (.bool b)
  | .number x => .ok (documentNumber x)
  | .string s => .ok (.string s)
  | .array items => (itemsToJson items).map .array
  | .object fields => (fieldsToJson fields).map .object
  | .file content => .error (mismatch "JSON" (.file content))
  | .resource key => .error (mismatch "JSON" (.resource key))
  | .union side value => .error (mismatch "JSON" (.union side value))

def itemsToJson : List Plain → Except String (List Json)
  | [] => .ok []
  | item :: rest => do
    let item ← toJson item
    let rest ← itemsToJson rest
    .ok (item :: rest)

def fieldsToJson : List (String × Plain) → Except String (List (String × Json))
  | [] => .ok []
  | (key, value) :: rest => do
    let value ← toJson value
    let rest ← fieldsToJson rest
    .ok ((key, value) :: rest)

end

end Plain

namespace Enumeration

/-- The form of a tree that could be a member. -/
def formOf : Plain → Option Scalar
  | .string s => some (.text s)
  | .number x => some (.number x)
  | _ => none

def refuse (description : Enumeration) (value : Plain) : String :=
  match description.refusal, value with
  | .noMember, value => "no " ++ description.name ++ " for " ++ value.kind
  | .notMember, .string s => "'" ++ s ++ "' is not a " ++ description.name
  | .notMember, value => mismatch description.name value

def ofPlain (description : Enumeration) (value : Plain) : Except String HostValue :=
  match formOf value with
  | none => .error (description.refuse value)
  | some form =>
    match description.members.find? (fun m => m.2 = form) with
    | some (member, form) => .ok (.enum member form)
    | none => .error (description.refuse value)

end Enumeration

namespace HostType

/-- The missing value of a type, or what `build` makes of the tree. -/
def orMissing (type : HostType) (build : Plain → Except String HostValue) (value : Plain) :
    Except String HostValue :=
  match value, type.missing? with
  | .null, some v => .ok v
  | value, _ => build value

def buildItems (build : Plain → Except String HostValue) :
    List Plain → Except String (List HostValue)
  | [] => .ok []
  | item :: rest => do
    let item ← build item
    let rest ← buildItems build rest
    .ok (item :: rest)

/-- Fields built one after the other, under the same keys. -/
def buildFields (build : Plain → Except String HostValue) :
    List (String × Plain) → Except String (List (String × HostValue))
  | [] => .ok []
  | (key, value) :: rest => do
    let value ← build value
    let rest ← buildFields build rest
    .ok ((key, value) :: rest)

/-- Build a value, given how to build a record. -/
def buildWith (buildRecord : String → Plain → Except String HostValue) :
    HostType → Plain → Except String HostValue
  | .bool, value =>
    match value with
    | .bool b => .ok (.bool b)
    | value => .error (mismatch "bool" value)
  | .int, value =>
    match value with
    | .number x => .ok (.int x.toInt32)
    | value => .error (mismatch "int" value)
  | .number, value =>
    match value with
    | .number x => .ok (.number x)
    | value => .error (mismatch "number" value)
  | .string, value =>
    match value with
    | .string s => .ok (.string s)
    | value => .error (mismatch "string" value)
  | .any, value => .ok (.plain value)
  | .json, value => value.toJson.map .json
  | .asset, value =>
    match value with
    | .file (.asset content) => .ok (.file (.asset content))
    | value => .error (mismatch "asset" value)
  | .archive, value =>
    match value with
    | .file content =>
      if content.isAsset then .error (mismatch "archive" (.file content)) else .ok (.file content)
    | value => .error (mismatch "archive" value)
  | .file, value =>
    match value with
    | .file content => .ok (.file content)
    | value => .error (mismatch "asset or archive" value)
  | .resource, value =>
    match value with
    | .resource key => .ok (.resource key)
    | value => .error (mismatch "resource" value)
  | .option inner, value =>
    match value with
    | .null => .ok .absent
    | value => (inner.orMissing (buildWith buildRecord inner) value).map .present
  | .list element, value =>
    match value with
    | .array items =>
      (buildItems (element.orMissing (buildWith buildRecord element)) items).map .list
    | value => .error (mismatch "array" value)
  | .map element, value =>
    match value with
    | .object fields =>
      (buildFields (element.orMissing (buildWith buildRecord element)) fields).map .map
    | value => .error (mismatch "object" value)
  | .output inner, value =>
    (inner.orMissing (buildWith buildRecord inner) value).map fun v => .output (.known v)
  | .union first second, value =>
    match value with
    | .union .first value =>
      (first.orMissing (buildWith buildRecord first) value).map (.union .first)
    | .union .second value =>
      (second.orMissing (buildWith buildRecord second) value).map (.union .second)
    | value => .error (mismatch "union" value)
  | .enum description, value => description.ofPlain value
  | .record name, value => buildRecord name value
  | .shaped _, value => .ok (.plain value)

/-- Build the fields of a record in their order; a failure names the field. -/
def buildRecordFields (build : HostType → Plain → Except String HostValue) (name : String)
    (properties : List (String × Plain)) :
    List HostField → Except String (List (String × String × HostValue))
  | [] => .ok []
  | f :: rest =>
    match build f.type ((properties.lookup f.name).getD .null) with
    | .error reason => .error (Shape.parameterContext name f.name ++ ": " ++ reason)
    | .ok value =>
      (buildRecordFields build name properties rest).map ((f.name, f.wireName, value) :: ·)

/-- Build a record, entering at most `depth` records one inside another. Each is a level of the
tree further down. -/
def buildRecord (records : HostRecords) : Nat → String → Plain → Except String HostValue
  | 0, name, value => .error (mismatch name value)
  | depth + 1, name, value =>
    match value with
    | .object properties =>
      (buildRecordFields
        (fun type => type.orMissing (buildWith (buildRecord records depth) type))
        name properties (records.fields name)).map .record
    | value => .error (mismatch name value)

def ofPlain (schema : Schema) (value : Plain) : Except String HostValue :=
  schema.type.orMissing
    (buildWith (buildRecord schema.records (value.depth + 1)) schema.type) value

end HostType

end Provision
