import Provision.Value.Basic
import Provision.Json.Basic

/-!
# Engine values as JSON documents

The special kinds share the space of ordinary documents: an unknown is a fixed text, a secret
and a resource reference are objects with a signature. Reading is total. An object whose
signature or payload does not fit stays an ordinary object, and of a special object only the
expected members are read.
-/

namespace Provision.Value

/-- An object with a signature; the given members follow the signature's key. -/
def signedDocument (signature : String) (members : List (String × Json)) : Json :=
  .object ((Signature.key, .string signature) :: members)

def textMember (name : String) : Option String → List (String × Json)
  | some s => [(name, .string s)]
  | none => []

mutual

def toJson : Value → Json
  | .null => .null
  | .bool b => .bool b
  | .number x => .ofNumber x
  | .string s => .string s
  | .array items => .array (itemsToJson items)
  | .object fields => .object (fieldsToJson fields)
  | .unknown => .string Signature.unknown
  | .secret content => signedDocument Signature.secret [("value", toJson content)]
  | .reference r =>
    signedDocument Signature.resource
      (textMember "id" r.id ++ textMember "packageVersion" r.packageVersion ++
        [("urn", .string r.urn)])

def itemsToJson : List Value → List Json
  | [] => []
  | item :: rest => toJson item :: itemsToJson rest

/-- The documents of the fields, under the same keys. -/
def fieldsToJson : List (String × Value) → List (String × Json)
  | [] => []
  | (key, value) :: rest => (key, toJson value) :: fieldsToJson rest

end

/-- The text of the member `name`, if it is a string. -/
def textOf (name : String) (members : Fields Json) : Option String :=
  (members.lookup name).bind Json.text?

/-- The reference that the members of a signed object describe. An empty package version counts
as none. -/
def referenceOf (members : Fields Json) : Option Reference :=
  (textOf "urn" members).map fun urn =>
    { urn, id := textOf "id" members
      packageVersion := (textOf "packageVersion" members).filter (· ≠ "") }

/-- The value of an object, from its members and the values of its members. -/
def ofMembers (members : Fields Json) (fields : Fields Value) : Value :=
  match textOf Signature.key members with
  | some signature =>
    if signature = Signature.secret then
      match fields.lookup "value" with
      | some content => .secret content
      | none => .object fields
    else if signature = Signature.resource then
      match referenceOf members with
      | some r => .reference r
      | none => .object fields
    else .object fields
  | none => .object fields

mutual

def ofJson : Json → Value
  | .null => .null
  | .bool b => .bool b
  | .number n => .number n.toNumber
  | .string s => if s = Signature.unknown then .unknown else .string s
  | .array items => .array (itemsOfJson items)
  | .object members => ofMembers members (fieldsOfJson members)

def itemsOfJson : List Json → List Value
  | [] => []
  | item :: rest => ofJson item :: itemsOfJson rest

/-- The values of the members, under the same keys. -/
def fieldsOfJson : List (String × Json) → List (String × Value)
  | [] => []
  | (key, document) :: rest => (key, ofJson document) :: fieldsOfJson rest

end

end Provision.Value
