import Provision.Json.Basic

/-!
# Reading parts of documents

Members of an object by name, with a plain value for what is missing or of another kind.
-/

namespace Provision.Json

/-- Whether a document is an object with the member. -/
def has (document : Json) (name : String) : Bool :=
  match document with
  | .object members => Fields.has name members
  | _ => false

/-- A member, null if it is missing. -/
def get (document : Json) (name : String) : Json :=
  match document with
  | .object members => (members.lookup name).getD .null
  | _ => .null

/-- A text, empty for anything else. -/
def text (document : Json) : String := document.text?.getD ""

def str? (document : Json) (name : String) : Option String := (document.get name).text?

def str (document : Json) (name : String) : String := (document.get name).text

/-- The items of an array, none for anything else. -/
def itemList : Json → List Json
  | .array items => items
  | _ => []

def list (document : Json) (name : String) : List Json := (document.get name).itemList

def texts (document : Json) (name : String) : List String := (document.list name).map text

/-- The members of an object, none for anything else. -/
def memberList : Json → List (String × Json)
  | .object members => members
  | _ => []

def bool? : Json → Option Bool
  | .bool b => some b
  | _ => none

def flag (document : Json) (name : String) (missing : Bool) : Bool :=
  (document.get name).bool?.getD missing

/-- A natural number, zero for anything else. -/
def nat : Json → Nat
  | .number (.integer i _) => i.toNat
  | _ => 0

end Provision.Json
