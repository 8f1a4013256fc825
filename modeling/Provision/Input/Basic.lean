import Provision.Host.Basic

/-!
# Input trees

What a program hands to a registration or a call: a plain tree in which any part may be an
output. An output that is settled stands in the tree with its data; one that is not yet is
deferred, and named by a source. The type of the sources is a parameter: a tree over `Empty`
has settled outputs only.
-/

namespace Provision

inductive Input (δ : Type) where
  | null
  | bool (value : Bool)
  | number (value : Number)
  | string (value : String)
  | array (items : List (Input δ))
  | object (fields : List (String × Input δ))
  | file (content : File)
  | resource (key : Key)
  /-- An output that failed. -/
  | failed (cause : Failure)
  /-- An output whose value is not known. -/
  | unknown (secret : Bool) (dependencies : List Key)
  /-- An output with a value. -/
  | known (secret : Bool) (dependencies : List Key) (value : Input δ)
  /-- An output that is observed when the tree is sent. -/
  | deferred (source : δ)

namespace Input

instance {δ : Type} : Inhabited (Input δ) := ⟨.null⟩

def ofSettled {δ : Type} : Settled (Input δ) → Input δ
  | .error cause => .failed cause
  | .ok data =>
    match data.value with
    | some value => .known data.secret data.dependencies value
    | none => .unknown data.secret data.dependencies

mutual

/-- The tree of a plain tree; a union is what it holds. -/
def ofPlain {δ : Type} : Plain → Input δ
  | .null => .null
  | .bool b => .bool b
  | .number x => .number x
  | .string s => .string s
  | .array items => .array (itemsOfPlain items)
  | .object fields => .object (fieldsOfPlain fields)
  | .file content => .file content
  | .resource key => .resource key
  | .union _ value => ofPlain value

def itemsOfPlain {δ : Type} : List Plain → List (Input δ)
  | [] => []
  | item :: rest => ofPlain item :: itemsOfPlain rest

def fieldsOfPlain {δ : Type} : List (String × Plain) → List (String × Input δ)
  | [] => []
  | (key, value) :: rest => (key, ofPlain value) :: fieldsOfPlain rest

end

mutual

def ofJson {δ : Type} : Json → Input δ
  | .null => .null
  | .bool b => .bool b
  | .number n => .number n.toNumber
  | .string s => .string s
  | .array items => .array (itemsOfJson items)
  | .object members => .object (fieldsOfJson members)

def itemsOfJson {δ : Type} : List Json → List (Input δ)
  | [] => []
  | item :: rest => ofJson item :: itemsOfJson rest

def fieldsOfJson {δ : Type} : List (String × Json) → List (String × Input δ)
  | [] => []
  | (key, value) :: rest => (key, ofJson value) :: fieldsOfJson rest

end

mutual

/-- The tree of a value of the program. A record is written under its wire names, an enumeration
in its member's form, and what is absent as null. -/
def ofHost {δ : Type} : HostValue → Input δ
  | .bool b => .bool b
  | .int i => .number (.ofInt i)
  | .number x => .number x
  | .string s => .string s
  | .plain value => ofPlain value
  | .json document => ofJson document
  | .file content => .file content
  | .resource key => .resource key
  | .absent => .null
  | .present value => ofHost value
  | .list items => .array (itemsOfHost items)
  | .map fields => .object (fieldsOfHost fields)
  | .output data => ofData data
  | .union _ value => ofHost value
  | .enum _ (.text s) => .string s
  | .enum _ (.number x) => .number x
  | .record fields => .object (Fields.ofList (recordOfHost fields))

def itemsOfHost {δ : Type} : List HostValue → List (Input δ)
  | [] => []
  | item :: rest => ofHost item :: itemsOfHost rest

def fieldsOfHost {δ : Type} : List (String × HostValue) → List (String × Input δ)
  | [] => []
  | (key, value) :: rest => (key, ofHost value) :: fieldsOfHost rest

def recordOfHost {δ : Type} : List (String × String × HostValue) → List (String × Input δ)
  | [] => []
  | (_, wireName, value) :: rest => (wireName, ofHost value) :: recordOfHost rest

def ofData {δ : Type} : Data HostValue → Input δ
  | ⟨value, secret, dependencies⟩ => ofContent secret dependencies value

def ofContent {δ : Type} (secret : Bool) (dependencies : List Key) : Option HostValue → Input δ
  | some value => .known secret dependencies (ofHost value)
  | none => .unknown secret dependencies

end

def ofHostSettled {δ : Type} : Settled HostValue → Input δ
  | .error cause => .failed cause
  | .ok data => ofData data

end Input

end Provision
