import Provision.Ascending
import Provision.Number.Basic

/-!
# Engine values

The values that a program and its engine exchange. Besides plain data there are three special
kinds: a value the engine does not know yet, a secret, and a reference to a resource. Files
have no kind of their own; they are objects that carry a signature.
-/

namespace Provision

/-- A resource as it is named in a value. The id is present for a resource that has one, and
empty while it is not known. -/
structure Reference where
  urn : String
  id : Option String
  packageVersion : Option String
  deriving DecidableEq, Repr

inductive Value where
  | null
  | bool (value : Bool)
  | number (value : Number)
  | string (value : String)
  | array (items : List Value)
  | object (fields : List (String × Value))
  /-- Not known yet. -/
  | unknown
  | secret (content : Value)
  | reference (target : Reference)
  deriving Repr

namespace Value

instance : Inhabited Value := ⟨.null⟩

def text? : Value → Option String
  | .string s => some s
  | _ => none

def isNull : Value → Bool
  | .null => true
  | _ => false

/-- The object with the given fields, less those that are null. -/
def dropNulls (fields : Fields Value) : Fields Value := fields.filter (fun p => !p.2.isNull)

mutual

/-- In every object the keys ascend strictly. -/
def Ordered : Value → Prop
  | .array items => OrderedItems items
  | .object fields => Fields.Ordered fields ∧ OrderedFields fields
  | .secret content => Ordered content
  | _ => True

def OrderedItems : List Value → Prop
  | [] => True
  | item :: rest => Ordered item ∧ OrderedItems rest

def OrderedFields : List (String × Value) → Prop
  | [] => True
  | (_, value) :: rest => Ordered value ∧ OrderedFields rest

end

mutual

/-- Is there a secret anywhere in the value? -/
def hasSecret : Value → Bool
  | .array items => hasSecretItems items
  | .object fields => hasSecretFields fields
  | .secret _ => true
  | _ => false

def hasSecretItems : List Value → Bool
  | [] => false
  | item :: rest => hasSecret item || hasSecretItems rest

def hasSecretFields : List (String × Value) → Bool
  | [] => false
  | (_, value) :: rest => hasSecret value || hasSecretFields rest

end

end Value

/-! ### The keys and texts that mark special objects -/

namespace Signature

def key : String := "4dabf18193072939515e22adb298388d"

/-- The text that stands for a value not known yet. -/
def unknown : String := "04da6b54-80e4-46f7-96ec-b56ff0331ba9"

def secret : String := "1b47061264138c4ac30d75fd1eb44270"

def resource : String := "5cf8f73096256a8f31e491e813e4eb8e"

def asset : String := "c44067f5952c0a294b673a41bacd8c17"

def archive : String := "0def7320c3a5731c473e5ecbe6d01bc7"

end Signature

end Provision
