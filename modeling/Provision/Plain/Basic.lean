import Provision.File.Basic

/-!
# Plain trees

An engine value once it is known and its secrets are lifted out: plain data, in which files and
resources stand in their own right. A value converted to a union also tells which of the two
shapes it took.
-/

namespace Provision

/-- One of the two shapes of a union. -/
inductive Side where
  | first
  | second
  deriving DecidableEq, Repr

inductive Plain where
  | null
  | bool (value : Bool)
  | number (value : Number)
  | string (value : String)
  | array (items : List Plain)
  | object (fields : List (String × Plain))
  | file (content : File)
  /-- A resource of the deployment, by its key. -/
  | resource (key : Nat)
  | union (side : Side) (value : Plain)
  deriving Repr

namespace Plain

instance : Inhabited Plain := ⟨.null⟩

/-- What messages call the kind of a value. -/
def kind : Plain → String
  | .null => "null"
  | .bool _ => "bool"
  | .number _ => "number"
  | .string _ => "string"
  | .array _ => "array"
  | .object _ => "object"
  | .file content => if content.isAsset then "asset" else "archive"
  | .resource _ => "resource"
  | .union .. => "union"

mutual

def depth : Plain → Nat
  | .array items => depthItems items + 1
  | .object fields => depthFields fields + 1
  | .union _ value => depth value + 1
  | _ => 0

def depthItems : List Plain → Nat
  | [] => 0
  | item :: rest => max (depth item) (depthItems rest)

def depthFields : List (String × Plain) → Nat
  | [] => 0
  | (_, value) :: rest => max (depth value) (depthFields rest)

end

end Plain

end Provision
