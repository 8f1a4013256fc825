import Provision.Shape.Basic

/-!
# Converting plain trees to shapes

A tree that does not match the shape is replaced by the shape's zero, with one warning that
says where and why; the values around it are converted on. A union takes the first of its
shapes that the tree can be converted to. A record takes every parameter from the property of
its wire name, which can be taken once, and a missing one from null; null itself counts as a record
without properties.

A record without properties that has a parameter of its own type has no end, so a conversion
may be given up at a depth; its answer is then that there is none.
-/

namespace Provision

/-- A computation that reports warnings on its way, and may have no end. -/
def Reporting (α : Type) : Type := Option (α × List String)

namespace Reporting

variable {α β : Type}

def ok (a : α) : Reporting α := some (a, [])

def endless : Reporting α := none

def warn (message : String) (a : α) : Reporting α := some (a, [message])

/-- One computation after the other; the warnings follow each other. -/
def andThen (x : Reporting α) (f : α → Reporting β) : Reporting β :=
  match x with
  | none => none
  | some (a, warnings) =>
    match f a with
    | none => none
    | some (b, more) => some (b, warnings ++ more)

instance : Monad Reporting where
  pure := ok
  bind := andThen

end Reporting

/-- A conversion that may find a mismatch, whose text it gives. -/
abbrev Attempt (α : Type) := Reporting (Except String α)

namespace Shape

def expected (shape : Shape) (value : Plain) (context : String) : String :=
  "Expected " ++ shape.typeName ++ " but got " ++ value.kind ++ " deserializing " ++ context

def expectedEnum (name : String) (backing : Backing) (value : Plain) (context : String) : String :=
  "Expected " ++ name ++ " backed by a " ++
    (match backing with
      | .string => "string"
      | .number => "number") ++
    " but got " ++ value.kind ++ " deserializing " ++ context

def expectedUnion (first second : Shape) (value : Plain) (context : String) : String :=
  "Expected " ++ first.typeName ++ " or " ++ second.typeName ++ " but got " ++ value.kind ++
    " deserializing " ++ context

mutual

/-- Whether a tree is a JSON document; the error is the text for the first part that is none. -/
def checkJson (context : String) : Plain → Except String Unit
  | .array items => checkJsonItems context items
  | .object fields => checkJsonFields context fields
  | .file content => .error (unexpected (.file content))
  | .resource key => .error (unexpected (.resource key))
  | .union side value => .error (unexpected (.union side value))
  | _ => .ok ()
where
  unexpected (value : Plain) : String :=
    "Unexpected " ++ value.kind ++ " when converting " ++ context ++ " to JSON"

def checkJsonItems (context : String) : List Plain → Except String Unit
  | [] => .ok ()
  | item :: rest =>
    match checkJson context item with
    | .ok () => checkJsonItems context rest
    | .error e => .error e

def checkJsonFields (context : String) : List (String × Plain) → Except String Unit
  | [] => .ok ()
  | (_, value) :: rest =>
    match checkJson context value with
    | .ok () => checkJsonFields context rest
    | .error e => .error e

end

/-- The result of an attempt, or the shape's zero and a warning. -/
def orZero (shape : Shape) (attempt : Attempt Plain) : Reporting Plain :=
  attempt.andThen fun
    | .ok value => .ok value
    | .error message => .warn message shape.zero

def convertItems (convert : Plain → Reporting Plain) : List Plain → Reporting (List Plain)
  | [] => .ok []
  | item :: rest =>
    (convert item).andThen fun item =>
      (convertItems convert rest).andThen fun rest => .ok (item :: rest)

/-- Fields converted one after the other, under the same keys. -/
def convertFields (convert : Plain → Reporting Plain) :
    List (String × Plain) → Reporting (List (String × Plain))
  | [] => .ok []
  | (key, value) :: rest =>
    (convert value).andThen fun value =>
      (convertFields convert rest).andThen fun rest => .ok ((key, value) :: rest)

/-- Keep the value if `accepts` holds, else report what was expected. -/
def keepIf (accepts : Bool) (shape : Shape) (context : String) (value : Plain) : Attempt Plain :=
  .ok (if accepts then .ok value else .error (expected shape value context))

/-- Convert a tree, given how to fill the parameters of a record. -/
def tryConvert (fill : String → List (String × Plain) → Reporting (List (String × Plain))) :
    Shape → String → Plain → Attempt Plain
  | .record name, context, value =>
    match value with
    | .null => (fill name []).andThen fun fields => .ok (.ok (.object fields))
    | .object fields => (fill name fields).andThen fun fields => .ok (.ok (.object fields))
    | value => .ok (.error (expected (.record name) value context))
  | shape, _, .null => .ok (.ok shape.zero)
  | .optional inner, context, value => tryConvert fill inner context value
  | .output inner, context, value => tryConvert fill inner context value
  | .bool, context, value => keepIf (value matches .bool _) .bool context value
  | .int, context, value =>
    match value with
    | .number x => .ok (.ok (.number x.trunc))
    | value => .ok (.error (expected .int value context))
  | .number, context, value => keepIf (value matches .number _) .number context value
  | .string, context, value => keepIf (value matches .string _) .string context value
  | .any, _, value => .ok (.ok value)
  | .json, context, value => .ok ((checkJson context value).map fun _ => value)
  | .asset, _, value =>
    .ok (.ok (match value with
      | .file (.asset content) => .file (.asset content)
      | _ => .file (.asset .invalid)))
  | .archive, _, value =>
    .ok (.ok (match value with
      | .file (.asset _) => .file .archiveInvalid
      | .file content => .file content
      | _ => .file .archiveInvalid))
  | .file, _, value =>
    .ok (.ok (match value with
      | .file content => .file content
      | _ => .file (.asset .invalid)))
  | .resource, context, value => keepIf (value matches .resource _) .resource context value
  | .enum name backing, context, value =>
    .ok (match backing, value with
      | .string, .string s => .ok (.string s)
      | .number, .number x => .ok (.number x)
      | backing, value => .error (expectedEnum name backing value context))
  | .union first second, context, value =>
    (tryConvert fill first (context ++ ".AsT0") value).andThen fun
      | .ok converted => .ok (.ok (.union .first converted))
      | .error _ =>
        (tryConvert fill second (context ++ ".AsT1") value).andThen fun
          | .ok converted => .ok (.ok (.union .second converted))
          | .error _ => .ok (.error (expectedUnion first second value context))
  | .array element, context, value =>
    match value with
    | .array items =>
      (convertItems (fun item => orZero element (tryConvert fill element context item)) items).andThen
        fun items => .ok (.ok (.array items))
    | value => .ok (.error (expected (.array element) value context))
  | .map key element, context, value =>
    match value with
    | .object fields =>
      (convertFields (fun v => orZero element (tryConvert fill element context v)) fields).andThen
        fun fields => .ok (.ok (.object fields))
    | value => .ok (.error (expected (.map key element) value context))
  | .unsupported name, context, _ =>
    .ok (.error ("Unexpected target type " ++ name ++ " when deserializing " ++ context))

/-- Parameters with what they are made from: the property of the wire name, which is not there any
more for the parameters after it, or null. -/
def takeProperties : List Parameter → List (String × Plain) → List (Parameter × Plain)
  | [], _ => []
  | p :: rest, properties =>
    (p, (properties.lookup p.wireName).getD .null) ::
      takeProperties rest (Fields.erase p.wireName properties)

def fillParameters (convert : Shape → String → Plain → Reporting Plain) (record : String) :
    List (Parameter × Plain) → List (String × Plain) → Reporting (List (String × Plain))
  | [], filled => .ok filled
  | (p, value) :: rest, filled =>
    (convert p.shape (parameterContext record p.name) value).andThen fun value =>
      fillParameters convert record rest (Fields.set p.name value filled)

/-- Fill the parameters of a record, entering at most `depth` records one inside another. -/
def fillRecord (records : Records) :
    Nat → String → List (String × Plain) → Reporting (List (String × Plain))
  | 0, _, _ => .endless
  | depth + 1, name, properties =>
    fillParameters
      (fun shape context value =>
        orZero shape (tryConvert (fillRecord records depth) shape context value))
      name (takeProperties (records.parameters name) properties) []

/-- Convert a tree to a shape, entering at most `depth` records one inside another. -/
def convertWithin (records : Records) (depth : Nat) (shape : Shape) (context : String)
    (value : Plain) : Reporting Plain :=
  orZero shape (tryConvert (fillRecord records depth) shape context value)

/-- A depth that every conversion with an end stays within: each record is entered from a level
of the tree, or from null through records that are all different. -/
def sufficientDepth (records : Records) (value : Plain) : Nat :=
  value.depth + records.length + 2

def convert (records : Records) (shape : Shape) (context : String) (value : Plain) :
    Reporting Plain :=
  convertWithin records (sufficientDepth records value) shape context value

end Shape

end Provision
