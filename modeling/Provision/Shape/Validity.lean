import Provision.Shape.Basic

/-!
# Valid shapes

A shape is checked once, before any value is converted to it. Every record reachable from it is
visited, each name once, so the walk ends although records may refer to themselves: every
record that is entered leaves one name fewer to visit.
-/

namespace Provision.Shape

def invalid (shape : Shape) (context reason : String) : Failure :=
  .invalidShape context shape.typeName reason

/-- Check a shape, given how to enter a record. The state is the list of the names visited. -/
def checkWith (enter : String → List String → String → Except Failure (List String)) :
    Shape → String → List String → Except Failure (List String)
  | .optional inner, context, seen =>
    match inner with
    | .optional _ =>
      .error ((optional inner).invalid context "nested optionals are ambiguous")
    | _ => checkWith enter inner context seen
  | .union first second, context, seen =>
    match checkWith enter first context seen with
    | .ok seen => checkWith enter second context seen
    | .error e => .error e
  | .array element, context, seen => checkWith enter element context seen
  | .map key value, context, seen =>
    if key = .string then checkWith enter value context seen
    else
      .error ((map key value).invalid context ("map keys must be strings, not " ++ key.typeName))
  | .output inner, context, seen =>
    match inner with
    | .output _ => .error ((output inner).invalid context "outputs cannot be nested directly")
    | _ => checkWith enter inner context seen
  | .record name, context, seen => enter name seen context
  | .unsupported name, context, _ =>
    .error ((unsupported name).invalid context (name ++ " is not a marshalable type"))
  | _, _, seen => .ok seen

/-- Check parameters in their order: first that the property has not been read by one before,
then the shape. -/
def checkParameters (check : Shape → String → List String → Except Failure (List String))
    (record context : String) :
    List Parameter → (wireNames seen : List String) → Except Failure (List String)
  | [], _, seen => .ok seen
  | p :: rest, wireNames, seen =>
    if p.wireName ∈ wireNames then
      .error ((Shape.record record).invalid context
        ("constructor parameter '" ++ p.wireName ++ "' is declared twice"))
    else
      match check p.shape (parameterContext record p.name) seen with
      | .ok seen => checkParameters check record context rest (p.wireName :: wireNames) seen
      | .error e => .error e

/-- Enter a record that has not been visited. -/
def checkRecord (records : Records) :
    Nat → String → List String → String → Except Failure (List String)
  | 0, _, seen, _ => .ok seen
  | depth + 1, name, seen, context =>
    if name ∈ seen then .ok seen
    else
      checkParameters (checkWith (checkRecord records depth)) name context
        (records.parameters name) [] (name :: seen)

/-- Whether values can be converted to the shape at all. A chain of records, each entered from
the one before, cannot be longer than the table, but for one name without a definition. -/
def validate (records : Records) (shape : Shape) (context : String) : Except Failure Unit :=
  (checkWith (checkRecord records (records.length + 1)) shape context []).map fun _ => ()

end Provision.Shape
