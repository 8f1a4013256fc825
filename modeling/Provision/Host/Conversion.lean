import Provision.Host.OfPlain
import Provision.Plain.OfValue
import Provision.Shape.Conversion
import Provision.Shape.Validity

/-!
# Converting engine values to values of a program

The type's shape is validated first, and an invalid one is the only failure. Then the value is
lifted to a plain tree, converted to the shape, and built up to a value of the type. A value
with an unknown part is unknown as a whole and not converted at all; one from which nothing
usable can be built is unknown too, with a warning. The result is secret if any part was.
-/

namespace Provision

/-- What became of a value: its data, and the warnings on the way. -/
structure Converted where
  data : Data HostValue
  warnings : List String

namespace HostType

/-- The value that a plain tree becomes, missing where nothing usable can be built from it. -/
def convertPlain (schema : Schema) (context : String) (value : Plain) :
    Reporting (Option HostValue) :=
  (Shape.convert schema.records.shapes schema.type.shape context value).andThen fun tree =>
    match ofPlain schema tree with
    | .ok value => .ok (some value)
    | .error reason => .warn (reason ++ " deserializing " ++ context) none

/-- Convert a lifted value. `none` is a conversion without an end. -/
def convertLifted (schema : Schema) (context : String) (dependencies : List Key)
    (lifted : Lifted Plain) : Option Converted :=
  if lifted.isKnown then
    match convertPlain schema context lifted.content with
    | none => none
    | some (value, warnings) => some ⟨⟨value, lifted.isSecret, dependencies⟩, warnings⟩
  else some ⟨⟨none, lifted.isSecret, dependencies⟩, []⟩

/-- Convert an engine value to a type. The state, in which references are resolved, is left as it
is if the shape is invalid. -/
def convertValue {σ : Type} (schema : Schema) (context : String) (dependencies : List Key)
    (resolve : Plain.Resolver σ) (value : Value) (state : σ) :
    Except Failure (Option Converted) × σ :=
  match Shape.validate schema.records.shapes schema.type.shape context with
  | .error cause => (.error cause, state)
  | .ok () =>
    let (lifted, state) := Plain.ofValue resolve value state
    (.ok (convertLifted schema context dependencies lifted), state)

end HostType

end Provision
