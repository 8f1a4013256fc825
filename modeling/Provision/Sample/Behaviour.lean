import Provision.Engine.Local
import Provision.Number.Decimal
import Provision.Sample.Types

/-!
# How the engine treats the sample package

A new widget gets a size, an endpoint and a status; every other resource keeps its inputs. The
one method is `describe`, on widgets.
-/

namespace Provision

namespace Sample

def widgetType : String := "sample:index:Widget"

def describeToken : String := "sample:index:Widget/describe"

def networkType : String := "sample:index:Network"

def package : String := "sample"

/-- The content below all secrets. -/
def peel : Value → Value
  | .secret content => peel content
  | value => value

/-- A value that is present, below all secrets. -/
def peeled (name : String) (properties : Properties) : Option Value :=
  (properties.lookup name).map peel

/-- What is known of the size of a new widget. -/
inductive Size where
  | given (size : Number)
  | unknown
  /-- None was given, or something that is no number. -/
  | missing

def sizeOf (inputs : Properties) : Size :=
  match peeled "size" inputs with
  | some (.number size) => .given size
  | some .unknown => .unknown
  | _ => .missing

/-- The properties of a new widget whose size is settled. -/
def widgetState (name : String) (size : Value) (preview : Bool) (inputs : Properties) :
    Properties :=
  if preview then
    Fields.set "status" .unknown (Fields.set "endpoint" .unknown inputs)
  else
    Fields.set "status" (.object [("ready", .bool true), ("replicaCount", size)])
      (Fields.set "endpoint" (.string (name ++ ".sample.internal")) inputs)

def create (type name : String) (inputs : Properties) (preview : Bool) :
    Except EngineRefusal Properties :=
  if type = widgetType then
    match sizeOf inputs with
    | .given size =>
      if size.isBelowZero then
        .error (.invalidRequest
          ("widget " ++ name ++ " has negative size " ++ size.messageText))
      else .ok (widgetState name (.number size) preview inputs)
    | .unknown => .ok (widgetState name .unknown preview inputs)
    | .missing =>
      let one : Value := .number (.ofInt 1)
      .ok (widgetState name one preview (Fields.set "size" one inputs))
  else .ok inputs

/-- One line about a widget. -/
def describe (widget : StoredResource) : String :=
  let size := match peeled "size" widget.outputs with
    | some (.number size) => size.messageText
    | _ => "unknown"
  let tier := ((peeled "tier" widget.outputs).bind Value.text?).getD Tier.standard.text
  widget.name ++ " is a " ++ tier ++ " widget of size " ++ size

def call (token : String) (target : Option StoredResource) :
    Except EngineRefusal CallResponse :=
  if token = describeToken then
    match target.filter fun t => t.type == widgetType with
    | none =>
      .ok { failures := [⟨"__self__", "describe must be called on a widget"⟩] }
    | some widget =>
      .ok { returnValues := [("description", .string (describe widget))]
            returnDependencies := [("description", [widget.urn])] }
  else .error (.unknownMethod token)

def provider : Provider where
  create := create
  call token _ target := call token target

end Sample

end Provision
