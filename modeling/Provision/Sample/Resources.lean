import Provision.Deployment.Run
import Provision.Sample.Behaviour

/-!
# Resources of the sample package

What a program writes to use the package: a provider, a widget with its method `describe`, and a
network, which is a component that groups widgets and registers the list of their endpoints.
-/

namespace Provision

namespace Sample

open Deployment

def outputOf (declared : List DeclaredOutput) (name : String) : Source :=
  (DeclaredOutput.sourceOf declared name).getD (.slot 0)

/-- What a program says about a resource beside its arguments. -/
structure Placement where
  options : Options := {}
  transformations : List Transformation := []

/-! ### The provider -/

structure ProviderResource where
  resource : Key
  region : Source

def registerProvider (name : String) (region : Option String) (placement : Placement)
    (d : Deployment) : Registering ProviderResource × Deployment :=
  let args : Arguments := match region with
    | some region => [("region", .string region)]
    | none => []
  let spec : ResourceSpec :=
    { kind := .provider, type := "", name, args, options := placement.options
      transformations := placement.transformations }
  let (r, d) := d.registerWith (Deployment.registerProvider package) spec
    [("region", schema (.option .string))]
  (⟨r.outcome.map fun (key, declared) => ⟨key, outputOf declared "region"⟩, r.runs⟩, d)

/-! ### Widgets -/

/-- The inputs of a widget. What is not set is not sent. -/
structure WidgetArgs where
  size : Option Argument := none
  tier : Option Tier := none
  labels : Fields String := []
  code : Option Asset := none

def WidgetArgs.toArguments (args : WidgetArgs) : Arguments :=
  (args.code.map fun code => ("code", Input.file (.asset code))).toList ++
  (if args.labels.isEmpty then []
    else [("labels", Input.object (args.labels.map fun l => (l.1, .string l.2)))]) ++
  (args.size.map fun size => ("size", size)).toList ++
  (args.tier.map fun tier => ("tier", Input.string tier.text)).toList

structure Widget where
  resource : Key
  size : Source
  tier : Source
  endpoint : Source
  status : Source

def Widget.outputs (w : Widget) : List (String × Source) :=
  [("size", w.size), ("tier", w.tier), ("endpoint", w.endpoint), ("status", w.status)]

def registerWidget (name : String) (args : WidgetArgs) (placement : Placement) (d : Deployment) :
    Registering Widget × Deployment :=
  let spec : ResourceSpec :=
    { kind := .custom, type := widgetType, name, args := args.toArguments
      options := placement.options, transformations := placement.transformations }
  let (r, d) := d.registerWith Deployment.register spec
    [("size", schema .int), ("tier", schema (.option tierType)),
      ("endpoint", schema .string), ("status", schema statusType)]
  (⟨r.outcome.map fun (key, declared) =>
      ⟨key, outputOf declared "size", outputOf declared "tier", outputOf declared "endpoint",
        outputOf declared "status"⟩, r.runs⟩, d)

/-- Adopt a widget that exists, by its id. -/
def adoptWidget (name : String) (id : TextOutput) (placement : Placement) (d : Deployment) :
    Registering Widget × Deployment :=
  let options := { placement.options with id := some id }
  registerWidget name {} { placement with options := options } d

def fieldOf (name : String) : HostValue → HostValue
  | .record fields => ((fields.find? fun f => f.1 == name).map fun f => f.2.2).getD .absent
  | _ => .absent

def fieldOutput (name : String) (record : Source) (d : Deployment) : Source × Deployment :=
  d.define (.map (fieldOf name) (.source record))

/-- Call `describe` on a widget; the output is the one line. -/
def describeWidget (widget : Key) (d : Deployment) : Except Failure Source × Deployment :=
  match d.call { token := describeToken, self := some widget, schema := schema descriptionType } with
  | (.error cause, d) => (.error cause, d)
  | (.ok slot, d) =>
    let (source, d) := fieldOutput "description" (.slot slot) d
    (.ok source, d)

/-! ### Networks -/

structure Network where
  resource : Key
  widgets : List Widget
  /-- The list of the widgets' endpoints. -/
  endpoints : Source

def memberName (network : String) (index : Nat) : String := network ++ "-w" ++ toString index

/-- Register the widgets of a network, of sizes from `index + 1`. -/
def registerMembers (network : String) (parent : Key) (index : Nat) :
    Nat → Deployment → Registering (List Widget) × Deployment
  | 0, d => (⟨.ok [], []⟩, d)
  | count + 1, d =>
    let size : Argument := .known false [] (.number (.ofInt (index + 1)))
    let placement : Placement := { options := { parent := some parent } }
    let (first, d) := registerWidget (memberName network index) { size } placement d
    match first.outcome with
    | .error cause => (⟨.error cause, first.runs⟩, d)
    | .ok widget =>
      let (rest, d) := registerMembers network parent (index + 1) count d
      (⟨rest.outcome.map (widget :: ·), first.runs ++ rest.runs⟩, d)

/-- Define the list of the widgets' endpoints. -/
def combineEndpoints (widgets : List Widget) (d : Deployment) : Source × Deployment :=
  d.define (.combine .list (widgets.map fun w => .source w.endpoint))

/-- Register a network with its widgets, and then the outputs of the component. `none` is an
output that nothing will settle. -/
def registerNetwork {σ : Type} (engine : Engine σ) (name : String) (count : Nat)
    (placement : Placement) (w : World σ) :
    Option (Registering Network) × World σ :=
  let spec : ResourceSpec :=
    { kind := .component, type := networkType, name, options := placement.options
      transformations := placement.transformations }
  let (component, d) := w.deployment.register spec
  match component.outcome with
  | .error cause => (some ⟨.error cause, component.runs⟩, { w with deployment := d })
  | .ok key =>
    let (members, d) := registerMembers name key 0 count d
    let runs := component.runs ++ members.runs
    match members.outcome with
    | .error cause => (some ⟨.error cause, runs⟩, { w with deployment := d })
    | .ok widgets =>
      let (endpoints, d) := combineEndpoints widgets d
      match World.registerOutputs engine key [("endpoints", .deferred endpoints)]
          { w with deployment := d } with
      | (none, w) => (none, w)
      | (some (.error cause), w) => (some ⟨.error cause, runs⟩, w)
      | (some (.ok ()), w) => (some ⟨.ok ⟨key, widgets, endpoints⟩, runs⟩, w)

end Sample

end Provision
