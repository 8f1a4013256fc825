import Provision.Input.Serialization
import Provision.Output.Graph
import Provision.Settings
import Provision.Urn

/-!
# Resources and their options

What a resource is, and what a program may say when it registers one. A transformation sees the
arguments and options of a resource before it is registered and may replace both.
-/

namespace Provision

inductive ResourceKind where
  /-- Managed by a provider. -/
  | custom
  /-- The configuration of a provider. -/
  | provider
  /-- A group of other resources. -/
  | component
  /-- A component that the engine puts together. -/
  | remoteComponent
  /-- Known by its URN only; it stands for a resource that others depend on. -/
  | dependency
  deriving DecidableEq, Repr

namespace ResourceKind

def name : ResourceKind → String
  | .custom => "Custom"
  | .provider => "Provider"
  | .component => "Component"
  | .remoteComponent => "RemoteComponent"
  | .dependency => "Dependency"

/-- Whether the engine manages a resource of the kind through a provider; only these have ids. -/
def isCustomLike : ResourceKind → Bool
  | .custom | .provider | .dependency => true
  | _ => false

def isComponent : ResourceKind → Bool
  | .component | .remoteComponent => true
  | _ => false

end ResourceKind

inductive TextOutput where
  | settled (result : Settled String)
  | source (origin : Source)

namespace TextOutput

def create (text : String) : TextOutput := .settled (.ok (.known text))

def textOf : HostValue → String
  | .string s => s
  | _ => ""

def peek (graph : Graph HostValue) : TextOutput → Option (Settled String)
  | .settled r => some r
  | .source origin => (graph.peek origin).map fun r => r.map (Data.map textOf)

end TextOutput

/-- What becomes of the value of an output that may not be settled. -/
def awaitValue {α : Type} : Option (Settled α) → Await (Option α)
  | none => .pending
  | some (.error cause) => .failed cause
  | some (.ok data) => .done data.value

/-- The parent that an alias names. -/
inductive AliasParent where
  /-- The resource's own parent. -/
  | inherit
  | none
  | resource (key : Key)
  | urn (urn : String)
  deriving DecidableEq, Repr

/-- What differs between an earlier identity of a resource and the present one. -/
structure AliasSpec where
  name : Option String := none
  type : Option String := none
  stack : Option String := none
  project : Option String := none
  parent : AliasParent := .inherit
  deriving DecidableEq, Repr

/-- An earlier identity of a resource. -/
inductive Alias where
  | urn (urn : String)
  | spec (spec : AliasSpec)
  deriving DecidableEq, Repr

namespace Alias

/-- The URN that an alias stands for. `urnOf` is the present state of a resource's URN; the
answer is missing while the parent's URN is. -/
def collapse (settings : Settings) (urnOf : Key → Option (Settled String)) (name type : String)
    (parent : Option Key) : Alias → Option (Settled String)
  | .urn literal => some (.ok (.known literal))
  | .spec changes =>
    let create (parentUrn : Option String) : String :=
      Urn.create (changes.name.getD name) (changes.type.getD type) parentUrn
        (changes.project.getD settings.project) (changes.stack.getD settings.stack)
    let under (key : Key) : Option (Settled String) :=
      (urnOf key).map fun r => r.map (Data.map fun parentUrn => create (some parentUrn))
    let free : Option (Settled String) := some (.ok (.known (create none)))
    match changes.parent with
    | .inherit =>
      match parent with
      | some key => under key
      | none => free
    | .none => free
    | .resource key => under key
    | .urn parentUrn => some (.ok (.known (create (some parentUrn))))

end Alias

abbrev Argument := Input Source

abbrev Arguments := Fields Argument

/-- The options of a registration. What is not set is inherited where inheritance applies. -/
structure Options where
  parent : Option Key := none
  dependsOn : List Key := []
  protect : Option Bool := none
  ignoreChanges : List String := []
  version : Option String := none
  pluginDownloadUrl : Option String := none
  provider : Option Key := none
  /-- Providers, each for its own package. -/
  providers : List Key := []
  aliases : List Alias := []
  /-- Read the resource with this id instead of registering one. -/
  id : Option TextOutput := none
  /-- Look the resource up by URN instead of registering one. -/
  urn : Option String := none
  importId : Option String := none
  deleteBeforeReplace : Bool := false
  retainOnDelete : Option Bool := none
  additionalSecretOutputs : List String := []
  packageRef : Option String := none

/-- What a transformation sees of a resource. -/
structure TransformationInput where
  type : String
  name : String
  kind : ResourceKind
  args : Arguments
  options : Options

/-- What a transformation puts in place. -/
structure TransformationResult where
  args : Arguments
  options : Options

/-- A function on arguments and options, with a label for reports. `none` changes nothing. -/
structure Transformation where
  label : String
  run : TransformationInput → Option TransformationResult

structure CallOptions where
  parent : Option Key := none
  provider : Option Key := none
  version : Option String := none
  pluginDownloadUrl : Option String := none
  packageRef : Option String := none

end Provision
