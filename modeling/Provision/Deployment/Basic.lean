import Provision.Engine.Basic
import Provision.Host.Conversion
import Provision.Resource.Arena

/-!
# Deployments

The state of a deployment: its resources, its outputs, and the work under way. A registration
or call is made in two halves. The first constructs what the program needs at once; the second
is a task, which waits for what its request is built from, asks the engine, and completes the
slots of the outputs.
-/

namespace Provision

/-- A property that a program expects of a resource, with the slot of its output. -/
structure DeclaredOutput where
  name : String
  slot : Nat
  schema : Schema

/-- The output of a declared property; a property that was not declared has none. -/
def DeclaredOutput.sourceOf (declared : List DeclaredOutput) (name : String) : Option Source :=
  (declared.find? fun o => o.name == name).map fun o => .slot o.slot

/-- The second half of a registration. -/
structure Registration where
  key : Key
  type : String
  name : String
  kind : ResourceKind
  parent : Option Key
  args : Arguments
  /-- With the version and the download URL that are in force. -/
  options : Options
  provider : Option Key
  /-- The providers given to a component, by package. -/
  explicitProviders : Fields Key
  protect : Option Bool
  urnSlot : Nat
  idSlot : Option Nat
  outputs : List DeclaredOutput

/-- The second half of a call. -/
structure Call where
  token : String
  args : Arguments
  provider : Option Key
  options : CallOptions
  schema : Schema
  slot : Nat

inductive Job where
  | registration (job : Registration)
  | call (job : Call)

inductive Progress where
  /-- Not finished; it may have to wait. -/
  | underWay
  /-- Caught in a conversion without an end. -/
  | endless
  | finished (outcome : Except Failure Unit)

def Progress.outcome? : Progress → Option (Except Failure Unit)
  | .finished outcome => some outcome
  | _ => none

structure Task where
  job : Job
  progress : Progress
  /-- A registration whose outcome nobody has asked for yet. -/
  tracked : Bool

structure Deployment where
  settings : Settings := {}
  arena : Arena := .empty
  graph : Graph HostValue := .empty
  /-- The engine's answers about features. -/
  features : Fields Bool := []
  /-- The root stack, once there is one. -/
  root : Option Key := none
  tasks : List Task := []
  warnings : List String := []

structure World (σ : Type) where
  deployment : Deployment
  engine : σ

namespace Deployment

def warn (messages : List String) (d : Deployment) : Deployment :=
  { d with warnings := d.warnings ++ messages }

/-- The present state of a resource's URN. -/
def urnOf (d : Deployment) (key : Key) : Option (Settled String) := do
  let identity ← d.arena.identity? key
  identity.urn.peek d.graph

/-- The URN of a resource, once it is settled; missing while it is not known. -/
def awaitUrn (d : Deployment) (key : Key) : Await (Option String) := awaitValue (d.urnOf key)

def awaitId (d : Deployment) (key : Key) : Option (Await (Option String)) := do
  let identity ← d.arena.identity? key
  let id ← identity.id
  some (awaitValue (id.peek d.graph))

def view (d : Deployment) (key : Key) : ResourceView :=
  match d.arena.identity? key with
  | none => ⟨.pending, none, none⟩
  | some identity =>
    ⟨d.awaitUrn key, if identity.kind.isCustomLike then d.awaitId key else none,
      identity.packageVersion⟩

/-- A deferred output, serialized once it is settled. -/
def awaitSource (d : Deployment) (features : EngineFeatures) (context : String) (source : Source) :
    Await Serialized :=
  match d.graph.peek source with
  | none => .pending
  | some r => Input.serializeSettled d.view features context (Input.ofHostSettled r)

def serialize (d : Deployment) (features : EngineFeatures) (context : String) (args : Arguments) :
    Await SerializedProperties :=
  Input.serializeProperties d.view features (d.awaitSource features) context args

/-- The results of a list of outputs, awaited in its order. -/
def awaitAll {α β : Type} (await : α → Await β) : List α → Await (List β)
  | [] => .done []
  | a :: rest => (await a).andThen fun b => (awaitAll await rest).andThen fun bs => .done (b :: bs)

/-- The URNs of all that depending on `roots` means, in their order. -/
def dependencyUrns (d : Deployment) (roots : List Key) (exclude : Option Key) :
    Await (List String) :=
  (awaitAll d.awaitUrn (d.arena.transitiveDependencies roots exclude)).andThen fun urns =>
    .done (Ascending.ofList (urns.filterMap id))

/-- The URNs that each property depends on; a property without any is left out. -/
def dependencyTable (d : Deployment) (exclude : Option Key) (properties : Fields (List Key)) :
    Await DependencyTable :=
  (awaitAll (fun p : String × List Key =>
      (d.dependencyUrns p.2 exclude).andThen fun urns => .done (p.1, urns)) properties).andThen
    fun table => .done (table.filter fun p => !p.2.isEmpty)

/-- A provider in a request: its URN and id. An id that is not known is marked as such. -/
def providerReference (d : Deployment) (key : Key) : Await String :=
  (d.awaitUrn key).andThen fun urn =>
    ((d.awaitId key).getD (.done none)).andThen fun id =>
      .done (urn.getD "" ++ "::" ++ (id.filter (· ≠ "")).getD Signature.unknown)

def optionalProviderReference (d : Deployment) : Option Key → Await String
  | none => .done ""
  | some key => d.providerReference key

/-- Insert a resource that stands for one with the given URN. -/
def insertDependency (d : Deployment) (urn : String) (id : Option String)
    (packageVersion : Option String) : Key × Deployment :=
  let (type, name) := (Urn.parse? urn).getD ("", "")
  let (key, arena) := d.arena.insert {} fun key =>
    { type, name, kind := .dependency
      urn := .settled (.ok ⟨some urn, false, [key]⟩)
      id := id.map fun id => .settled (.ok ⟨if id = "" then none else some id, false, [key]⟩)
      packageVersion }
  (key, { d with arena := arena.recordUrn key urn })

def dependencyResource (urn : String) (d : Deployment) : Key × Deployment :=
  d.insertDependency urn none none

/-- The resource that a reference means: one of the program's own under the URN, or one made from
a reference that also has an id or also has none, and else a new one. -/
def referenceResource (reference : Reference) (d : Deployment) : Key × Deployment :=
  let usable (key : Key) : Bool :=
    match d.arena.identity? key with
    | some found => found.kind != .dependency || found.id.isSome == reference.id.isSome
    | none => false
  match (d.arena.findByUrn reference.urn).filter usable with
  | some key => (key, d)
  | none => d.insertDependency reference.urn reference.id reference.packageVersion

/-- The resource registered under a URN, or one that stands for it. -/
def resourceForUrn (urn : String) (d : Deployment) : Key × Deployment :=
  match d.arena.findByUrn urn with
  | some key => (key, d)
  | none => d.dependencyResource urn

def resourcesForUrns : List String → Deployment → List Key × Deployment
  | [], d => ([], d)
  | urn :: rest, d =>
    let (key, d) := d.resourceForUrn urn
    let (keys, d) := resourcesForUrns rest d
    (key :: keys, d)

def convert (schema : Schema) (context : String) (dependencies : List Key) (value : Value)
    (d : Deployment) : Except Failure (Option Converted) × Deployment :=
  HostType.convertValue schema context dependencies referenceResource value d

def complete (slot : Nat) (outcome : Settled HostValue) (d : Deployment) :
    Except Failure Unit × Deployment :=
  let (result, graph) := d.graph.complete slot outcome
  (result, { d with graph := graph })

def addSlot (name : String) (d : Deployment) : Nat × Deployment :=
  let (slot, graph) := d.graph.addSlot name
  (slot, { d with graph := graph })

def define (output : Output HostValue) (d : Deployment) : Source × Deployment :=
  let (source, graph) := d.graph.define output
  (source, { d with graph := graph })

def declare (declared : List DeclaredOutput) (name : String) (schema : Schema) (d : Deployment) :
    Except Failure (List DeclaredOutput) × Deployment :=
  match Shape.validate schema.records.shapes schema.type.shape name with
  | .error cause => (.error cause, d)
  | .ok () =>
    if declared.any (fun o => o.name == name) then
      (.error (.invalidArgument name "output declared twice"), d)
    else
      let (slot, d) := d.addSlot name
      (.ok (declared ++ [⟨name, slot, schema⟩]), d)

def giveUp (declared : List DeclaredOutput) (d : Deployment) : Deployment :=
  { d with graph := declared.foldl (fun graph o => graph.drop o.slot) d.graph }

end Deployment

namespace World

variable {σ : Type}

/-- Whether the engine supports a feature; it is asked once. -/
def supportsFeature (engine : Engine σ) (id : String) (w : World σ) :
    Except Failure Bool × World σ :=
  match w.deployment.features.lookup id with
  | some supported => (.ok supported, w)
  | none =>
    match engine.supportsFeature ⟨id⟩ w.engine with
    | (.error cause, s) => (.error cause, { w with engine := s })
    | (.ok response, s) =>
      (.ok response.hasSupport,
        ⟨{ w.deployment with
            features := Fields.set id response.hasSupport w.deployment.features }, s⟩)

/-- What the engine understands of the values in a request. -/
def engineFeatures (engine : Engine σ) (w : World σ) : Except Failure EngineFeatures × World σ :=
  match w.supportsFeature engine Feature.secrets with
  | (.error cause, w) => (.error cause, w)
  | (.ok secrets, w) =>
    match w.supportsFeature engine Feature.resourceReferences with
    | (.error cause, w) => (.error cause, w)
    | (.ok resources, w) => (.ok { resources, secrets }, w)

end World

end Provision
