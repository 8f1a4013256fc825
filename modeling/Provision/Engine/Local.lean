import Provision.Engine.Basic
import Provision.Engine.Inventory
import Provision.Settings
import Provision.Urn

/-!
# A local engine

An engine that keeps an inventory and has a provider compute the state of resources. URNs are
built from the request's type, name and parent, and no URN is registered twice. A custom
resource gets the id `{name}-{n}`, or none in a preview. A read by URN finds a stored resource; a
read by id finds one as well, or else adopts a resource with the given properties.
-/

namespace Provision

/-- Why a local engine refuses a request. -/
inductive EngineRefusal where
  | duplicateUrn (urn : String)
  | notFound (urn : String)
  | unknownMethod (token : String)
  | invalidRequest (reason : String)
  deriving DecidableEq, Repr

namespace EngineRefusal

def message : EngineRefusal → String
  | .duplicateUrn urn => "Resource " ++ urn ++ " is already registered"
  | .notFound urn => "Resource " ++ urn ++ " not found"
  | .unknownMethod token => "Unknown method " ++ token
  | .invalidRequest reason => "Invalid request: " ++ reason

def toFailure (operation : String) (refusal : EngineRefusal) : Failure :=
  .rpc operation refusal.message

end EngineRefusal

/-- The behaviour of resource types and methods. -/
structure Provider where
  /-- The state of a new resource, from its type, its name and its inputs. In a preview, what is
  known only after the creation stays unknown. -/
  create : String → String → Properties → (preview : Bool) → Except EngineRefusal Properties
  /-- The answer to a call, from its token, its arguments and the resource it is made on. -/
  call : String → Properties → Option StoredResource → Except EngineRefusal CallResponse

structure Local where
  inventory : Inventory := {}
  /-- The number in the next id, a word of 32 bits that counts round. -/
  nextId : UInt32 := 1

namespace Local

/-- The URN of a resource below a parent, whose URN is empty for none. -/
def urn (settings : Settings) (type name parent : String) : String :=
  Urn.create name type (if parent = "" then none else some parent) settings.project settings.stack

def store (resource : StoredResource) (engine : Local) : Local :=
  { engine with
    inventory :=
      { engine.inventory with
        resources := Fields.set resource.urn resource engine.inventory.resources } }

/-- The state of a resource that is registered. A component that the program puts together has
none; its outputs are registered later. -/
def outputsOf (settings : Settings) (provider : Provider) (r : RegisterRequest) :
    Except EngineRefusal Properties :=
  if r.custom || r.remote then provider.create r.type r.name r.object settings.dryRun
  else .ok []

/-- Register a resource under a URN that is free. -/
def register (settings : Settings) (provider : Provider) (r : RegisterRequest) (engine : Local) :
    Except EngineRefusal RegisterResponse × Local :=
  let urn := urn settings r.type r.name r.parent
  if engine.inventory.resources.has urn then (.error (.duplicateUrn urn), engine)
  else match outputsOf settings provider r with
    | .error refusal => (.error refusal, engine)
    | .ok outputs =>
      let numbered := r.custom && !settings.dryRun
      let id := if numbered then r.name ++ "-" ++ toString engine.nextId else ""
      let resource : StoredResource :=
        { urn, type := r.type, name := r.name, id, parent := r.parent, custom := r.custom
          provider := r.provider, dependencies := r.dependencies, outputs, external := false }
      let engine := engine.store resource
      (.ok { urn, id, object := outputs
             propertyDependencies := if r.remote then r.propertyDependencies else [] },
        { engine with nextId := if numbered then engine.nextId + 1 else engine.nextId })

def readAnswer (resource : StoredResource) : ReadResponse :=
  { urn := resource.urn, id := resource.id, properties := resource.outputs }

/-- Read a resource by URN, or else by id. -/
def read (settings : Settings) (r : ReadRequest) (engine : Local) :
    Except EngineRefusal ReadResponse × Local :=
  if r.urn ≠ "" then
    match engine.inventory.resources.lookup r.urn with
    | some resource => (.ok (readAnswer resource), engine)
    | none => (.error (.notFound r.urn), engine)
  else if r.id = "" then
    (.error (.invalidRequest ("read of " ++ r.name ++ " needs an id or a URN")), engine)
  else match engine.inventory.findById? r.type r.id with
    | some resource => (.ok (readAnswer resource), engine)
    | none =>
      let resource : StoredResource :=
        { urn := urn settings r.type r.name r.parent, type := r.type, name := r.name, id := r.id
          parent := r.parent, custom := true, provider := r.provider
          dependencies := r.dependencies, outputs := r.properties, external := true }
      (.ok (readAnswer resource), engine.store resource)

/-- The resource that a call is made on: the one that the argument `__self__` refers to, by a
reference or by its URN. -/
def target (args : Properties) (engine : Local) :
    Except EngineRefusal (Option StoredResource) :=
  let lookup (urn : String) : Except EngineRefusal (Option StoredResource) :=
    match engine.inventory.resources.lookup urn with
    | some resource => .ok (some resource)
    | none => .error (.notFound urn)
  match args.lookup "__self__" with
  | some (.reference r) => lookup r.urn
  | some (.string urn) => lookup urn
  | _ => .ok none

def call (provider : Provider) (r : CallRequest) (engine : Local) :
    Except EngineRefusal CallResponse :=
  match engine.target r.args with
  | .error refusal => .error refusal
  | .ok target => provider.call r.token r.args target

/-- Take the outputs of a resource that is registered, in place of earlier ones. -/
def registerOutputs (r : OutputsRequest) (engine : Local) : Except EngineRefusal Unit × Local :=
  if engine.inventory.resources.has r.urn then
    (.ok (),
      { engine with
        inventory :=
          { engine.inventory with
            componentOutputs := Fields.set r.urn r.outputs engine.inventory.componentOutputs } })
  else (.error (.notFound r.urn), engine)

/-- Give a package its reference; the first one under a name stays. -/
def registerPackage (r : PackageRequest) (engine : Local) : PackageResponse × Local :=
  match engine.inventory.packages.lookup r.name with
  | some reference => (⟨reference⟩, engine)
  | none =>
    let reference := r.name ++ "@" ++ r.version
    (⟨reference⟩,
      { engine with
        inventory :=
          { engine.inventory with
            packages := Fields.set r.name reference engine.inventory.packages } })

def features : List String :=
  [Feature.secrets, Feature.resourceReferences, Feature.outputValues]

def answered {α : Type} (operation : String) (answer : Except EngineRefusal α × Local) :
    Except Failure α × Local :=
  (answer.1.mapError (EngineRefusal.toFailure operation), answer.2)

def engine (settings : Settings) (provider : Provider) : Engine Local where
  supportsFeature r s := (.ok ⟨features.contains r.id⟩, s)
  register r s := answered Engine.Operation.register (register settings provider r s)
  read r s := answered Engine.Operation.read (read settings r s)
  call r s := answered Engine.Operation.call (call provider r s, s)
  registerOutputs r s := answered Engine.Operation.registerOutputs (registerOutputs r s)
  registerPackage r s :=
    let (response, s) := registerPackage r s
    (.ok response, s)

end Local

end Provision
