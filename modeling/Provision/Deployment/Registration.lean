import Provision.Deployment.Basic

/-!
# Registering resources

The first half of a registration validates, runs the transformations, settles what the resource
inherits, and inserts it into the graph; it fails without a trace in the deployment. The second
half sends one request, to register or to read the resource, and completes every slot of the
resource, with data or with one and the same failure.
-/

namespace Provision

/-- What a program asks for when it registers a resource. -/
structure ResourceSpec where
  kind : ResourceKind
  type : String
  name : String
  args : Arguments := []
  options : Options := {}
  /-- The resource's own transformations. -/
  transformations : List Transformation := []
  outputs : List DeclaredOutput := []

/-- A transformation's label with what it was given. -/
abbrev TransformationRun := String × TransformationInput

/-- What a program gets from a registration, and the transformations that ran for it. -/
structure Registering (α : Type) where
  outcome : Except Failure α
  runs : List TransformationRun

namespace Deployment

/-- The parent in force: none for the root stack, else the given one, else the root stack unless
the resource is looked up by URN. -/
def effectiveParent (d : Deployment) (spec : ResourceSpec) : Option Key :=
  if spec.type = rootStackType then none
  else match spec.options.parent with
    | some key => some key
    | none => if spec.options.urn.isNone then d.root else none

/-- Run transformations one after the other. One that changes the parent is refused. -/
def transform (kind : ResourceKind) (type name : String) :
    List Transformation → Arguments → Options →
      Except Failure (Arguments × Options) × List TransformationRun
  | [], args, options => (.ok (args, options), [])
  | t :: rest, args, options =>
    let input : TransformationInput := { type, name, kind, args, options }
    match t.run input with
    | none =>
      let (outcome, runs) := transform kind type name rest args options
      (outcome, (t.label, input) :: runs)
    | some result =>
      if result.options.parent ≠ options.parent then
        (.error (.parentChanged name), [(t.label, input)])
      else
        let (outcome, runs) := transform kind type name rest result.args result.options
        (outcome, (t.label, input) :: runs)

/-- What messages call a resource. -/
def nameOf (d : Deployment) (key : Key) : String :=
  ((d.arena.identity? key).map Identity.name).getD ""

def isProvider (d : Deployment) (key : Key) : Bool :=
  ((d.arena.identity? key).map Identity.kind) == some .provider

def providerPackage (d : Deployment) (key : Key) : Option String :=
  (d.arena.identity? key).bind Identity.providerPackage

/-- The providers among the options, the single one first. -/
def givenProviders (options : Options) : List Key := options.provider.toList ++ options.providers

def checkProviders (d : Deployment) (spec : ResourceSpec) (options : Options) :
    Except Failure Unit :=
  if spec.kind.isComponent && options.provider.isSome && !options.providers.isEmpty then
    .error (.conflictingProviders spec.name)
  else match (givenProviders options).find? fun key => !d.isProvider key with
    | some key =>
      .error (.invalidArgument "provider" (d.nameOf key ++ " is not a provider resource"))
    | none => .ok ()

/-- The provider of a custom resource: the single one, else the first of the given ones for the
package, else the inherited one. -/
def chooseProvider (d : Deployment) (type : String) (options : Options) (inherited : Fields Key) :
    Option Key :=
  let package := packageOf? type
  let fromList := package.bind fun package =>
    options.providers.find? fun key => d.providerPackage key == some package
  options.provider.or (fromList.or (package.bind fun package => inherited.lookup package))

/-- Providers entered under their packages; a later one replaces an earlier one. -/
def enterProviders (d : Deployment) (keys : List Key) (providers : Fields Key) : Fields Key :=
  keys.foldl
    (fun acc key =>
      match d.providerPackage key with
      | some package => Fields.set package key acc
      | none => acc)
    providers

/-- The providers that are settled for a resource: its own, those given to it by package, and
those its children inherit. -/
structure ProviderChoice where
  own : Option Key
  explicit : Fields Key
  inherited : Fields Key

def chooseProviders (d : Deployment) (kind : ResourceKind) (type : String) (options : Options)
    (inherited : Fields Key) : ProviderChoice :=
  match kind with
  | .custom =>
    let own := d.chooseProvider type options inherited
    let inherited := match packageOf? type, own with
      | some package, some key => Fields.set package key inherited
      | _, _ => inherited
    ⟨own, [], inherited⟩
  | .component | .remoteComponent =>
    let given := givenProviders options
    ⟨none, d.enterProviders given [], d.enterProviders given inherited⟩
  | .provider | .dependency => ⟨none, [], inherited⟩

/-- The slots of the URN and of the id of a new resource. Only some kinds have an id. -/
def addIdentity (kind : ResourceKind) (d : Deployment) : (Nat × Option Nat) × Deployment :=
  let (urnSlot, d) := d.addSlot "urn"
  if kind.isCustomLike then
    let (idSlot, d) := d.addSlot "id"
    ((urnSlot, some idSlot), d)
  else ((urnSlot, none), d)

/-- Insert a resource whose arguments and options are settled, and start its task. -/
def start (d : Deployment) (spec : ResourceSpec) (parent : Option Key)
    (transformations : List Transformation) (args : Arguments) (options : Options) :
    Key × Deployment :=
  let above := (parent.map d.arena.inheritance).getD {}
  let providers := d.chooseProviders spec.kind spec.type options above.providers
  let options :=
    { options with
      version := options.version.or above.version
      pluginDownloadUrl := options.pluginDownloadUrl.or above.pluginDownloadUrl }
  let protect := options.protect.or above.protect
  let inheritance : Inheritance :=
    { parent, providers := providers.inherited, transformations, protect
      version := options.version, pluginDownloadUrl := options.pluginDownloadUrl }
  let ((urnSlot, idSlot), d) := d.addIdentity spec.kind
  let (key, arena) := d.arena.insert inheritance fun _ =>
    { type := spec.type, name := spec.name, kind := spec.kind
      urn := .source (.slot urnSlot), id := idSlot.map fun slot => .source (.slot slot) }
  let job : Registration :=
    { key, type := spec.type, name := spec.name, kind := spec.kind, parent, args, options
      provider := providers.own, explicitProviders := providers.explicit, protect
      urnSlot, idSlot, outputs := spec.outputs }
  (key, { d with arena, tasks := d.tasks ++ [⟨.registration job, .underWay, true⟩] })

/-- Everything about a registration that can be refused before it starts. -/
def prepare (d : Deployment) (spec : ResourceSpec) :
    Except Failure (Arguments × Options) × List TransformationRun :=
  if spec.type = "" then (.error (.invalidArgument "type" "must not be empty"), [])
  else if spec.name = "" then (.error (.invalidArgument "name" "must not be empty"), [])
  else
    let inherited :=
      ((d.effectiveParent spec).map fun key => (d.arena.inheritance key).transformations).getD []
    match transform spec.kind spec.type spec.name (inherited ++ spec.transformations)
        spec.args spec.options with
    | (.error cause, runs) => (.error cause, runs)
    | (.ok (args, options), runs) =>
      match d.checkProviders spec options with
      | .error cause => (.error cause, runs)
      | .ok () => (.ok (args, options), runs)

/-- The first half of a registration: the key of the new resource. If it is refused, the slots of
its outputs are given up and nothing else changes. -/
def register (spec : ResourceSpec) (d : Deployment) : Registering Key × Deployment :=
  match d.prepare spec with
  | (.error cause, runs) => (⟨.error cause, runs⟩, d.giveUp spec.outputs)
  | (.ok (args, options), runs) =>
    let parent := d.effectiveParent spec
    let inherited := (parent.map fun key => (d.arena.inheritance key).transformations).getD []
    let (key, d) := d.start spec parent (inherited ++ spec.transformations) args options
    (⟨.ok key, runs⟩, d)

def registerProvider (package : String) (spec : ResourceSpec) (d : Deployment) :
    Registering Key × Deployment :=
  if package = "" then
    (⟨.error (.invalidArgument "package" "must not be empty"), []⟩, d.giveUp spec.outputs)
  else d.register { spec with kind := .provider, type := providerType package }

/-- Declare properties one after the other; if one is refused, the others are given up. -/
def declareAll (properties : List (String × Schema)) (d : Deployment) :
    Except Failure (List DeclaredOutput) × Deployment :=
  properties.foldl
    (fun (declared, d) (name, schema) =>
      match declared with
      | .error cause => (.error cause, d)
      | .ok declared =>
        match d.declare declared name schema with
        | (.error cause, d) => (.error cause, d.giveUp declared)
        | (.ok declared, d) => (.ok declared, d))
    (.ok [], d)

/-- Declare the properties of a resource and register it, in one of the ways above. -/
def registerWith (register : ResourceSpec → Deployment → Registering Key × Deployment)
    (spec : ResourceSpec) (properties : List (String × Schema)) (d : Deployment) :
    Registering (Key × List DeclaredOutput) × Deployment :=
  match d.declareAll properties with
  | (.error cause, d) => (⟨.error cause, []⟩, d)
  | (.ok declared, d) =>
    let (r, d) := register { spec with outputs := declared } d
    (⟨r.outcome.map (·, declared), r.runs⟩, d)

inductive Exchange where
  | register (request : RegisterRequest)
  | read (request : ReadRequest)

/-- Whether the resource is read by an id that is not known; such a read is never sent. -/
def readIdIsUnknown (d : Deployment) (job : Registration) : Await Bool :=
  match job.options.id with
  | some id =>
    if job.kind.isCustomLike && job.options.urn.isNone then
      (awaitValue (id.peek d.graph)).andThen fun id => .done ((id.filter (· ≠ "")).isNone)
    else .done false
  | none => .done false

/-- The id to read a resource by, for a custom resource that has one among its options. -/
def readId (d : Deployment) (job : Registration) : Await (Option String) :=
  match job.options.id with
  | some id =>
    if job.kind.isCustomLike then
      (awaitValue (id.peek d.graph)).andThen fun id => .done (some (id.getD ""))
    else .done none
  | none => .done none

def parentUrn (d : Deployment) (parent : Option Key) : Await String :=
  match parent with
  | some key => (d.awaitUrn key).andThen fun urn => .done (urn.getD "")
  | none => .done ""

/-- The URNs of the aliases that are known. -/
def aliasUrns (d : Deployment) (job : Registration) : Await (List String) :=
  (awaitAll
      (fun a : Alias =>
        awaitValue (a.collapse d.settings d.urnOf job.name job.type job.parent))
      job.options.aliases).andThen fun urns => .done (urns.filterMap id)

/-- The request of a registration, once all that it mentions is settled. -/
def exchange (d : Deployment) (features : EngineFeatures) (job : Registration) :
    Await Exchange := do
  let properties ← d.serialize features job.name job.args
  let direct := Ascending.union properties.allDependencies job.options.dependsOn
  let dependencies ← d.dependencyUrns direct (some job.key)
  let propertyDependencies ←
    d.dependencyTable (some job.key) properties.propertyDependencies
  let parent ← d.parentUrn job.parent
  let provider ← d.optionalProviderReference job.provider
  let providers ← awaitAll
    (fun p : String × Key => (d.providerReference p.2).andThen fun r => .done (p.1, r))
    job.explicitProviders
  let aliases ← d.aliasUrns job
  let id ← d.readId job
  let options := job.options
  if options.urn.isSome || id.isSome then
    return .read
      { id := id.getD "", urn := options.urn.getD "", type := job.type, name := job.name, parent
        properties := properties.object, dependencies, provider
        version := options.version.getD ""
        pluginDownloadUrl := options.pluginDownloadUrl.getD ""
        acceptSecrets := true, acceptResources := true
        additionalSecretOutputs := options.additionalSecretOutputs
        packageRef := options.packageRef.getD "" }
  else
    return .register
      { type := job.type, name := job.name, parent
        custom := job.kind.isCustomLike, remote := job.kind == .remoteComponent
        object := properties.object, protect := job.protect, dependencies, propertyDependencies
        provider, providers, deleteBeforeReplace := options.deleteBeforeReplace
        ignoreChanges := options.ignoreChanges, version := options.version.getD ""
        pluginDownloadUrl := options.pluginDownloadUrl.getD ""
        acceptSecrets := true, acceptResources := true
        additionalSecretOutputs := options.additionalSecretOutputs, aliases
        importId := options.importId.getD "", retainOnDelete := options.retainOnDelete
        packageRef := options.packageRef.getD "" }

structure Registered where
  urn : String
  id : String
  object : Properties
  propertyDependencies : DependencyTable

/-- How a step of completing slots ends: with an outcome, or in a conversion without an end. -/
abbrev Ending := Option (Except Failure Unit)

/-- Complete the slot of a declared property. One that the engine left out is unknown. -/
def completeOutput (type : String) (output : DeclaredOutput) (value : Option Value)
    (dependencies : List Key) (d : Deployment) : Ending × Deployment :=
  match value with
  | none =>
    let (result, d) := d.complete output.slot (.ok ⟨none, false, dependencies⟩)
    (some result, d)
  | some value =>
    match d.convert output.schema (type ++ "." ++ output.name) dependencies value with
    | (.error cause, d) => (some (.error cause), d)
    | (.ok none, d) => (none, d)
    | (.ok (some converted), d) =>
      let (result, d) := (d.warn converted.warnings).complete output.slot (.ok converted.data)
      (some result, d)

def firstFailure : Except Failure Unit → Except Failure Unit → Except Failure Unit
  | .error cause, _ => .error cause
  | .ok (), outcome => outcome

/-- Complete the slots of all declared properties; the outcome is the first failure. -/
def completeOutputs (job : Registration) (registered : Registered) :
    List DeclaredOutput → Deployment → Ending × Deployment
  | [], d => (some (.ok ()), d)
  | output :: rest, d =>
    let (keys, d) :=
      if job.kind = .remoteComponent then
        d.resourcesForUrns ((registered.propertyDependencies.lookup output.name).getD [])
      else ([], d)
    match d.completeOutput job.type output (registered.object.lookup output.name)
        (Ascending.union [job.key] keys) with
    | (none, d) => (none, d)
    | (some outcome, d) =>
      match completeOutputs job registered rest d with
      | (none, d) => (none, d)
      | (some later, d) => (some (firstFailure outcome later), d)

def completeIdentity (job : Registration) (urn id : Option String) (d : Deployment) :
    Except Failure Unit × Deployment :=
  match d.complete job.urnSlot (.ok ⟨urn.map .string, false, [job.key]⟩) with
  | (.error cause, d) => (.error cause, d)
  | (.ok (), d) =>
    match job.idSlot with
    | none => (.ok (), d)
    | some slot => d.complete slot (.ok ⟨id.map .string, false, [job.key]⟩)

def completeRegistered (job : Registration) (registered : Registered) (d : Deployment) :
    Ending × Deployment :=
  let d := { d with arena := d.arena.recordUrn job.key registered.urn }
  let id := if registered.id = "" then none else some registered.id
  match d.completeIdentity job (some registered.urn) id with
  | (.error cause, d) => (some (.error cause), d)
  | (.ok (), d) => completeOutputs job registered job.outputs d

/-- Complete every slot of a resource that is not read because its id is not known. -/
def completeUnknown (job : Registration) (d : Deployment) : Ending × Deployment :=
  match d.completeIdentity job none none with
  | (.error cause, d) => (some (.error cause), d)
  | (.ok (), d) =>
    completeOutputs job ⟨"", "", [], []⟩ job.outputs d

def slotsOf (job : Registration) : List Nat :=
  job.urnSlot :: (job.idSlot.toList ++ job.outputs.map DeclaredOutput.slot)

/-- Fail every slot of a registration that is still open. -/
def failOpen (job : Registration) (cause : Failure) (d : Deployment) : Deployment :=
  let failure : Failure := .registrationFailed job.name cause.message
  { d with
    graph := (slotsOf job).foldl
      (fun graph slot =>
        if graph.isResolved slot then graph else (graph.complete slot (.error failure)).2)
      d.graph }

/-- The end of a registration: a failure takes all slots that are still open with it. -/
def finish (job : Registration) (ending : Ending × Deployment) : Progress × Deployment :=
  match ending with
  | (none, d) => (.endless, d)
  | (some (.ok ()), d) => (.finished (.ok ()), d)
  | (some (.error cause), d) => (.finished (.error cause), d.failOpen job cause)

end Deployment

namespace World

open Deployment

variable {σ : Type}

def send (engine : Engine σ) (request : Exchange) (w : World σ) :
    Except Failure Registered × World σ :=
  match request with
  | .register request =>
    let (answer, s) := engine.register request w.engine
    (answer.map fun r => ⟨r.urn, r.id, r.object, r.propertyDependencies⟩, { w with engine := s })
  | .read request =>
    let (answer, s) := engine.read request w.engine
    (answer.map fun r => ⟨r.urn, r.id, r.properties, []⟩, { w with engine := s })

/-- The second half of a registration, as far as it can go now. -/
def runRegistration (engine : Engine σ) (job : Registration) (w : World σ) :
    Progress × World σ :=
  let finishWith (ending : Ending × Deployment) (s : σ) : Progress × World σ :=
    let (progress, d) := finish job ending
    (progress, ⟨d, s⟩)
  let fail (cause : Failure) (w : World σ) : Progress × World σ :=
    finishWith (some (.error cause), w.deployment) w.engine
  match w.deployment.readIdIsUnknown job with
  | .pending => (.underWay, w)
  | .failed cause => fail cause w
  | .done true => finishWith (w.deployment.completeUnknown job) w.engine
  | .done false =>
    match w.engineFeatures engine with
    | (.error cause, w) => fail cause w
    | (.ok features, w) =>
      match w.deployment.exchange features job with
      | .pending => (.underWay, w)
      | .failed cause => fail cause w
      | .done request =>
        match w.send engine request with
        | (.error cause, w) => fail cause w
        | (.ok registered, w) =>
          finishWith (w.deployment.completeRegistered job registered) w.engine

end World

end Provision
