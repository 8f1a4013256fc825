import Provision.Deployment.Registration

/-!
# Calling methods

A call sends its arguments to the engine and converts the answer to a type. It may be repeated,
and it leaves the resource it is made on as it is. The result depends on every resource that
the engine names.
-/

namespace Provision

/-- What a program asks for when it calls a method. -/
structure CallSpec where
  token : String
  args : Arguments := []
  /-- The resource the method is called on. -/
  self : Option Key := none
  options : CallOptions := {}
  schema : Schema

def selfArgument : String := "__self__"

namespace Deployment

/-- The provider of a call: the given one, else the one that the resource it is made on, or else
the parent, hands down for the token's package. -/
def callProvider (d : Deployment) (spec : CallSpec) : Option Key :=
  spec.options.provider.or
    ((spec.self.or spec.options.parent).bind fun owner => d.arena.providerFor owner spec.token)

/-- The first half of a call: the slot of its result. -/
def call (spec : CallSpec) (d : Deployment) : Except Failure Nat × Deployment :=
  if spec.token = "" then (.error (.invalidArgument "token" "must not be empty"), d)
  else
    match Shape.validate spec.schema.records.shapes spec.schema.type.shape spec.token with
    | .error cause => (.error cause, d)
    | .ok () =>
      let args := match spec.self with
        | some key => Fields.set selfArgument (.resource key) spec.args
        | none => spec.args
      let (slot, d) := d.addSlot spec.token
      let job : Call :=
        { token := spec.token, args, provider := d.callProvider spec, options := spec.options
          schema := spec.schema, slot }
      (.ok slot, { d with tasks := d.tasks ++ [⟨.call job, .underWay, false⟩] })

/-- The request of a call, once all that it mentions is settled. -/
def callRequest (d : Deployment) (features : EngineFeatures) (job : Call) :
    Await CallRequest := do
  let properties ← d.serialize features job.token job.args
  let argDependencies ← d.dependencyTable none properties.propertyDependencies
  let provider ← d.optionalProviderReference job.provider
  return {
    token := job.token, args := properties.object, argDependencies, provider
    version := job.options.version.getD ""
    pluginDownloadUrl := job.options.pluginDownloadUrl.getD ""
    packageRef := job.options.packageRef.getD ""
    acceptResources := features.resources }

def refusals (failures : List CheckFailure) : String :=
  String.intercalate "; " (failures.map fun f => f.property ++ ": " ++ f.reason)

def callResult (job : Call) (response : CallResponse) (d : Deployment) :
    Option (Settled HostValue) × Deployment :=
  if !response.failures.isEmpty then
    (some (.error (.callFailed job.token (refusals response.failures))), d)
  else
    let (keys, d) := d.resourcesForUrns (response.returnDependencies.flatMap Prod.snd)
    match d.convert job.schema job.token (Ascending.ofList keys) (.object response.returnValues) with
    | (.error cause, d) => (some (.error cause), d)
    | (.ok none, d) => (none, d)
    | (.ok (some converted), d) => (some (.ok converted.data), d.warn converted.warnings)

def outcomeOf {α : Type} : Except Failure α → Except Failure Unit
  | .ok _ => .ok ()
  | .error cause => .error cause

def finishCall (job : Call) (result : Option (Settled HostValue)) (d : Deployment) :
    Progress × Deployment :=
  match result with
  | none => (.endless, d)
  | some result => (.finished (outcomeOf result), (d.complete job.slot result).2)

end Deployment

namespace World

open Deployment

variable {σ : Type}

/-- The second half of a call, as far as it can go now. -/
def runCall (engine : Engine σ) (job : Call) (w : World σ) : Progress × World σ :=
  let finishWith (result : Option (Settled HostValue)) (d : Deployment) (s : σ) :
      Progress × World σ :=
    let (progress, d) := finishCall job result d
    (progress, ⟨d, s⟩)
  match w.engineFeatures engine with
  | (.error cause, w) => finishWith (some (.error cause)) w.deployment w.engine
  | (.ok features, w) =>
    match w.deployment.callRequest features job with
    | .pending => (.underWay, w)
    | .failed cause => finishWith (some (.error cause)) w.deployment w.engine
    | .done request =>
      match engine.call request w.engine with
      | (.error cause, s) => finishWith (some (.error cause)) w.deployment s
      | (.ok response, s) =>
        let (result, d) := callResult job response w.deployment
        finishWith result d s

end World

end Provision
