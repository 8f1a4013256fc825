import Provision.Sample.Resources

/-!
# The sample program

A program for the sample package, run against a local engine: a provider, a network of two
widgets that inherit it, and a premium widget that depends on the network. What is left at the
end is the engine's inventory, of which the outputs of the components are printed.
-/

namespace Provision

namespace Sample

open Deployment

/-- A deployment beside the local engine that serves it. -/
abbrev System := World Local

def engine (settings : Settings) : Engine Local := Local.engine settings provider

def System.start (settings : Settings) : System := ⟨{ settings := settings }, {}⟩

/-- Wait for the registrations that are under way and stop the engine. -/
def System.shutdown (settings : Settings) (system : System) :
    Option (Except Failure Inventory) × System :=
  let (settled, system) := World.waitForRegistrations (engine settings) system
  (settled.map fun outcome => outcome.map fun _ => system.engine.inventory, system)

def onDeployment {α : Type} (operation : Deployment → α × Deployment) (system : System) :
    α × System :=
  let (a, d) := operation system.deployment
  (a, { system with deployment := d })

/-- The premium widget of the program. -/
def apiArgs : WidgetArgs :=
  { size := some (.known false [] (.number (.ofInt 3))), tier := some .premium
    labels := [("team", "core")], code := some (.text "print('hello')") }

/-- What the program hands back: outputs of the widget and of the network. -/
def programOutputs (endpoint description replicas endpoints : Source) : Arguments :=
  [("apiEndpoint", .deferred endpoint), ("description", .deferred description),
    ("endpoints", .deferred endpoints), ("replicas", .deferred replicas)]

def program (settings : Settings) (system : System) :
    Option (Except Failure Arguments) × System :=
  let (west, system) := onDeployment (registerProvider "west" (some "us-west-2") {}) system
  match west.outcome with
  | .error cause => (some (.error cause), system)
  | .ok west =>
    match registerNetwork (engine settings) "net" 2
        { options := { providers := [west.resource] } } system with
    | (none, system) => (none, system)
    | (some net, system) =>
      match net.outcome with
      | .error cause => (some (.error cause), system)
      | .ok net =>
        let placement : Placement :=
          { options := { provider := some west.resource, dependsOn := [net.resource] } }
        let (api, system) := onDeployment (registerWidget "api" apiArgs placement) system
        match api.outcome with
        | .error cause => (some (.error cause), system)
        | .ok api =>
          let (description, system) := onDeployment (describeWidget api.resource) system
          match description with
          | .error cause => (some (.error cause), system)
          | .ok description =>
            let (replicas, system) := onDeployment (fieldOutput "replicas" api.status) system
            (some (.ok (programOutputs api.endpoint description replicas net.endpoints)), system)

/-- How a run of the program ends: what it prints, or why it prints nothing, and whether it
succeeds. -/
structure Ending where
  printed : Except Failure Json
  outcome : Except Failure Unit

namespace Ending

/-- The first failure of the run. -/
def failure? (ending : Ending) : Option Failure :=
  match ending.printed, ending.outcome with
  | .error cause, _ => some cause
  | .ok _, .error cause => some cause
  | .ok _, .ok () => none

def exitCode (ending : Ending) : UInt8 := if ending.failure?.isSome then 1 else 0

end Ending

/-- The failure that stands for a run without an end. -/
def unsettled : Failure := .output "an output is never settled"

def execute (settings : Settings) : Ending :=
  let (outcome, system, _) :=
    World.run (engine settings)
      (fun _ system u =>
        let (outputs, system) := program settings system
        (outputs, system, u))
      (System.start settings) ()
  let (inventory, _) := System.shutdown settings system
  { printed := (inventory.getD (.error unsettled)).map Inventory.outputsJson
    outcome := outcome.getD (.error unsettled) }

end Sample

end Provision
