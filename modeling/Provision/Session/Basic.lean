import Provision.Sample.Resources
import Provision.Session.Scope

/-!
# Sessions

A deployment that is driven step by step, with names for what the steps have built. An eager
session lets all tasks go as far as they can after every registration and call, so that what the
next step sees is settled; another one leaves them until something is awaited. A step may fail,
name something that does not exist, or wait for what nothing will settle; in each case the
session goes on from the state that the step has left.
-/

namespace Provision

structure Session (σ : Type) where
  engine : Engine σ
  world : World σ
  /-- Whether tasks go on after every step. -/
  eager : Bool
  scope : Scope := {}
  /-- The transformations that ran and are not told of yet. -/
  runs : List TransformationRun := []
  /-- How many of the warnings have been told of. -/
  told : Nat := 0

/-- Why a step has no result. -/
inductive Trouble where
  | unknownName
  | failed (cause : Failure)
  | endless

abbrev Step (σ α : Type) := ExceptT Trouble (StateM (Session σ)) α

namespace Session

variable {σ α : Type}

def deployment : Step σ Deployment := do return (← get).world.deployment

def edit (change : Deployment → α × Deployment) : Step σ α := do
  let s ← get
  let (a, d) := change s.world.deployment
  set { s with world := { s.world with deployment := d } }
  return a

def exchange (change : Engine σ → World σ → α × World σ) : Step σ α := do
  let s ← get
  let (a, world) := change s.engine s.world
  set { s with world }
  return a

def rename (change : Scope → Scope) : Step σ Unit :=
  modify fun s => { s with scope := change s.scope }

/-- The result of something that may have failed. -/
def orFail : Except Failure α → Step σ α
  | .ok a => return a
  | .error cause => throw (.failed cause)

/-- Something that a name stands for. -/
def orUnknown : Option α → Step σ α
  | some a => return a
  | none => throw .unknownName

/-- The result of something that may have no end. -/
def orEndless : Option α → Step σ α
  | some a => return a
  | none => throw .endless

def resource (name : String) : Step σ Key := do
  orUnknown ((← get).scope.resources.lookup name)

def widget (name : String) : Step σ Key := do
  orUnknown ((← get).scope.widgets.lookup name)

def output (text : String) : Step σ Argument := do
  let s ← get
  orUnknown (s.scope.argument? s.world.deployment.arena text)

/-- The result of a registration; the transformations that ran are told of later. -/
def registered (r : Registering α) : Step σ α := do
  modify fun s => { s with runs := s.runs ++ r.runs }
  orFail r.outcome

/-- Let tasks go on in an eager session. -/
def goOn : Step σ Unit := do
  if (← get).eager then exchange fun engine w => ((), w.runTasks engine)

def await (attempt : Deployment → Await α) : Step σ α := do
  match ← exchange fun engine w => World.await engine (fun w => attempt w.deployment) w with
  | .pending => throw .endless
  | .failed cause => throw (.failed cause)
  | .done a => return a

/-- Give a new resource its name and outputs, and let its task go on. -/
def bind (name : String) (key : Key) (outputs : List (String × Source)) : Step σ Unit := do
  rename (Scope.bind name key outputs)
  goOn

/-- Give a new widget its name and outputs, and let its task go on. -/
def bindWidget (name : String) (widget : Sample.Widget) : Step σ Unit := do
  rename (Scope.bindWidget name widget.resource widget.outputs)
  goOn

/-- Declare the properties of a resource, settle what it is registered with, and register it in
one of the ways of a deployment. -/
def register (name : String) (properties : List (String × Schema))
    (specify : List DeclaredOutput → Step σ ResourceSpec)
    (way : ResourceSpec → Deployment → Registering Key × Deployment) : Step σ Unit := do
  let declared ← orFail (← edit (Deployment.declareAll properties))
  let spec ← specify declared
  let key ← registered (← edit (way { spec with outputs := declared }))
  bind name key (declared.map fun o => (o.name, .slot o.slot))

def call (name : String) (spec : CallSpec) : Step σ Source := do
  let slot ← orFail (← edit (Deployment.call spec))
  rename (Scope.store name (.slot slot))
  goOn
  return .slot slot

def registerOutputs (key : Key) (outputs : Arguments) : Step σ Unit := do
  orFail (← orEndless (← exchange fun engine w => World.registerOutputs engine key outputs w))

def registerPackage (request : PackageRequest) : Step σ String := do
  orFail (← exchange fun engine w => World.registerPackage engine request w)

def supportsFeature (id : String) : Step σ Bool := do
  orFail (← exchange fun engine w => World.supportsFeature engine id w)

def wait : Step σ Unit := do
  orFail (← orEndless (← exchange fun engine w => World.waitForRegistrations engine w))

/-- What a name that does not exist means for a program. -/
def unknownName : Failure := .output "bad handle"

/-- The name of the root stack after a run. -/
def stackName : String := "stack"

/-- Run steps as a program under a root stack. The program hands back the outputs of the stack, and
a value of its own, which is missing if the program broke off. -/
def run {β : Type} (program : Step σ (Except Failure Arguments × β)) :
    Step σ (Except Failure Unit × Option β) := do
  let body (_ : Key) (w : World σ) (t : Session σ × Option β) :
      Option (Except Failure Arguments) × World σ × (Session σ × Option β) :=
    let steps : Step σ (Except Failure Arguments × β) := do
      goOn
      program
    match steps.run { t.1 with world := w } with
    | (.ok (outputs, b), s) => (some outputs, s.world, (s, some b))
    | (.error .unknownName, s) => (some (.error unknownName), s.world, (s, none))
    | (.error (.failed cause), s) => (some (.error cause), s.world, (s, none))
    | (.error .endless, s) => (none, s.world, (s, none))
  let s ← get
  let (outcome, world, (s, b)) := World.run s.engine body s.world (s, none)
  set { s with world }
  match world.deployment.root with
  | some key => rename (Scope.bind stackName key [])
  | none => pure ()
  return (← orEndless outcome, b)

/-- What has happened since this was last asked: transformations and warnings. -/
def news (s : Session σ) : (List TransformationRun × List String) × Session σ :=
  let warnings := s.world.deployment.warnings
  ((s.runs, warnings.drop s.told), { s with runs := [], told := warnings.length })

end Session

end Provision
