import Provision.Deployment.Call

/-!
# Running a program

Tasks run in rounds: each one that is under way goes as far as it can, and a round in which none
ends is the last. A program is run under a root stack; the run succeeds if the program, the
registration of the stack's outputs, and every registration that is still tracked succeed.
-/

namespace Provision

namespace World

open Deployment

variable {σ : Type}

def runTask (engine : Engine σ) (number : Nat) (w : World σ) : World σ :=
  match w.deployment.tasks[number]? with
  | none => w
  | some task =>
    match task.progress with
    | .underWay =>
      let (progress, w) := match task.job with
        | .registration job => w.runRegistration engine job
        | .call job => w.runCall engine job
      { w with
        deployment :=
          { w.deployment with
            tasks := w.deployment.tasks.modify number fun t => { t with progress := progress } } }
    | _ => w

/-- Every task once, in the order in which they were started. -/
def runRound (engine : Engine σ) (w : World σ) : World σ :=
  (List.range w.deployment.tasks.length).foldl (fun w number => w.runTask engine number) w

def openTasks (w : World σ) : Nat :=
  (w.deployment.tasks.filter fun t => t.progress matches .underWay).length

/-- Rounds until one in which no task ends. -/
def runRounds (engine : Engine σ) : Nat → World σ → World σ
  | 0, w => w
  | fuel + 1, w =>
    let next := w.runRound engine
    if next.openTasks < w.openTasks then runRounds engine fuel next else next

/-- Run all tasks as far as they can go. Every round but the last ends a task. -/
def runTasks (engine : Engine σ) (w : World σ) : World σ :=
  w.runRounds engine (w.openTasks + 1)

/-- Do something that may have to wait for tasks. -/
def await {α : Type} (engine : Engine σ) (attempt : World σ → Await α) (w : World σ) :
    Await α × World σ :=
  match attempt w with
  | .pending =>
    let w := w.runTasks engine
    (attempt w, w)
  | outcome => (outcome, w)

/-- What waiting for registrations reports: the first failure, in the order of the registrations.
`none` stands for a registration that does not end. -/
def report (tasks : List Task) : Option (Except Failure Unit) :=
  ((tasks.filter Task.tracked).mapM fun (task : Task) => task.progress.outcome?).map fun outcomes =>
    outcomes.foldl firstFailure (.ok ())

/-- Wait for every registration, and forget about them. -/
def waitForRegistrations (engine : Engine σ) (w : World σ) :
    Option (Except Failure Unit) × World σ :=
  let w := w.runTasks engine
  (report w.deployment.tasks,
    { w with
      deployment :=
        { w.deployment with
          tasks := w.deployment.tasks.map fun t => { t with tracked := false } } })

def registerPackage (engine : Engine σ) (request : PackageRequest) (w : World σ) :
    Except Failure String × World σ :=
  let (answer, s) := engine.registerPackage request w.engine
  (answer.map PackageResponse.packageRef, { w with engine := s })

def outputsRequest (d : Deployment) (features : EngineFeatures) (key : Key) (outputs : Arguments) :
    Await OutputsRequest := do
  let properties ← d.serialize features (d.nameOf key) outputs
  let urn ← d.awaitUrn key
  return { urn := urn.getD "", outputs := properties.object }

/-- Register the outputs of a component or of the root stack. `none` is an output that nothing
will settle. -/
def registerOutputs (engine : Engine σ) (key : Key) (outputs : Arguments) (w : World σ) :
    Option (Except Failure Unit) × World σ :=
  match w.engineFeatures engine with
  | (.error cause, w) => (some (.error cause), w)
  | (.ok features, w) =>
    match w.await engine fun w => outputsRequest w.deployment features key outputs with
    | (.pending, w) => (none, w)
    | (.failed cause, w) => (some (.error cause), w)
    | (.done request, w) =>
      let (answer, s) := engine.registerOutputs request w.engine
      (some answer, { w with engine := s })

def stackSpec (settings : Settings) : ResourceSpec :=
  { kind := .component, type := rootStackType, name := settings.rootStackName }

/-- Register the root stack and make it the ambient parent. -/
def beginRun (w : World σ) : Except Failure Key × World σ :=
  let (r, d) := w.deployment.register (stackSpec w.deployment.settings)
  match r.outcome with
  | .error cause => (.error cause, { w with deployment := d })
  | .ok key => (.ok key, { w with deployment := { d with root := some key } })

/-- Register the outputs that a program returned and wait for every registration. -/
def endRun (engine : Engine σ) (stack : Key) (result : Except Failure Arguments) (w : World σ) :
    Option (Except Failure Unit) × World σ :=
  let (outputs, w) := match result with
    | .ok values => w.registerOutputs engine stack values
    | .error cause => (some (.error cause), w)
  match outputs with
  | none => (none, w)
  | some outputs =>
    let (settled, w) := w.waitForRegistrations engine
    (settled.map (firstFailure outputs), w)

/-- Run a program, which may have a state of its own, under a root stack. The program may wait for
outputs and registrations, and for one that nothing will settle. -/
def run {τ : Type} (engine : Engine σ)
    (program : Key → World σ → τ → Option (Except Failure Arguments) × World σ × τ)
    (w : World σ) (t : τ) : Option (Except Failure Unit) × World σ × τ :=
  match w.beginRun with
  | (.error cause, w) => (some (.error cause), w, t)
  | (.ok stack, w) =>
    match program stack w t with
    | (none, w, t) => (none, w, t)
    | (some result, w, t) =>
      let (outcome, w) := w.endRun engine stack result
      (outcome, w, t)

end World

end Provision
