import Provision.Failure
import Provision.Message.Basic

/-!
# Engines

The other side of the exchange: an engine answers each of the six requests and moves from one
state to the next. An engine may be wrapped so that it also keeps a log of what it was asked.
-/

namespace Provision

/-- An engine, as a state machine with one transition for each kind of request. -/
structure Engine (σ : Type) where
  supportsFeature : FeatureRequest → σ → Except Failure FeatureResponse × σ
  register : RegisterRequest → σ → Except Failure RegisterResponse × σ
  read : ReadRequest → σ → Except Failure ReadResponse × σ
  call : CallRequest → σ → Except Failure CallResponse × σ
  registerOutputs : OutputsRequest → σ → Except Failure Unit × σ
  registerPackage : PackageRequest → σ → Except Failure PackageResponse × σ

namespace Engine

variable {σ : Type}

def send (engine : Engine σ) (request : Request) (s : σ) : Except Failure Response × σ :=
  match request with
  | .feature r =>
    let (answer, s) := engine.supportsFeature r s
    (answer.map .feature, s)
  | .register r =>
    let (answer, s) := engine.register r s
    (answer.map .register, s)
  | .read r =>
    let (answer, s) := engine.read r s
    (answer.map .read, s)
  | .call r =>
    let (answer, s) := engine.call r s
    (answer.map .call, s)
  | .outputs r =>
    let (answer, s) := engine.registerOutputs r s
    (answer.map fun _ => .outputs, s)
  | .package r =>
    let (answer, s) := engine.registerPackage r s
    (answer.map .package, s)

def sendAll (engine : Engine σ) : List Request → σ → List (Except Failure Response) × σ
  | [], s => ([], s)
  | request :: rest, s =>
    let (answer, s) := engine.send request s
    let (answers, s) := sendAll engine rest s
    (answer :: answers, s)

/-- An engine that fails every request in one way. -/
def refusing (cause : Failure) : Engine σ where
  supportsFeature _ s := (.error cause, s)
  register _ s := (.error cause, s)
  read _ s := (.error cause, s)
  call _ s := (.error cause, s)
  registerOutputs _ s := (.error cause, s)
  registerPackage _ s := (.error cause, s)

/-- An engine that takes no requests any more. -/
def closed : Engine σ := refusing .monitorClosed

/-- An engine that takes requests and never answers. -/
def dropping : Engine σ := refusing .monitorDropped

def onPart {τ : Type} (part : τ → σ) (put : σ → τ → τ) (engine : Engine σ) : Engine τ :=
  let lift {α : Type} (step : σ → α × σ) (t : τ) : α × τ :=
    let (a, s) := step (part t)
    (a, put s t)
  { supportsFeature := fun r => lift (engine.supportsFeature r)
    register := fun r => lift (engine.register r)
    read := fun r => lift (engine.read r)
    call := fun r => lift (engine.call r)
    registerOutputs := fun r => lift (engine.registerOutputs r)
    registerPackage := fun r => lift (engine.registerPackage r) }

/-- The state of an engine with a log of the requests, the earliest first. -/
structure Logged (σ : Type) where
  state : σ
  log : List Request

/-- Carry out a transition and note the request. -/
def Logged.step {α : Type} (transition : σ → α × σ) (request : Request) (s : Logged σ) :
    α × Logged σ :=
  let (answer, state) := transition s.state
  (answer, ⟨state, s.log ++ [request]⟩)

def logged (engine : Engine σ) : Engine (Logged σ) where
  supportsFeature r := Logged.step (engine.supportsFeature r) (.feature r)
  register r := Logged.step (engine.register r) (.register r)
  read r := Logged.step (engine.read r) (.read r)
  call r := Logged.step (engine.call r) (.call r)
  registerOutputs r := Logged.step (engine.registerOutputs r) (.outputs r)
  registerPackage r := Logged.step (engine.registerPackage r) (.package r)

/-! ### The names of the operations in failures -/

namespace Operation

def register : String := "RegisterResource"
def read : String := "ReadResource"
def call : String := "Call"
def registerOutputs : String := "RegisterResourceOutputs"
def registerPackage : String := "RegisterPackage"

end Operation

end Engine

end Provision
