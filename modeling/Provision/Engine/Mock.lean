import Provision.Engine.Basic
import Provision.Settings
import Provision.Text.Quoted
import Provision.Urn

/-!
# A mock engine

An engine for tests. It answers from declared expectations, each of which answers once.
Expectations are matched by what they name and not by the order of arrival; the earliest that
matches is taken. A request that nothing expects fails and is remembered. After a test,
`Mock.verify` tells whether everything expected has arrived and nothing else.
-/

namespace Provision

inductive Expectation where
  | register (type name : String) (reply : RegisterRequest → Except Failure RegisterResponse)
  | read (type name : String) (reply : ReadRequest → Except Failure ReadResponse)
  | call (token : String) (reply : CallRequest → Except Failure CallResponse)
  | outputs (urn : String) (reply : OutputsRequest → Except Failure Unit)
  | package (name : String) (reply : PackageRequest → Except Failure PackageResponse)

namespace Expectation

/-! ### The texts that describe requests -/

def describeRegister (type name : String) : String := "RegisterResource " ++ type ++ " " ++ name

def describeRead (type name : String) : String := "ReadResource " ++ type ++ " " ++ name

def describeCall (token : String) : String := "Call " ++ token

def describeOutputs (urn : String) : String := "RegisterResourceOutputs " ++ urn

def describePackage (name : String) : String := "RegisterPackage " ++ name

def describe : Expectation → String
  | .register type name _ => describeRegister type name
  | .read type name _ => describeRead type name
  | .call token _ => describeCall token
  | .outputs urn _ => describeOutputs urn
  | .package name _ => describePackage name

/-! ### What an expectation answers to a request, if it matches -/

def register? (request : RegisterRequest) :
    Expectation → Option (Except Failure RegisterResponse)
  | .register type name reply =>
    if type = request.type ∧ name = request.name then some (reply request) else none
  | _ => none

def read? (request : ReadRequest) : Expectation → Option (Except Failure ReadResponse)
  | .read type name reply =>
    if type = request.type ∧ name = request.name then some (reply request) else none
  | _ => none

def call? (request : CallRequest) : Expectation → Option (Except Failure CallResponse)
  | .call token reply => if token = request.token then some (reply request) else none
  | _ => none

def outputs? (request : OutputsRequest) : Expectation → Option (Except Failure Unit)
  | .outputs urn reply => if urn = request.urn then some (reply request) else none
  | _ => none

def package? (request : PackageRequest) : Expectation → Option (Except Failure PackageResponse)
  | .package name reply => if name = request.name then some (reply request) else none
  | _ => none

/-- Expect a registration and answer with the URN that the request asks for, an id, and
properties. -/
def returningOutputs (settings : Settings) (type name id : String) (object : Properties) :
    Expectation :=
  .register type name fun request =>
    let parent := if request.parent = "" then none else some request.parent
    .ok { urn := Urn.create request.name request.type parent settings.project settings.stack
          id, object }

end Expectation

structure Mock where
  /-- The ids of the features that are supported. -/
  features : List String := Feature.defaults
  expectations : List Expectation := []
  /-- The requests that have arrived, the earliest first; questions about features are not
  among them. -/
  requests : List Request := []
  /-- Descriptions of the requests that nothing expected. -/
  unexpected : List String := []

namespace Mock

def expect (expectation : Expectation) (mock : Mock) : Mock :=
  { mock with expectations := mock.expectations ++ [expectation] }

/-- The answer of the first expectation that matches, and the others. -/
def take? {α : Type} (answer? : Expectation → Option α) :
    List Expectation → Option (α × List Expectation)
  | [] => none
  | e :: rest =>
    match answer? e with
    | some answer => some (answer, rest)
    | none => (take? answer? rest).map fun (answer, others) => (answer, e :: others)

def reply {α : Type} (answer? : Expectation → Option (Except Failure α))
    (operation description : String) (request : Request) (mock : Mock) :
    Except Failure α × Mock :=
  match take? answer? mock.expectations with
  | some (answer, others) =>
    (answer, { mock with expectations := others, requests := mock.requests ++ [request] })
  | none =>
    (.error (.rpc operation ("unexpected request: " ++ description)),
      { mock with
        requests := mock.requests ++ [request], unexpected := mock.unexpected ++ [description] })

def engine : Engine Mock where
  supportsFeature r mock := (.ok ⟨mock.features.contains r.id⟩, mock)
  register r :=
    reply (Expectation.register? r) Engine.Operation.register
      (Expectation.describeRegister r.type r.name) (.register r)
  read r :=
    reply (Expectation.read? r) Engine.Operation.read
      (Expectation.describeRead r.type r.name) (.read r)
  call r :=
    reply (Expectation.call? r) Engine.Operation.call (Expectation.describeCall r.token) (.call r)
  registerOutputs r :=
    reply (Expectation.outputs? r) Engine.Operation.registerOutputs
      (Expectation.describeOutputs r.urn) (.outputs r)
  registerPackage r :=
    reply (Expectation.package? r) Engine.Operation.registerPackage
      (Expectation.describePackage r.name) (.package r)

/-- The first registration of a resource of that name. -/
def registration (mock : Mock) (name : String) : Option RegisterRequest :=
  mock.requests.findSome? fun
    | .register r => if r.name = name then some r else none
    | _ => none

def calls (mock : Mock) : List CallRequest :=
  mock.requests.filterMap fun
    | .call r => some r
    | _ => none

/-- Whether everything expected has arrived, and nothing else; the error is the complaint. -/
def verify (mock : Mock) : Except String Unit :=
  if !mock.unexpected.isEmpty then
    .error ("Unexpected requests: " ++ Quoted.list mock.unexpected)
  else if !mock.expectations.isEmpty then
    .error ("Not all expectations were met. Remaining: " ++
      Quoted.list (mock.expectations.map Expectation.describe))
  else .ok ()

end Mock

end Provision
