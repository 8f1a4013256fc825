import Provision.Engine.Basic

/-!
# Answering by hand

A test may take the engine's part itself. It waits for the next request of a kind, looks at it,
and answers it or drops it. Questions about features are answered on the way. A request of
another kind than the one awaited is dropped, and once the test stops, requests find the
exchange closed.
-/

namespace Provision

namespace Manual

/-- The kind of request that is awaited, with the answer to it; without one it is dropped. -/
inductive Step where
  | register (reply : Option (Except Failure RegisterResponse))
  | read (reply : Option (Except Failure ReadResponse))
  | call (reply : Option (Except Failure CallResponse))

def settle {α : Type} (wrap : α → Response) : Option (Except Failure α) → Except Failure Response
  | some reply => reply.map wrap
  | none => .error .monitorDropped

/-- What a step makes of the next request: the request, if it is of the awaited kind, and the
answer that the sender gets. -/
def Step.take (request : Request) : Step → Option Request × Except Failure Response
  | .register reply =>
    match request with
    | .register r => (some (.register r), settle .register reply)
    | _ => (none, .error .monitorDropped)
  | .read reply =>
    match request with
    | .read r => (some (.read r), settle .read reply)
    | _ => (none, .error .monitorDropped)
  | .call reply =>
    match request with
    | .call r => (some (.call r), settle .call reply)
    | _ => (none, .error .monitorDropped)

/-- The answers to the questions about features that come first, then the next other request and
those after it. -/
def advance : List Request → List (Except Failure Response) × Option (Request × List Request)
  | [] => ([], none)
  | .feature r :: rest =>
    let (answers, next) := advance rest
    (.ok (.feature ⟨Feature.defaults.contains r.id⟩) :: answers, next)
  | request :: rest => ([], some (request, rest))

/-- Serve requests that are sent one after another: what each step saw, and what became of each
request. -/
def serve : List Step → List Request → List (Option Request) × List (Except Failure Response)
  | [], requests => ([], requests.map fun _ => .error .monitorClosed)
  | step :: steps, requests =>
    match advance requests with
    | (answers, none) =>
      let (seen, later) := serve steps []
      (none :: seen, answers ++ later)
    | (answers, some (request, rest)) =>
      let (saw, answer) := step.take request
      let (seen, later) := serve steps rest
      (saw :: seen, answers ++ answer :: later)

end Manual

end Provision
