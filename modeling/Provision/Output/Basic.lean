import Provision.Output.Data

/-!
# Outputs

An output is a value of a deployment that may not exist yet, written as an expression over
settled outputs and over sources: the slots that are filled from outside, and the cells that
hold the outputs defined before. Functions may produce further outputs.

`pollWith` observes an expression once. It rewrites what is settled, so a function that has run
does not run again, and an observation that has found a result keeps it; what still waits for
a source stays in the expression.
-/

namespace Provision

/-- What an output waits for: a slot, or a cell with an output defined before. -/
inductive Source where
  | slot (number : Nat)
  | cell (number : Nat)
  deriving DecidableEq, Repr

inductive Output (V : Type) where
  | settled (result : Settled V)
  | source (origin : Source)
  /-- A computation of the program's own; it runs when it is first observed. -/
  | async (result : Except Failure V) (dependencies : List Key)
  | map (f : V → V) (outer : Output V)
  /-- A function that produces an output, applied to a value. -/
  | apply (f : V → Output V) (outer : Output V)
  /-- An output in the shadow of another: secret if that is, and with its dependencies. -/
  | after (secret : Bool) (dependencies : List Key) (inner : Output V)
  | combine (collect : List V → V) (parts : List (Output V))
  | tuple (pair : V → V → V) (left right : Output V)
  | asSecret (inner : Output V)
  | withResources (dependencies : List Key) (inner : Output V)

namespace Output

variable {V : Type}

def create (value : V) : Output V := .settled (.ok (.known value))

def createSecret (value : V) : Output V := .settled (.ok (Data.known value).asSecret)

instance : Inhabited (Output V) := ⟨.settled (.ok .unknown)⟩

def unknown : Output V := .settled (.ok .unknown)

def failed (cause : Failure) : Output V := .settled (.error cause)

def ofData (data : Data V) : Output V := .settled (.ok data)

def result? : Output V → Option (Settled V)
  | .settled r => some r
  | _ => none

/-- The data of all parts, if all are settled and none has failed. -/
def allData : List (Output V) → Option (List (Data V))
  | [] => some []
  | .settled (.ok data) :: rest => (allData rest).map (data :: ·)
  | _ :: _ => none

/-- An expression after an observation, and how many functions ran. -/
structure Polled (V : Type) where
  output : Output V
  calls : Nat

/-- The parts of a combination after an observation. -/
structure PolledParts (V : Type) where
  failure : Option Failure
  parts : List (Output V)
  calls : Nat

/-- What becomes of an expression around an output that has been observed. -/
def Polled.within (inner : Polled V) (change : Data V → Data V) (rebuild : Output V → Output V) :
    Polled V :=
  match inner.output with
  | .settled (.ok data) => ⟨.settled (.ok (change data)), inner.calls⟩
  | .settled (.error cause) => ⟨.settled (.error cause), inner.calls⟩
  | output => ⟨rebuild output, inner.calls⟩

/-- Up to this many parts a combination fails with the first failure among its parts; a greater
one only after all parts before that one are settled. -/
def eagerParts : Nat := 30

mutual

/-- Observe an expression. `read` observes a source. -/
def pollWith {γ : Type} (read : Source → γ → Option (Settled V) × γ) :
    Output V → γ → Polled V × γ
  | .settled r, g => (⟨.settled r, 0⟩, g)
  | .source origin, g =>
    match read origin g with
    | (some r, g) => (⟨.settled r, 0⟩, g)
    | (none, g) => (⟨.source origin, 0⟩, g)
  | .async r dependencies, g =>
    (⟨.settled (r.map fun v => (Data.known v).dependingOn dependencies), 1⟩, g)
  | .map f outer, g =>
    let (p, g) := pollWith read outer g
    match p.output with
    | .settled (.ok data) =>
      (⟨.settled (.ok (data.map f)), p.calls + if data.value.isSome then 1 else 0⟩, g)
    | .settled (.error cause) => (⟨.settled (.error cause), p.calls⟩, g)
    | output => (⟨.map f output, p.calls⟩, g)
  | .apply f outer, g =>
    let (p, g) := pollWith read outer g
    match p.output with
    | .settled (.ok ⟨some v, secret, dependencies⟩) =>
      let (q, g) := pollWith read (f v) g
      let r := q.within (Data.after secret dependencies) (.after secret dependencies)
      (⟨r.output, p.calls + 1 + r.calls⟩, g)
    | .settled (.ok ⟨none, secret, dependencies⟩) =>
      (⟨.settled (.ok ⟨none, secret, dependencies⟩), p.calls⟩, g)
    | .settled (.error cause) => (⟨.settled (.error cause), p.calls⟩, g)
    | output => (⟨.apply f output, p.calls⟩, g)
  | .after secret dependencies inner, g =>
    let (p, g) := pollWith read inner g
    (p.within (Data.after secret dependencies) (.after secret dependencies), g)
  | .combine collect parts, g =>
    let (p, g) := pollParts read (decide (eagerParts < parts.length)) false parts g
    match p.failure, allData p.parts with
    | some cause, _ => (⟨.settled (.error cause), p.calls⟩, g)
    | none, some all => (⟨.settled (.ok ((Data.combine all).map collect)), p.calls⟩, g)
    | none, none => (⟨.combine collect p.parts, p.calls⟩, g)
  | .tuple pair left right, g =>
    let (p, g) := pollWith read left g
    match p.output with
    | .settled (.error cause) => (⟨.settled (.error cause), p.calls⟩, g)
    | left =>
      let (q, g) := pollWith read right g
      let calls := p.calls + q.calls
      match left, q.output with
      | _, .settled (.error cause) => (⟨.settled (.error cause), calls⟩, g)
      | .settled (.ok a), .settled (.ok b) =>
        (⟨.settled (.ok ((Data.pair a b).map fun v => pair v.1 v.2)), calls⟩, g)
      | left, right => (⟨.tuple pair left right, calls⟩, g)
  | .asSecret inner, g =>
    let (p, g) := pollWith read inner g
    (p.within Data.asSecret .asSecret, g)
  | .withResources dependencies inner, g =>
    let (p, g) := pollWith read inner g
    (p.within (Data.dependingOn dependencies) (.withResources dependencies), g)

/-- Observe the parts of a combination in their order. `patient` combinations do not look at a
failure while a part before it is `waiting`. -/
def pollParts {γ : Type} (read : Source → γ → Option (Settled V) × γ) (patient waiting : Bool) :
    List (Output V) → γ → PolledParts V × γ
  | [], g => (⟨none, [], 0⟩, g)
  | part :: rest, g =>
    let (p, g) := pollWith read part g
    match p.output, patient && waiting with
    | .settled (.error cause), false => (⟨some cause, .settled (.error cause) :: rest, p.calls⟩, g)
    | output, _ =>
      let (q, g) := pollParts read patient (waiting || output.result?.isNone) rest g
      (⟨q.failure, output :: q.parts, p.calls + q.calls⟩, g)

end

end Output

end Provision
