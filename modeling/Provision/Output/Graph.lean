import Provision.Output.Basic

/-!
# Slots and cells

The outputs of a deployment and their observation over time. A slot is the writing end of an
output: it is completed once, by data or by a failure, and a slot that is dropped before that
fails. A cell holds an output defined over slots and earlier cells, and remembers what an
observation has found.
-/

namespace Provision

/-- The writing end of an output. -/
structure Slot (V : Type) where
  name : String
  /-- What it was completed with. -/
  outcome : Option (Settled V)

namespace Slot

variable {V : Type}

def isResolved (slot : Slot V) : Bool := slot.outcome.isSome

/-- Complete a slot; only the first attempt counts. -/
def complete (slot : Slot V) (outcome : Settled V) : Except Failure (Slot V) :=
  match slot.outcome with
  | some _ => .error (.alreadyResolved slot.name)
  | none => .ok { slot with outcome := some outcome }

/-- The failure of a slot that nobody can complete any more. -/
def dropped (name : String) : Failure :=
  .registrationFailed name "completion slot dropped before it was resolved"

def drop (slot : Slot V) : Slot V :=
  match slot.outcome with
  | some _ => slot
  | none => { slot with outcome := some (.error (dropped slot.name)) }

end Slot

/-- An output defined by the program, with the number of functions that ran for it. -/
structure Cell (V : Type) where
  output : Output V
  calls : Nat

structure Graph (V : Type) where
  slots : List (Slot V)
  cells : List (Cell V)

namespace Graph

variable {V : Type}

def empty : Graph V := ⟨[], []⟩

def addSlot (name : String) (graph : Graph V) : Nat × Graph V :=
  (graph.slots.length, { graph with slots := graph.slots ++ [⟨name, none⟩] })

/-- Define an output; its sources are slots and cells that exist. -/
def define (output : Output V) (graph : Graph V) : Source × Graph V :=
  (.cell graph.cells.length, { graph with cells := graph.cells ++ [⟨output, 0⟩] })

/-- Complete a slot, with data or with a failure. A slot that does not exist stays so. -/
def complete (number : Nat) (outcome : Settled V) (graph : Graph V) :
    Except Failure Unit × Graph V :=
  match graph.slots[number]? with
  | none => (.ok (), graph)
  | some slot =>
    match slot.complete outcome with
    | .error cause => (.error cause, graph)
    | .ok slot => (.ok (), { graph with slots := graph.slots.set number slot })

def isResolved (number : Nat) (graph : Graph V) : Bool :=
  match graph.slots[number]? with
  | none => false
  | some slot => slot.isResolved

def drop (number : Nat) (graph : Graph V) : Graph V :=
  { graph with slots := graph.slots.modify number Slot.drop }

/-- Remember what an observation of a cell has found. -/
def store (number : Nat) (polled : Output.Polled V) (graph : Graph V) : Graph V :=
  { graph with
    cells := graph.cells.modify number fun cell => ⟨polled.output, cell.calls + polled.calls⟩ }

/-- Observe a source, following cells at most `depth` times. -/
def observeWithin : Nat → Source → Graph V → Option (Settled V) × Graph V
  | _, .slot number, graph => (graph.slots[number]?.bind Slot.outcome, graph)
  | 0, .cell _, graph => (none, graph)
  | depth + 1, .cell number, graph =>
    match graph.cells[number]? with
    | none => (none, graph)
    | some cell =>
      let (polled, graph) := cell.output.pollWith (observeWithin depth) graph
      (polled.output.result?, graph.store number polled)

/-- Observe a source. Cells refer to earlier cells only, so a chain of them is no longer than the
number of the first. -/
def observe (source : Source) (graph : Graph V) : Option (Settled V) × Graph V :=
  observeWithin (graph.cells.length + 1) source graph

/-- The result of a source as it is now, without remembering it. -/
def peek (source : Source) (graph : Graph V) : Option (Settled V) := (graph.observe source).1

def calls (source : Source) (graph : Graph V) : Nat :=
  match source with
  | .slot _ => 0
  | .cell number => ((graph.cells[number]?).map Cell.calls).getD 0

end Graph

end Provision
