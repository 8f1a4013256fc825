import Provision.Ascending
import Provision.Failure

/-!
# The data of an output

What an output is once it is settled: data, or a failure. Data may lack its value while that
is not known; it is secret or not, and it depends on resources, which stay known in either
case.
-/

namespace Provision

/-- A resource is known by its number in the order of construction. -/
abbrev Key := Nat

structure Data (α : Type) where
  /-- Missing while it is not known. -/
  value : Option α
  secret : Bool
  /-- The resources the value depends on, ascending. -/
  dependencies : List Key
  deriving DecidableEq, Repr

abbrev Settled (α : Type) := Except Failure (Data α)

namespace Data

variable {α β : Type}

/-- A value that is known, no secret, and depends on nothing. -/
def known (value : α) : Data α := ⟨some value, false, []⟩

def unknown : Data α := ⟨none, false, []⟩

def map (f : α → β) (data : Data α) : Data β :=
  ⟨data.value.map f, data.secret, data.dependencies⟩

def asSecret (data : Data α) : Data α := { data with secret := true }

def dependingOn (keys : List Key) (data : Data α) : Data α :=
  { data with dependencies := Ascending.union data.dependencies keys }

/-- `data`, in the shadow of what it was computed from: secret if that is, and depending on all
that it depends on. -/
def after (secret : Bool) (dependencies : List Key) (data : Data α) : Data α :=
  ⟨data.value, secret || data.secret, Ascending.union dependencies data.dependencies⟩

/-- The values of all, if all are known. -/
def combine (all : List (Data α)) : Data (List α) :=
  ⟨all.mapM Data.value, all.any Data.secret,
    all.foldl (fun acc d => Ascending.union acc d.dependencies) []⟩

/-- Both values, if both are known. -/
def pair (left : Data α) (right : Data β) : Data (α × β) :=
  ⟨left.value.bind fun a => right.value.map fun b => (a, b), left.secret || right.secret,
    Ascending.union left.dependencies right.dependencies⟩

end Data

end Provision
