import Provision.Json.Codec

/-!
# Settings of a deployment

The project and stack that a program deploys, and how. They come as a document or from
environment variables; what is missing keeps its default.
-/

namespace Provision

structure Settings where
  project : String := "project"
  stack : String := "dev"
  organization : Option String := none
  /-- A preview: the engine may answer with unknown values. -/
  dryRun : Bool := false
  /-- How many requests may be under way at once; zero means any number. -/
  parallel : Nat := 0
  deriving DecidableEq, Repr

namespace Settings

def rootStackName (settings : Settings) : String := settings.project ++ "-" ++ settings.stack

/-- The greatest value of `parallel`, plus one. -/
def parallelBound : Nat := Number.twoPow 64

def ofJson? (document : Json) : Option Settings := do
  let members ← Codec.membersOf ["project", "stack", "organization", "dryRun", "parallel"] document
  let project ← Codec.readMember members "project" "project"
  let stack ← Codec.readMember members "stack" "dev"
  let organization ← Codec.readMember members "organization" none
  let dryRun ← Codec.readMember members "dryRun" false
  let parallel ← match members.lookup "parallel" with
    | none => some 0
    | some j => Codec.decodeNat parallelBound j
  some { project, stack, organization, dryRun, parallel }

def projectVariable : String := "IAC_PROJECT"
def stackVariable : String := "IAC_STACK"
def organizationVariable : String := "IAC_ORGANIZATION"
def dryRunVariable : String := "IAC_DRY_RUN"
def parallelVariable : String := "IAC_PARALLEL"

/-- Whether a variable's text asks for a preview, in any case of its ASCII letters. -/
def isYes (text : String) : Bool :=
  let lower := text.toList.map Char.toLower
  lower == ['1'] || lower == ['t', 'r', 'u', 'e'] || lower == ['y', 'e', 's']

/-- The number that decimal digits write, below the bound; `none` for any other text. -/
def parseParallel (text : String) : Option Nat :=
  let digits := match text.toList with
    | '+' :: rest => rest
    | cs => cs
  if digits.isEmpty || !digits.all Char.isDigit then none
  else
    let n := digits.foldl (fun acc c => acc * 10 + (c.toNat - '0'.toNat)) 0
    if n < parallelBound then some n else none

/-- The settings in the environment. A number that cannot be read counts as not given. -/
def ofEnvironment (lookup : String → Option String) : Settings :=
  { project := (lookup projectVariable).getD "project"
    stack := (lookup stackVariable).getD "dev"
    organization := lookup organizationVariable
    dryRun := ((lookup dryRunVariable).map isYes).getD false
    parallel := ((lookup parallelVariable).bind parseParallel).getD 0 }

end Settings

end Provision
