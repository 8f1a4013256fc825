/-!
# Resource names

A URN `urn:pulumi:{stack}::{project}::{qualified type}::{name}` names a resource. The qualified
type is the chain of the ancestors' types and the resource's own, separated by `$`; children of
the root stack start a chain of their own. A type token has three parts separated by colons, of
which the first is the package. Both are read from their right ends, so that the parts may hold
almost any text.
-/

namespace Provision

def rootStackType : String := "pulumi:pulumi:Stack"

def providerType (package : String) : String := "pulumi:providers:" ++ package

/-- What provider types begin with. -/
def providerTypeStart : String := "pulumi:providers:"

namespace Urn

/-- Split at the last `::`. -/
def splitLast : List Char → Option (List Char × List Char)
  | [] => none
  | c :: rest =>
    match splitLast rest with
    | some (before, after) => some (c :: before, after)
    | none =>
      match c, rest with
      | ':', ':' :: after => some ([], after)
      | _, _ => none

/-- The characters after the last `$`, all of them if there is none. -/
def afterLastDollar (cs : List Char) : List Char := (cs.reverse.takeWhile (· ≠ '$')).reverse

/-- What a parent's URN puts before the type of its children: its own text without the name,
unless it is a root stack. -/
def qualifier (parent : List Char) : Option (List Char) :=
  match splitLast parent with
  | some (before, _) =>
    if ("::" ++ rootStackType).toList.isSuffixOf before then none else some before
  | none => none

def create (name type : String) (parent : Option String) (project stack : String) : String :=
  match parent.bind (fun p => qualifier p.toList) with
  | some before => String.ofList before ++ "$" ++ type ++ "::" ++ name
  | none => "urn:pulumi:" ++ stack ++ "::" ++ project ++ "::" ++ type ++ "::" ++ name

/-- The type, without the qualifier, and the name in a URN. -/
def parse? (urn : String) : Option (String × String) := do
  let (before, name) ← splitLast urn.toList
  let (_, qualified) ← splitLast before
  some (String.ofList (afterLastDollar qualified), String.ofList name)

end Urn

/-- The package of a type token; `none` if the token has not three parts. -/
def packageOf? (type : String) : Option String :=
  let cs := type.toList
  if cs.count ':' = 2 then some (String.ofList (cs.takeWhile (· ≠ ':'))) else none

end Provision
