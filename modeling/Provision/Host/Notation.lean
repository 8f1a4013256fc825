import Provision.Host.Basic

/-!
# Types as text

A type without parts is written as its name, and one with parts with them in angle brackets:
`Option<Vec<int>>`, `Union<int,string>`. Other names are looked up in a table, and one that is
not in the table is the name of a record.
-/

namespace Provision

namespace HostType

def ofName? : String → Option HostType
  | "bool" => some .bool
  | "int" => some .int
  | "number" => some .number
  | "string" => some .string
  | "any" => some .any
  | "json" => some .json
  | "asset" => some .asset
  | "archive" => some .archive
  | "assetOrArchive" => some .file
  | "resource" => some .resource
  | _ => none

/-- The characters before and after the first comma that stands outside all brackets. -/
def splitComma : Nat → List Char → List Char × List Char
  | _, [] => ([], [])
  | depth, c :: rest =>
    if c = ',' ∧ depth = 0 then ([], rest)
    else
      let depth := if c = '<' then depth + 1 else if c = '>' then depth - 1 else depth
      let (before, after) := splitComma depth rest
      (c :: before, after)

/-- Read a type. The brackets nest less deep than the text is long. -/
def readWithin (known : List (String × HostType)) : Nat → List Char → HostType
  | 0, _ => .any
  | depth + 1, cs =>
    let name := String.ofList (cs.takeWhile (· ≠ '<'))
    let inner := ((cs.dropWhile (· ≠ '<')).drop 1).dropLast
    let part (cs : List Char) : HostType := readWithin known depth cs
    match name with
    | "Option" => .option (part inner)
    | "Vec" => .list (part inner)
    | "Map" => .map (part inner)
    | "Output" => .output (part inner)
    | "Union" =>
      let (first, second) := splitComma 0 inner
      .union (part first) (part second)
    | name => ((ofName? name).or (known.lookup name)).getD (.record name)

def ofText (known : List (String × HostType)) (text : String) : HostType :=
  readWithin known (text.length + 1) text.toList

end HostType

end Provision
