import Provision.Json.Basic
import Provision.Number.Decimal

/-!
# Writing JSON text

Documents are written without blanks, the members of an object in their order. Only the quote,
the backslash and the characters below U+0020 are escaped.
-/

namespace Provision.Json

/-- The hexadecimal digit of a number below 16, in lower case. -/
def hexChar (n : Nat) : Char := Nat.digitChar (n % 16)

def escapeChar (c : Char) : List Char :=
  if c = '"' then ['\\', '"']
  else if c = '\\' then ['\\', '\\']
  else if c = '\x08' then ['\\', 'b']
  else if c = '\x0c' then ['\\', 'f']
  else if c = '\n' then ['\\', 'n']
  else if c = '\r' then ['\\', 'r']
  else if c = '\t' then ['\\', 't']
  else if c.toNat < 0x20 then
    ['\\', 'u', '0', '0', hexChar (c.toNat / 16), hexChar (c.toNat % 16)]
  else [c]

def quote (s : String) : String :=
  "\"" ++ String.ofList (s.toList.flatMap escapeChar) ++ "\""

def numberText : JsonNumber → String
  | .integer i _ => toString i
  | .float x => x.documentText

mutual

def write : Json → String
  | .null => "null"
  | .bool b => if b then "true" else "false"
  | .number n => numberText n
  | .string s => quote s
  | .array xs => "[" ++ writeItems xs ++ "]"
  | .object ms => "\x7b" ++ writeMembers ms ++ "\x7d"

/-- Items, separated by commas. -/
def writeItems : List Json → String
  | [] => ""
  | [x] => write x
  | x :: y :: rest => write x ++ "," ++ writeItems (y :: rest)

def writeMembers : List (String × Json) → String
  | [] => ""
  | [(k, x)] => quote k ++ ":" ++ write x
  | (k, x) :: m :: rest => quote k ++ ":" ++ write x ++ "," ++ writeMembers (m :: rest)

end

/-- A line break and two blanks for each level. -/
def newLine (level : Nat) : String := "\n" ++ String.ofList (List.replicate (2 * level) ' ')

mutual

/-- The text of a document with every item and member on a line of its own, starting at a level. -/
def writeIndented (level : Nat) : Json → String
  | .array [] => "[]"
  | .array (x :: xs) =>
    "[" ++ newLine (level + 1) ++ writeIndented (level + 1) x ++
      writeIndentedItems (level + 1) xs ++ newLine level ++ "]"
  | .object [] => "\x7b\x7d"
  | .object ((k, x) :: ms) =>
    "\x7b" ++ newLine (level + 1) ++ quote k ++ ": " ++ writeIndented (level + 1) x ++
      writeIndentedMembers (level + 1) ms ++ newLine level ++ "\x7d"
  | .null => "null"
  | .bool b => if b then "true" else "false"
  | .number n => numberText n
  | .string s => quote s

/-- Further items, each after a comma. -/
def writeIndentedItems (level : Nat) : List Json → String
  | [] => ""
  | x :: xs => "," ++ newLine level ++ writeIndented level x ++ writeIndentedItems level xs

def writeIndentedMembers (level : Nat) : List (String × Json) → String
  | [] => ""
  | (k, x) :: ms =>
    "," ++ newLine level ++ quote k ++ ": " ++ writeIndented level x ++
      writeIndentedMembers level ms

end

end Provision.Json
