import Provision.Json.Writer
import Provision.Text.Unprintable

/-!
# Quoted text

Text between double quotes, as complaints list it: a quote and a backslash are escaped, and so
is every character that could not be seen.
-/

namespace Provision

namespace Quoted

/-- The hexadecimal digits of a number, at most `fuel + 1` of them, before `rest`. -/
def hexDigits : Nat → Nat → List Char → List Char
  | 0, n, rest => Json.hexChar (n % 16) :: rest
  | fuel + 1, n, rest =>
    let rest := Json.hexChar (n % 16) :: rest
    if n < 16 then rest else hexDigits fuel (n / 16) rest

/-- A character between quotes. A code point has at most six hexadecimal digits. -/
def character (c : Char) : List Char :=
  if c = '"' then ['\\', '"']
  else if c = '\\' then ['\\', '\\']
  else if c = '\n' then ['\\', 'n']
  else if c = '\r' then ['\\', 'r']
  else if c = '\t' then ['\\', 't']
  else if c.toNat = 0 then ['\\', '0']
  else if Unprintable.contains c then
    '\\' :: 'u' :: '\x7b' :: hexDigits 5 c.toNat ['\x7d']
  else [c]

def text (s : String) : String :=
  String.ofList ('"' :: (s.toList.flatMap character ++ ['"']))

def list (texts : List String) : String :=
  "[" ++ String.intercalate ", " (texts.map text) ++ "]"

end Quoted

end Provision
