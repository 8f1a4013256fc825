import Provision.Json.Basic

/-!
# Reading JSON text

The grammar is the standard's, with four readings of its open ends. An integer of the 64-bit
ranges is kept; `-0`, a greater integer and every number with a point or an exponent become
binary64 numbers. Such a number is not rounded from its exact decimal value: the digits that
fit into 64 bits form a significand, which is scaled once by a power of ten. A number too
large for the format is refused, and of two members with one name the last one stays.

Readers take the remaining characters and give back what they read with the rest, or `none`.
-/

namespace Provision.Json

/-- The four characters that may stand between tokens. -/
def isBlank (c : Char) : Bool := c == ' ' || c == '\n' || c == '\t' || c == '\r'

def skipBlanks (cs : List Char) : List Char := cs.dropWhile isBlank

def digit? (c : Char) : Option Nat :=
  if '0' ≤ c ∧ c ≤ '9' then some (c.toNat - '0'.toNat) else none

/-- The value of a hexadecimal digit of either case. -/
def hexDigit? (c : Char) : Option Nat :=
  if '0' ≤ c ∧ c ≤ '9' then some (c.toNat - '0'.toNat)
  else if 'a' ≤ c ∧ c ≤ 'f' then some (c.toNat - 'a'.toNat + 10)
  else if 'A' ≤ c ∧ c ≤ 'F' then some (c.toNat - 'A'.toNat + 10)
  else none

def hexUnit : List Char → Option (Nat × List Char)
  | a :: b :: c :: d :: rest => do
    let a ← hexDigit? a
    let b ← hexDigit? b
    let c ← hexDigit? c
    let d ← hexDigit? d
    some (((a * 16 + b) * 16 + c) * 16 + d, rest)
  | _ => none

/-- The character after `\u`: one unit, or two that form a surrogate pair. -/
def unicodeEscape (cs : List Char) : Option (Char × List Char) := do
  let (unit, rest) ← hexUnit cs
  if 0xDC00 ≤ unit ∧ unit ≤ 0xDFFF then none
  else if 0xD800 ≤ unit ∧ unit ≤ 0xDBFF then
    match rest with
    | '\\' :: 'u' :: rest => do
      let (low, rest) ← hexUnit rest
      if 0xDC00 ≤ low ∧ low ≤ 0xDFFF then
        some (Char.ofNat (0x10000 + (unit - 0xD800) * 0x400 + (low - 0xDC00)), rest)
      else none
    | _ => none
  else some (Char.ofNat unit, rest)

def escaped : List Char → Option (Char × List Char)
  | '"' :: rest => some ('"', rest)
  | '\\' :: rest => some ('\\', rest)
  | '/' :: rest => some ('/', rest)
  | 'b' :: rest => some ('\x08', rest)
  | 'f' :: rest => some ('\x0c', rest)
  | 'n' :: rest => some ('\n', rest)
  | 'r' :: rest => some ('\r', rest)
  | 't' :: rest => some ('\t', rest)
  | 'u' :: rest => unicodeEscape rest
  | _ => none

/-- The characters up to the closing quote. Each one takes at least one character of the text,
so its length is enough fuel. -/
def stringBody : Nat → List Char → Option (List Char × List Char)
  | 0, _ => none
  | _ + 1, [] => none
  | fuel + 1, c :: rest =>
    if c = '"' then some ([], rest)
    else if c = '\\' then do
      let (c, rest) ← escaped rest
      let (cs, rest) ← stringBody fuel rest
      some (c :: cs, rest)
    else if c.toNat < 0x20 then none
    else do
      let (cs, rest) ← stringBody fuel rest
      some (c :: cs, rest)

/-- A string whose opening quote has been read. -/
def quoted (cs : List Char) : Option (String × List Char) := do
  let (text, rest) ← stringBody (cs.length + 1) cs
  some (String.ofList text, rest)

def maxSignificand : Nat := Number.twoPow 64 - 1

/-- Scale a significand by a power of ten: one multiplication or division by a rounded power, and
below `10^(-308)` a division by `10^308` for each further 308 places until zero is reached.
`none` if the result is too large. -/
def scaleBy10 : (steps : Nat) → Number.Finite → Int → Option Number.Finite
  | steps, x, exponent =>
    let power (k : Nat) : Number := Number.ofInt (Number.tenPow k)
    if exponent.natAbs ≤ 308 then
      match power exponent.natAbs with
      | .finite p =>
        match if 0 ≤ exponent then x.mul p else x.div p with
        | .finite y => some y
        | _ => none
      | _ => none
    else if x.isZero then some x
    else if 0 ≤ exponent then none
    else match steps, power 308 with
      | steps + 1, .finite p =>
        match x.div p with
        | .finite y => scaleBy10 steps y (exponent + 308)
        | _ => none
      | _, _ => none

/-- The number `±significand · 10^exponent`. Three divisions by `10^308` take any significand of
64 bits to zero. -/
def floatOf (negative : Bool) (significand : Nat) (exponent : Int) : Option JsonNumber :=
  match Number.ofInt significand with
  | .finite x => (scaleBy10 3 x exponent).map fun y => .float { y with negative := negative }
  | _ => none

/-- The digits at the front, and the rest. -/
def digits (cs : List Char) : List Nat × List Char :=
  (cs.takeWhile (fun c => (digit? c).isSome) |>.filterMap digit?,
   cs.dropWhile (fun c => (digit? c).isSome))

/-- Append digits to a significand as long as it fits into 64 bits, and give back the digits
that are left. -/
def accumulate : Nat → List Nat → Nat × List Nat
  | significand, [] => (significand, [])
  | significand, d :: ds =>
    if maxSignificand < significand * 10 + d then (significand, d :: ds)
    else accumulate (significand * 10 + d) ds

/-- The exponent after `e`, added to what the digits before it imply. An exponent beyond 31 bits
is refused unless the number is zero or tiny, and then the number is zero. -/
def exponentPart (negative : Bool) (significand : Nat) (implied : Int) (cs : List Char) :
    Option (JsonNumber × List Char) :=
  let (below, cs) := match cs with
    | '+' :: rest => (false, rest)
    | '-' :: rest => (true, rest)
    | _ => (false, cs)
  let (ds, rest) := digits cs
  if ds.isEmpty then none
  else
    let exponent : Nat := ds.foldl (fun acc d => acc * 10 + d) 0
    if Number.twoPow 31 ≤ exponent then
      if significand ≠ 0 ∧ !below then none
      else some (.float (.zero negative), rest)
    else
      (floatOf negative significand (if below then implied - exponent else implied + exponent)).map
        fun n => (n, rest)

/-- What may follow the digits of a number that is not an integer. -/
def afterDigits (negative : Bool) (significand : Nat) (implied : Int) :
    List Char → Option (JsonNumber × List Char)
  | 'e' :: rest => exponentPart negative significand implied rest
  | 'E' :: rest => exponentPart negative significand implied rest
  | rest => (floatOf negative significand implied).map fun n => (n, rest)

/-- The digits after a point; those that no longer fit are dropped. -/
def fractionPart (negative : Bool) (significand : Nat) (implied : Int) (cs : List Char) :
    Option (JsonNumber × List Char) :=
  let (ds, rest) := digits cs
  if ds.isEmpty then none
  else
    let (significand, left) := accumulate significand ds
    afterDigits negative significand (implied - (ds.length - left.length : Nat)) rest

def numberPart (negative : Bool) (cs : List Char) : Option (JsonNumber × List Char) :=
  let (ds, rest) := digits cs
  match ds with
  | [] => none
  | 0 :: _ :: _ => none
  | ds =>
    let (significand, left) := accumulate 0 ds
    let implied : Int := left.length
    match rest with
    | '.' :: rest => fractionPart negative significand implied rest
    | rest =>
      let value : Int := if negative then -significand else significand
      if h : left.isEmpty ∧ rest.head? ≠ some 'e' ∧ rest.head? ≠ some 'E' ∧
          ¬ (negative ∧ significand = 0) ∧ FitsWord value then
        some (.integer value h.2.2.2.2, rest)
      else afterDigits negative significand implied rest

/-- The characters of `word`, all of them in their order. -/
def keyword : List Char → List Char → Option (List Char)
  | [], rest => some rest
  | c :: cs, d :: ds => if c = d then keyword cs ds else none
  | _ :: _, [] => none

mutual

/-- One document. Every nested one takes at least one character, so the length of the text is
enough fuel. -/
def document : Nat → List Char → Option (Json × List Char)
  | 0, _ => none
  | fuel + 1, cs =>
    match skipBlanks cs with
    | 'n' :: rest => (keyword ['u', 'l', 'l'] rest).map fun rest => (.null, rest)
    | 't' :: rest => (keyword ['r', 'u', 'e'] rest).map fun rest => (.bool true, rest)
    | 'f' :: rest => (keyword ['a', 'l', 's', 'e'] rest).map fun rest => (.bool false, rest)
    | '"' :: rest => (quoted rest).map fun (s, rest) => (.string s, rest)
    | '-' :: rest => (numberPart true rest).map fun (n, rest) => (.number n, rest)
    | '[' :: rest =>
      match skipBlanks rest with
      | ']' :: rest => some (.array [], rest)
      | rest => (items fuel rest).map fun (xs, rest) => (.array xs, rest)
    | '\x7b' :: rest =>
      match skipBlanks rest with
      | '\x7d' :: rest => some (.object [], rest)
      | rest => (members fuel rest).map fun (ms, rest) => (.ofMembers ms, rest)
    | rest => (numberPart false rest).map fun (n, rest) => (.number n, rest)

/-- The items of an array up to its closing bracket. -/
def items : Nat → List Char → Option (List Json × List Char)
  | 0, _ => none
  | fuel + 1, cs => do
    let (x, rest) ← document fuel cs
    match skipBlanks rest with
    | ']' :: rest => some ([x], rest)
    | ',' :: rest => do
      let (xs, rest) ← items fuel rest
      some (x :: xs, rest)
    | _ => none

/-- The members of an object up to its closing bracket. -/
def members : Nat → List Char → Option (List (String × Json) × List Char)
  | 0, _ => none
  | fuel + 1, cs => do
    match skipBlanks cs with
    | '"' :: rest => do
      let (name, rest) ← quoted rest
      match skipBlanks rest with
      | ':' :: rest => do
        let (value, rest) ← document fuel rest
        match skipBlanks rest with
        | '\x7d' :: rest => some ([(name, value)], rest)
        | ',' :: rest => do
          let (ms, rest) ← members fuel rest
          some ((name, value) :: ms, rest)
        | _ => none
      | _ => none
    | _ => none

end

/-- The document that a text is, if nothing but blanks stands around it. -/
def read? (text : String) : Option Json :=
  let cs := text.toList
  match document (cs.length + 1) cs with
  | some (j, rest) => if (skipBlanks rest).isEmpty then some j else none
  | none => none

end Provision.Json
