/-!
# Numbers: exact binary64 values

A number of the data format is an IEEE 754 binary64 datum. A finite one is kept exactly, as
`±m · 2^e` with `m` odd, so that every number but zero has one representation, a number is
integral exactly when `e` is not negative, and equality is decidable. Arithmetic is done on
exact ratios and rounded once, to nearest, ties to even.
-/

namespace Provision

namespace Number

def twoPow (k : Nat) : Nat := Nat.pow 2 k

def tenPow (k : Nat) : Nat := Nat.pow 10 k

/-- `m · 2^e` is a finite binary64 magnitude in lowest form: zero, or an odd mantissa of at most
53 bits whose leading and last bit lie in the format's range. -/
def Canonical (m : Nat) (e : Int) : Prop :=
  m = 0 ∧ e = 0 ∨ m % 2 = 1 ∧ m < twoPow 53 ∧ -1074 ≤ e ∧ (m.log2 : Int) + e ≤ 1023

instance (m : Nat) (e : Int) : Decidable (Canonical m e) := by
  unfold Canonical; exact inferInstance

/-- A finite number `±mantissa · 2^exponent`; zero keeps its sign. -/
structure Finite where
  negative : Bool
  mantissa : Nat
  exponent : Int
  canonical : Canonical mantissa exponent
  deriving DecidableEq, Repr

end Number

inductive Number where
  | nan
  | infinite (negative : Bool)
  | finite (x : Number.Finite)
  deriving DecidableEq, Repr

namespace Number

def Finite.zero (negative : Bool) : Finite := ⟨negative, 0, 0, .inl ⟨rfl, rfl⟩⟩

def zero : Number := .finite (.zero false)

instance : Inhabited Number := ⟨zero⟩

/-- Halve `m` while it is even, at most `fuel` times, counting the halvings in the exponent. -/
def lowestForm : (fuel m : Nat) → (e : Int) → Nat × Int
  | 0, m, e => (m, e)
  | fuel + 1, m, e => if m % 2 = 0 then lowestForm fuel (m / 2) (e + 1) else (m, e)

/-- The number `±m · 2^e`, infinite if it is outside the format. -/
def ofParts (negative : Bool) (m : Nat) (e : Int) : Number :=
  if m = 0 then .finite (.zero negative)
  else
    let low := lowestForm m.log2 m e
    if h : Canonical low.1 low.2 then .finite ⟨negative, low.1, low.2, h⟩ else .infinite negative

/-- The quotient `n / d` rounded to the nearest integer, a tie to the even one. -/
def divideToEven (n d : Nat) : Nat :=
  let q := n / d
  let r := n % d
  if d < 2 * r ∨ d = 2 * r ∧ q % 2 = 1 then q + 1 else q

/-- The ratio `n · 2^e / d` as a pair of a numerator and a denominator. -/
def scaled (n d : Nat) (e : Int) : Nat × Nat := (n * twoPow e.toNat, d * twoPow (-e).toNat)

/-- The number nearest to `±n / d`, a tie to the even mantissa. The unit in the last place is
`2^(lead - 52)`, where `lead` is the exponent of the leading bit, but not below `2^(-1074)`. -/
def ofRatio (negative : Bool) (n d : Nat) : Number :=
  if n = 0 then .finite (.zero negative)
  else
    let estimate : Int := (n.log2 : Int) - d.log2
    let shifted := scaled n d (-estimate)
    let lead := if shifted.1 < shifted.2 then estimate - 1 else estimate
    let unit := max (lead - 52) (-1074)
    let ratio := scaled n d (-unit)
    ofParts negative (divideToEven ratio.1 ratio.2) unit

/-- The number nearest to an integer; integers of magnitude up to `2^53` are exact. -/
def ofInt (i : Int) : Number :=
  if i.natAbs ≤ twoPow 53 then ofParts (decide (i < 0)) i.natAbs 0
  else ofRatio (decide (i < 0)) i.natAbs 1

instance (n : Nat) : OfNat Number n := ⟨ofInt n⟩

namespace Finite

def mul (x y : Finite) : Number :=
  let ratio := scaled (x.mantissa * y.mantissa) 1 (x.exponent + y.exponent)
  ofRatio (x.negative != y.negative) ratio.1 ratio.2

/-- The quotient by a number that is not zero, rounded once. -/
def div (x y : Finite) : Number :=
  let ratio := scaled x.mantissa y.mantissa (x.exponent - y.exponent)
  ofRatio (x.negative != y.negative) ratio.1 ratio.2

def isIntegral (x : Finite) : Bool := decide (0 ≤ x.exponent)

/-- The magnitude without its fractional part. -/
def floorMagnitude (x : Finite) : Nat :=
  x.mantissa * twoPow x.exponent.toNat / twoPow (-x.exponent).toNat

/-- The number without its fractional part. -/
def toInt (x : Finite) : Int :=
  if x.negative then -(x.floorMagnitude : Int) else x.floorMagnitude

/-- Whether the number is below zero; no zero is. -/
def isBelowZero (x : Finite) : Bool := x.negative && x.mantissa != 0

/-- Whether the number is a zero of either sign. -/
def isZero (x : Finite) : Bool := x.mantissa == 0

/-- The 64 bits of the number's interchange form: sign, biased exponent, trailing significand. -/
def bits (x : Finite) : Nat :=
  let sign := if x.negative then twoPow 63 else 0
  if x.mantissa = 0 then sign
  else
    let lead := (x.mantissa.log2 : Int) + x.exponent
    if -1022 ≤ lead then
      sign + (lead + 1023).toNat * twoPow 52 +
        (x.mantissa * twoPow (52 - x.mantissa.log2) - twoPow 52)
    else sign + x.mantissa * twoPow (x.exponent + 1074).toNat

end Finite

/-- Truncation towards zero; the sign stays, also on a zero. -/
def trunc : Number → Number
  | .finite x => if x.isIntegral then .finite x else ofParts x.negative x.floorMagnitude 0
  | x => x

/-- The integer that the number is, if it is one of magnitude at most `2^53`: the range in which
every integer is a number of its own. -/
def safeInteger? : Number → Option Int
  | .finite x => if x.isIntegral ∧ x.floorMagnitude ≤ twoPow 53 then some x.toInt else none
  | _ => none

def leastInt32 : Int := -2147483648

def greatestInt32 : Int := 2147483647

/-- The number as a 32-bit integer: truncated, kept inside the range, and `0` for `nan`. -/
def toInt32 : Number → Int
  | .nan => 0
  | .infinite negative => if negative then leastInt32 else greatestInt32
  | .finite x => max leastInt32 (min greatestInt32 x.toInt)

def isBelowZero : Number → Bool
  | .nan => false
  | .infinite negative => negative
  | .finite x => x.isBelowZero

def isFinite : Number → Bool
  | .finite _ => true
  | _ => false

/-- Equality as numbers: the two zeros are equal, and `nan` is not equal to itself. -/
def Same : Number → Number → Prop
  | .nan, _ | _, .nan => False
  | .finite x, .finite y => x = y ∨ x.mantissa = 0 ∧ y.mantissa = 0
  | x, y => x = y

end Number

end Provision
