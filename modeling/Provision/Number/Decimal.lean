import Provision.Number.Basic

/-!
# Shortest decimals

The decimal text of a finite number has the fewest digits that read back as the same number,
and of those the nearest. The real numbers that round to `±M · 2^q` form an interval that
includes its ends exactly when `M` is even; for one digit, two digits and so on the two grid
points next to the number are tested against it in exact arithmetic, and seventeen digits
always suffice. What is left to a format is the choice between two equally near points, and
where positional notation ends.
-/

namespace Provision.Number

/-- A positive decimal `digits · 10^exponent`. -/
structure Decimal where
  digits : Nat
  exponent : Int
  deriving DecidableEq, Repr

/-- Which of two equally near decimals is taken. -/
inductive TieRule where
  | even
  | up
  deriving DecidableEq, Repr

/-- The interval that rounds to a number, and the number, as three numerators over one
denominator. -/
structure RoundingInterval where
  low : Nat
  value : Nat
  high : Nat
  denominator : Nat
  closed : Bool

/-- The reals that round to the magnitude of `x`: half a unit above, and below half a unit or, at
a power of two, a quarter. -/
def Finite.roundingInterval (x : Finite) : RoundingInterval :=
  let widen := min (52 - x.mantissa.log2) (x.exponent + 1074).toNat
  let m := x.mantissa * twoPow widen
  let e := x.exponent - widen
  let below := if m = twoPow 52 ∧ -1074 < e then 1 else 2
  let up := twoPow (e - 2).toNat
  { low := (4 * m - below) * up
    value := 4 * m * up
    high := (4 * m + 2) * up
    denominator := twoPow (2 - e).toNat
    closed := m % 2 = 0 }

/-- Does `n / d`, a point given with its own denominator, lie inside? -/
def RoundingInterval.contains (i : RoundingInterval) (n d : Nat) : Bool :=
  if i.closed then i.low * d ≤ n * i.denominator ∧ n * i.denominator ≤ i.high * d
  else i.low * d < n * i.denominator ∧ n * i.denominator < i.high * d

/-- The greatest `k` with `10^k ≤ n / d`, from an estimate that is at most one off. -/
def decimalOrder (n d : Nat) : Int :=
  let estimate : Int := ((n.log2 : Int) - d.log2) * 30103 / 100000
  let reaches (k : Int) : Bool := decide (d * tenPow k.toNat ≤ n * tenPow (-k).toNat)
  if reaches (estimate + 1) then estimate + 1
  else if reaches estimate then estimate
  else estimate - 1

/-- The grid point of `10^p` nearest to the value among those that lie inside the interval. -/
def RoundingInterval.pointAt (i : RoundingInterval) (tie : TieRule) (p : Int) : Option Nat :=
  let n := i.value * tenPow (-p).toNat
  let d := i.denominator * tenPow p.toNat
  let c := n / d
  let r := n % d
  let inside (k : Nat) : Bool := i.contains (k * tenPow p.toNat) (tenPow (-p).toNat)
  match inside c, inside (c + 1) with
  | true, false => some c
  | false, true => some (c + 1)
  | false, false => none
  | true, true =>
    if 2 * r < d then some c
    else if d < 2 * r then some (c + 1)
    else match tie with
      | .even => some (if c % 2 = 0 then c else c + 1)
      | .up => some (c + 1)

/-- The first grid with a point inside the interval, starting with `10^p`. -/
def RoundingInterval.search (i : RoundingInterval) (tie : TieRule) : Nat → Int → Decimal
  | 0, p => ⟨i.value * tenPow (-p).toNat / (i.denominator * tenPow p.toNat), p⟩
  | fuel + 1, p =>
    match i.pointAt tie p with
    | some digits => ⟨digits, p⟩
    | none => i.search tie fuel (p - 1)

/-- Drop the final zeros of a digit sequence, at most `fuel` of them. -/
def Decimal.dropZeros : Nat → Decimal → Decimal
  | 0, d => d
  | fuel + 1, d =>
    if d.digits % 10 = 0 then dropZeros fuel ⟨d.digits / 10, d.exponent + 1⟩ else d

/-- The shortest decimal that reads back as the magnitude of `x`, which is not zero. -/
def Finite.shortest (tie : TieRule) (x : Finite) : Decimal :=
  let interval := x.roundingInterval
  (interval.search tie 17 (decimalOrder interval.value interval.denominator)).dropZeros 17

def zeros (count : Nat) : List Char := List.replicate count '0'

def digitChars (n : Nat) : List Char := Nat.toDigits 10 n

/-- Positional notation, without a point when nothing follows it. -/
def Decimal.positional (d : Decimal) : List Char :=
  let ds := digitChars d.digits
  let point : Int := ds.length + d.exponent
  if 0 ≤ d.exponent then ds ++ zeros d.exponent.toNat
  else if 0 < point then ds.take point.toNat ++ '.' :: ds.drop point.toNat
  else '0' :: '.' :: zeros (-point).toNat ++ ds

/-- Scientific notation: one digit before the point, and an exponent with its sign. -/
def Decimal.scientific (d : Decimal) : List Char :=
  let ds := digitChars d.digits
  let order : Int := ds.length + d.exponent - 1
  let fraction := if ds.length = 1 then [] else '.' :: ds.drop 1
  let sign := if order < 0 then '-' else '+'
  ds.take 1 ++ fraction ++ 'e' :: sign :: digitChars order.natAbs

/-- The text in a document: positional while the first digit's exponent is from -5 to 15, with
`.0` after an integral number, else scientific; of two equally near decimals the even one. -/
def Finite.documentText (x : Finite) : String :=
  let magnitude :=
    if x.mantissa = 0 then ['0', '.', '0']
    else
      let d := x.shortest .even
      let order : Int := (digitChars d.digits).length + d.exponent - 1
      if -5 ≤ order ∧ order < 16 then
        d.positional ++ (if 0 ≤ d.exponent then ['.', '0'] else [])
      else d.scientific
  String.ofList (if x.negative then '-' :: magnitude else magnitude)

/-- The text in a message: always positional, an integral number without a point. -/
def messageText : Number → String
  | .nan => "NaN"
  | .infinite negative => if negative then "-inf" else "inf"
  | .finite x =>
    let magnitude := if x.mantissa = 0 then ['0'] else (x.shortest .up).positional
    String.ofList (if x.negative then '-' :: magnitude else magnitude)

end Provision.Number
