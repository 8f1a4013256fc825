import Mathlib.Algebra.Group.Nat.Defs
import Provision.Number.Basic

/-!
# Integers as numbers

An integer of magnitude up to `2^53` is a number without a fractional part that is read back as
the same integer (`ofInt_exact`), so a 32-bit integer survives its way through a number
(`toInt32_ofInt`). The other way round, an integral number in that range is found again from its
integer, up to the sign of a zero (`ofInt_toInt`). The nearest number to an integer of 64 bits is
finite (`ofInt_finite`).
-/

namespace Provision.Number

/-- A number that is finite and has no fractional part. -/
def IsInteger (x : Number) : Prop := ∃ f : Finite, x = .finite f ∧ f.isIntegral = true

theorem IsInteger.trunc {x : Number} (integer : x.IsInteger) : x.trunc = x := by
  obtain ⟨f, rfl, integral⟩ := integer
  exact if_pos integral

/-- Halving ends with an odd mantissa, and the exponent counts the halvings. -/
theorem lowestForm_spec (fuel m : Nat) (e : Int) (positive : m ≠ 0) (enough : m.log2 ≤ fuel) :
    ∃ k : Nat, (lowestForm fuel m e).2 = e + k ∧ (lowestForm fuel m e).1 % 2 = 1 ∧
      (lowestForm fuel m e).1 * 2 ^ k = m := by
  induction fuel generalizing m e with
  | zero =>
    have below : m < 2 ^ 1 := (Nat.log2_lt positive).mp (by omega)
    refine ⟨0, ?_, ?_, ?_⟩
    · unfold lowestForm
      omega
    · unfold lowestForm
      omega
    · unfold lowestForm
      omega
  | succ fuel ih =>
    unfold lowestForm
    by_cases even : m % 2 = 0
    · rw [if_pos even]
      have below : m < 2 ^ (fuel + 2) := (Nat.log2_lt positive).mp (by omega)
      have half : m / 2 ≠ 0 := by omega
      have halfEnough : (m / 2).log2 ≤ fuel := by
        rw [Nat.pow_succ] at below
        have : (m / 2).log2 < fuel + 1 := (Nat.log2_lt half).mpr (by omega)
        omega
      obtain ⟨k, exponent, odd, product⟩ := ih (m / 2) (e + 1) half halfEnough
      refine ⟨k + 1, ?_, odd, ?_⟩
      · omega
      · rw [Nat.pow_succ, ← Nat.mul_assoc, product]
        omega
    · rw [if_neg even]
      refine ⟨0, ?_, ?_, ?_⟩ <;> omega

/-- A mantissa of at most 53 bits in the middle of the format's range has a lowest form there. -/
theorem canonical_lowestForm {m : Nat} {e : Int} (positive : m ≠ 0) (bits : m ≤ 2 ^ 53)
    (least : -1074 ≤ e) (greatest : e ≤ 970) :
    Canonical (lowestForm m.log2 m e).1 (lowestForm m.log2 m e).2 := by
  obtain ⟨k, exponent, odd, product⟩ := lowestForm_spec m.log2 m e positive (Nat.le_refl _)
  generalize lowestForm m.log2 m e = low at exponent odd product ⊢
  obtain ⟨n, f⟩ := low
  dsimp only at exponent odd product ⊢
  have part : n * 1 ≤ n * 2 ^ k := Nat.mul_le_mul_left n Nat.one_le_two_pow
  have lead : n.log2 + k < 54 := by
    have power : 2 ^ (n.log2 + k) ≤ n * 2 ^ k := by
      rw [Nat.pow_add]
      exact Nat.mul_le_mul_right _ (Nat.log2_self_le (by omega))
    refine (Nat.pow_lt_pow_iff_right (a := 2) (by omega)).mp ?_
    omega
  refine .inr ⟨odd, ?_, ?_, ?_⟩
  · unfold twoPow
    show n < 2 ^ 53
    omega
  · omega
  · omega

/-- An odd mantissa is the lowest form of all its multiples by powers of two. -/
theorem lowestForm_odd {m : Nat} (odd : m % 2 = 1) (k fuel : Nat) (e : Int) (enough : k ≤ fuel) :
    lowestForm fuel (m * 2 ^ k) e = (m, e + k) := by
  induction k generalizing fuel e with
  | zero =>
    cases fuel with
    | zero => simp [lowestForm]
    | succ fuel => simp [lowestForm, odd]
  | succ k ih =>
    obtain ⟨fuel, rfl⟩ : ∃ f, fuel = f + 1 := ⟨fuel - 1, by omega⟩
    have even : m * 2 ^ (k + 1) % 2 = 0 := by
      rw [Nat.pow_succ, ← Nat.mul_assoc]
      omega
    have half : m * 2 ^ (k + 1) / 2 = m * 2 ^ k := by
      rw [Nat.pow_succ, ← Nat.mul_assoc]
      omega
    rw [lowestForm, if_pos even, half, ih fuel (e + 1) (by omega)]
    simp
    omega

/-- An integer in the range where every integer is a number. -/
theorem ofInt_exact {i : Int} (small : i.natAbs ≤ twoPow 53) :
    ∃ x : Finite, ofInt i = .finite x ∧ x.isIntegral = true ∧ x.toInt = i := by
  have range : i.natAbs ≤ 2 ^ 53 := small
  unfold ofInt ofParts
  rw [if_pos small]
  by_cases zero : i.natAbs = 0
  · obtain rfl : i = 0 := by omega
    exact ⟨Finite.zero false, rfl, rfl, rfl⟩
  · rw [if_neg zero]
    have canonical := canonical_lowestForm zero range (by omega : -1074 ≤ (0 : Int)) (by omega)
    obtain ⟨k, exponent, -, product⟩ :=
      lowestForm_spec i.natAbs.log2 i.natAbs 0 zero (Nat.le_refl _)
    generalize lowestForm i.natAbs.log2 i.natAbs 0 = low at canonical exponent product
    obtain ⟨m, e⟩ := low
    dsimp only at canonical exponent product ⊢
    obtain rfl : e = k := by omega
    rw [dif_pos canonical]
    refine ⟨_, rfl, ?_, ?_⟩
    · unfold Finite.isIntegral
      simp
    · have magnitude : Finite.floorMagnitude ⟨decide (i < 0), m, k, canonical⟩ = i.natAbs := by
        unfold Finite.floorMagnitude twoPow
        simpa using product
      unfold Finite.toInt
      rw [magnitude]
      by_cases negative : i < 0
      · rw [if_pos (by simpa using negative)]
        omega
      · rw [if_neg (by simpa using negative)]
        omega

theorem isInteger_ofInt {i : Int} (small : i.natAbs ≤ twoPow 53) : (ofInt i).IsInteger := by
  obtain ⟨x, same, integral, -⟩ := ofInt_exact small
  exact ⟨x, same, integral⟩

theorem Finite.natAbs_toInt (x : Finite) : x.toInt.natAbs = x.floorMagnitude := by
  unfold toInt
  split <;> omega

theorem Finite.toInt_neg {x : Finite} (positive : x.floorMagnitude ≠ 0) :
    decide (x.toInt < 0) = x.negative := by
  unfold toInt
  cases x.negative
  · simp
  · simp
    omega

/-- An integral number up to `2^53` is the number of its integer; a zero may lose its sign. -/
theorem ofInt_toInt {x : Finite} (integral : x.isIntegral = true)
    (small : x.floorMagnitude ≤ twoPow 53) : (ofInt x.toInt).Same (.finite x) := by
  obtain ⟨negative, m, e, canonical⟩ := x
  have nonnegative : 0 ≤ e := of_decide_eq_true integral
  obtain ⟨k, rfl⟩ := Int.eq_ofNat_of_zero_le nonnegative
  by_cases zero : m = 0
  · subst zero
    obtain rfl : k = 0 := by
      unfold Canonical at canonical
      omega
    have value : Finite.toInt ⟨negative, 0, (0 : Nat), canonical⟩ = 0 := by
      simp [Finite.toInt, Finite.floorMagnitude]
    rw [value]
    exact Or.inr ⟨rfl, rfl⟩
  · have odd : m % 2 = 1 := by
      unfold Canonical at canonical
      omega
    have magnitude : Finite.floorMagnitude ⟨negative, m, k, canonical⟩ = m * 2 ^ k := by
      simp [Finite.floorMagnitude, twoPow]
    have part : m * 1 ≤ m * 2 ^ k := Nat.mul_le_mul_left m Nat.one_le_two_pow
    have positive : m * 2 ^ k ≠ 0 := by omega
    have enough : k ≤ (m * 2 ^ k).log2 :=
      (Nat.le_log2 positive).mpr (Nat.le_mul_of_pos_left _ (by omega))
    have low : lowestForm (m * 2 ^ k).log2 (m * 2 ^ k) 0 = (m, (k : Int)) := by
      simpa using lowestForm_odd odd k _ 0 enough
    have sign := Finite.toInt_neg (x := ⟨negative, m, k, canonical⟩) (by rwa [magnitude])
    rw [ofInt, sign, Finite.natAbs_toInt, if_pos small, magnitude, ofParts, if_neg positive, low]
    dsimp only
    rw [dif_pos canonical]
    exact Or.inl rfl

/-- A mantissa of at most 53 bits in the middle of the format's range is a finite number. -/
theorem ofParts_finite (negative : Bool) {m : Nat} {e : Int} (bits : m ≤ 2 ^ 53)
    (least : -1074 ≤ e) (greatest : e ≤ 970) : (ofParts negative m e).isFinite = true := by
  unfold ofParts
  by_cases zero : m = 0
  · rw [if_pos zero]
    rfl
  · rw [if_neg zero, dif_pos (canonical_lowestForm zero bits least greatest)]
    rfl

/-- Rounding adds at most one to the quotient. -/
theorem divideToEven_le (n d : Nat) : divideToEven n d ≤ n / d + 1 := by
  unfold divideToEven
  dsimp only
  split <;> omega

/-- The number nearest to an integer of 54 to 65 bits is finite. -/
theorem ofRatio_finite (negative : Bool) {n : Nat} (great : 2 ^ 53 ≤ n) (small : n < 2 ^ 65) :
    (ofRatio negative n 1).isFinite = true := by
  have positive : n ≠ 0 := by omega
  have low : 53 ≤ n.log2 := (Nat.le_log2 positive).mpr great
  have high : n.log2 < 65 := (Nat.log2_lt positive).mpr small
  obtain ⟨shift, lead⟩ : ∃ s, n.log2 = 52 + s := ⟨n.log2 - 52, by omega⟩
  have scaled_one : ∀ k : Nat, scaled n 1 (-(k : Int)) = (n, 2 ^ k) := by
    intro k
    simp [scaled, twoPow]
  -- The estimate of the leading bit is exact for an integer.
  have estimate : (n.log2 : Int) - (Nat.log2 1 : Nat) = n.log2 := by
    have one : Nat.log2 1 = 0 := by decide
    omega
  have reached : ¬ n < 2 ^ n.log2 := Nat.not_lt.mpr (Nat.log2_self_le positive)
  have unit : max ((n.log2 : Int) - 52) (-1074) = shift := by omega
  have quotient : n / 2 ^ shift < 2 ^ 53 := by
    refine (Nat.div_lt_iff_lt_mul (Nat.two_pow_pos shift)).mpr ?_
    have above := Nat.lt_log2_self (n := n)
    rwa [lead, Nat.add_right_comm, Nat.pow_add] at above
  have rounded := divideToEven_le n (2 ^ shift)
  unfold ofRatio
  rw [if_neg positive, estimate]
  dsimp only
  rw [scaled_one, if_neg reached, unit, scaled_one]
  dsimp only
  apply ofParts_finite <;> omega

/-- The number nearest to an integer of 64 bits is finite. -/
theorem ofInt_finite {i : Int} (word : i.natAbs ≤ 2 ^ 64) : (ofInt i).isFinite = true := by
  by_cases small : i.natAbs ≤ twoPow 53
  · obtain ⟨x, same, -⟩ := ofInt_exact small
    rw [same]
    rfl
  · have great : ¬ i.natAbs ≤ 2 ^ 53 := small
    rw [ofInt, if_neg small]
    apply ofRatio_finite <;> omega

def IsInt32 (i : Int) : Prop := leastInt32 ≤ i ∧ i ≤ greatestInt32

theorem IsInt32.small {i : Int} (range : IsInt32 i) : i.natAbs ≤ twoPow 53 := by
  obtain ⟨least, greatest⟩ := range
  unfold leastInt32 at least
  unfold greatestInt32 at greatest
  have : twoPow 53 = 9007199254740992 := rfl
  omega

/-- A 32-bit integer is read back from its number. -/
theorem toInt32_ofInt {i : Int} (range : IsInt32 i) : (ofInt i).toInt32 = i := by
  obtain ⟨x, same, -, value⟩ := ofInt_exact range.small
  obtain ⟨least, greatest⟩ := range
  rw [same]
  show max leastInt32 (min greatestInt32 x.toInt) = i
  omega

end Provision.Number
