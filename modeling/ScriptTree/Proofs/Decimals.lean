import Mathlib
import ScriptTree.Number.Decimal
import ScriptTree.Proofs.Nearest

/-!
# Decimal numbers and the nearest double

A decimal number is read as the double nearest to it (`Decimal.toFloat_eq`).  The way there is short
when the digits and the power of ten are both doubles, as one operation is then enough.

The digits written for a double lie in its rounding range and have no zero at their end
(`Binary.shortest_spec`).  The range is wider than a unit of the seventeenth digit
(`Binary.seventeen_digits`), so the search for digits always ends with some.
-/

namespace ScriptTree

open Float.Model Float.Model.UnpackedFloat

/-! ## Powers of ten -/

theorem ofModel_ofNat (n : ℕ) : Float.ofModel (.ofNat n) = nearest n := by
  have packed : Float.ofModel (.ofNat n) = .ofModel (.pack (UnpackedFloat.ofNat .binary64 n)) := rfl
  rw [packed, ofNat_eq, nearest]

/-- The powers of ten in the table are exact. -/
theorem powersOfTen_eq : ∀ e : Fin 23, (Float.exactlyRepresentablePowersOfTen[e]).toBits =
    (Float.ofModel (.ofNat (10 ^ e.val))).toBits := by
  decide

theorem representable_powerOfTen {e : ℕ} (small : e ≤ 22) : Representable (10 ^ e : ℕ) := by
  have fives : (5 : ℕ) ^ e < 2 ^ 53 :=
    lt_of_le_of_lt (Nat.pow_le_pow_right (by decide) small) (by decide)
  have split : ((10 ^ e : ℕ) : ℚ) = (5 ^ e : ℕ) * 2 ^ (e : ℤ) := by
    rw [zpow_natCast]
    push_cast
    rw [← mul_pow]
    norm_num
  rw [split]
  exact representable_of_lt fives (by omega) (by omega)

theorem two_pow_le_ten_pow (k : ℕ) : (2 : ℚ) ^ (3 * k : ℤ) ≤ 10 ^ (k : ℤ) := by
  have : ((2 : ℚ) ^ 3) ^ k ≤ 10 ^ k := by
    gcongr
    norm_num
  rw [← pow_mul] at this
  exact_mod_cast this

theorem ten_pow_le_two_pow (k : ℕ) : (10 : ℚ) ^ (k : ℤ) ≤ 2 ^ (4 * k : ℤ) := by
  have : (10 : ℚ) ^ k ≤ (2 ^ 4) ^ k := by
    gcongr
    norm_num
  rw [← pow_mul] at this
  exact_mod_cast this

/-! ## Reading a decimal number -/

/-- The number `digits * 10 ^ exponent`. -/
def Decimal.value (d : Decimal) : ℚ := d.digits * 10 ^ d.exponent

namespace Decimal

variable {d : Decimal}

theorem value_pos (some : d.digits ≠ 0) : 0 < d.value := by
  have : 0 < d.digits := Nat.pos_of_ne_zero some
  rw [value]
  positivity

theorem leastBits_le (some : d.digits ≠ 0) : 2 ^ d.leastBits ≤ d.value := by
  have low : (2 : ℚ) ^ (d.digits.log2 : ℤ) ≤ d.digits := by exact_mod_cast Nat.log2_self_le some
  rw [leastBits, value, zpow_add₀ two_ne_zero]
  gcongr
  split_ifs with whole
  · obtain ⟨k, same⟩ := Int.eq_ofNat_of_zero_le whole
    rw [same]
    exact two_pow_le_ten_pow k
  · obtain ⟨k, same⟩ : ∃ k : ℕ, d.exponent = -k := ⟨(-d.exponent).toNat, by omega⟩
    rw [same, mul_neg, zpow_neg, zpow_neg]
    exact inv_anti₀ (by positivity) (ten_pow_le_two_pow k)

theorem lt_mostBits (d : Decimal) : d.value < 2 ^ d.mostBits := by
  have high : (d.digits : ℚ) < 2 ^ (d.digits.log2 + 1 : ℤ) := by exact_mod_cast Nat.lt_log2_self
  rw [mostBits, value, zpow_add₀ two_ne_zero]
  refine mul_lt_mul high ?_ (by positivity) (by positivity)
  split_ifs with whole
  · obtain ⟨k, same⟩ := Int.eq_ofNat_of_zero_le whole
    rw [same]
    exact ten_pow_le_two_pow k
  · obtain ⟨k, same⟩ : ∃ k : ℕ, d.exponent = -k := ⟨(-d.exponent).toNat, by omega⟩
    rw [same, mul_neg, zpow_neg, zpow_neg]
    exact inv_anti₀ (by positivity) (two_pow_le_ten_pow k)

end Decimal

/-- The logical model reads digits and an exponent as the nearest double. -/
theorem model_ofScientific (m : ℕ) (e : ℤ) :
    Float.ofModel (.ofScientific m e) = nearest (m * 10 ^ e) := by
  have packed : Float.ofModel (.ofScientific m e) =
      .ofModel (.pack (UnpackedFloat.ofScientific .binary64 m e)) := rfl
  rw [packed, UnpackedFloat.ofScientific]
  split_ifs with zero large small whole
  · simp [zero, nearest, nearestUnpacked_zero]
  · symm
    have large : 2 ^ 11 < e := large
    apply nearest_of_large (le_trans _ (Decimal.leastBits_le (d := ⟨m, e⟩) zero))
    apply zpow_le_zpow_right₀ one_le_two
    simp only [Decimal.leastBits]
    split_ifs <;> omega
  · have small : e < -(2 ^ 11 + (m.log2 : ℤ)) := small
    symm
    apply nearest_of_small (Decimal.value_pos (d := ⟨m, e⟩) zero).le
    apply lt_of_lt_of_le (Decimal.lt_mostBits ⟨m, e⟩)
    apply zpow_le_zpow_right₀ one_le_two
    simp only [Decimal.mostBits]
    split_ifs <;> omega
  · obtain ⟨k, rfl⟩ := Int.eq_ofNat_of_zero_le whole
    have pos : 0 < m := Nat.pos_of_ne_zero zero
    have same : ((m <<< 53 : ℕ) * 2 ^ (-53 : ℤ) * ((10 ^ k : ℕ) * 2 ^ (0 : ℤ)) : ℚ) =
        m * 10 ^ (k : ℤ) := by
      rw [Nat.shiftLeft_eq, zpow_natCast]
      push_cast
      norm_num
      ring
    have bits : 0 ≤ Int.log 2 (m * 10 ^ (k : ℤ) : ℚ) := by
      rw [← Int.zpow_le_iff_le_log one_lt_two (by positivity), zpow_zero, zpow_natCast]
      have : 1 ≤ m * 10 ^ k := Nat.mul_pos pos (by positivity)
      exact_mod_cast this
    have left : 0 < m <<< 53 := by
      rw [Nat.shiftLeft_eq]
      positivity
    have right : 0 < 10 ^ k := by positivity
    have product := mul_eq left right (-53) 0 .positive .positive (by rw [same, unitExponent]; omega)
    rw [same] at product
    exact congrArg (fun u => Float.ofModel (.pack u)) product
  · obtain ⟨k, rfl⟩ : ∃ k : ℕ, e = -k := ⟨(-e).toNat, by omega⟩
    have same : (m * 2 ^ (0 : ℤ) / ((10 ^ k : ℕ) * 2 ^ (0 : ℤ)) : ℚ) = m * 10 ^ (-(k : ℤ)) := by
      rw [zpow_neg, zpow_natCast]
      push_cast
      ring
    have right : 0 < 10 ^ k := by positivity
    have quotient := div_eq (Nat.pos_of_ne_zero zero) right 0 0 .positive .positive
    rw [same] at quotient
    simp only [neg_neg, Int.toNat_natCast]
    exact congrArg (fun u => Float.ofModel (.pack u)) quotient

/-- Digits and an exponent are read as the nearest double. -/
theorem ofScientific_eq (m : ℕ) (s : Bool) (e : ℕ) :
    Float.ofScientific m s e = nearest (m * 10 ^ (if s then -(e : ℤ) else e)) := by
  by_cases exact : m < 2 ^ 53 ∧ e ≤ 22
  · -- the digits and the power of ten are doubles, so one operation rounds
    obtain ⟨small, few⟩ := exact
    obtain ⟨i, rfl⟩ : ∃ i : Fin 23, i.val = e := ⟨⟨e, by omega⟩, rfl⟩
    have word : m.toUInt64.toFloat = nearest m := by
      have same : m.toUInt64.toNat = m := Nat.mod_eq_of_lt (by omega)
      have converted : m.toUInt64.toFloat = .ofModel (.ofNat m.toUInt64.toNat) := rfl
      rw [converted, same, ofModel_ofNat]
    have power := Float.toBits_inj.mp (powersOfTen_eq i)
    rw [Fin.getElem_fin, ofModel_ofNat] at power
    rw [Float.ofScientific, dif_pos ⟨small, few⟩]
    simp only [power, word]
    cases s with
    | true =>
        rw [if_pos rfl, if_pos rfl, nearest_div (representable_natCast small)
          (representable_powerOfTen few) (by positivity), zpow_neg, zpow_natCast, div_eq_mul_inv]
        push_cast
        rfl
    | false =>
        rw [if_neg Bool.false_ne_true, if_neg Bool.false_ne_true, nearest_mul
          (representable_natCast small) (representable_powerOfTen few), zpow_natCast]
        push_cast
        rfl
  · rw [Float.ofScientific, dif_neg exact, model_ofScientific]
    cases s <;> simp [Int.negOfNat_eq]

/-- A decimal number is read as the nearest double. -/
theorem Decimal.toFloat_eq (d : Decimal) : d.toFloat = nearest d.value := by
  rw [toFloat]
  split_ifs with zero large small
  · have none : d.value = 0 := by simp [value, zero]
    rw [none, nearest, nearestUnpacked_zero]
    rfl
  · rw [one_div_zero]
    exact (nearest_of_large
      ((zpow_le_zpow_right₀ one_le_two large).trans (leastBits_le zero))).symm
  · exact (nearest_of_small (value_pos zero).le
      (d.lt_mostBits.trans_le (zpow_le_zpow_right₀ one_le_two small))).symm
  · rw [ofScientific_eq, value]
    congr 3
    by_cases negative : d.exponent < 0 <;> simp only [negative, decide_true, decide_false] <;> grind

/-! ## The shortest digits -/

theorem digitCount_pos (n : ℕ) : 0 < digitCount n := Nat.length_toDigits_pos

theorem digitCount_bounds {n : ℕ} (pos : 0 < n) :
    10 ^ (digitCount n - 1) ≤ n ∧ n < 10 ^ digitCount n := by
  constructor
  · by_contra less
    rcases Nat.eq_zero_or_pos (digitCount n - 1) with one | more
    · rw [one] at less
      omega
    · have := (Nat.length_toDigits_le_iff (b := 10) (n := n) (by decide) more).mpr (by omega)
      rw [← digitCount] at this
      omega
  · exact (Nat.length_toDigits_le_iff (by decide) (digitCount_pos n)).mp le_rfl

namespace RoundingRange

/-- The number lies in the range. -/
def Holds (r : RoundingRange) (v : ℚ) : Prop :=
  (r.low / r.denominator : ℚ) ≤ v ∧ v ≤ r.high / r.denominator ∧
    (r.closed = true ∨ (r.low / r.denominator : ℚ) < v ∧ v < r.high / r.denominator)

/-- The double in the middle of the range. -/
def center (r : RoundingRange) : ℚ := r.middle / r.denominator

section Digits

variable {r : RoundingRange} (den : 0 < r.denominator)
include den

/-- A multiple of a power of ten over the denominator of the scaled range. -/
theorem multiple_eq (n : ℕ) (e : ℤ) : (n * 10 ^ e : ℚ) =
    (n * (10 ^ e.toNat * r.denominator) : ℕ) / (10 ^ (-e).toNat * r.denominator : ℕ) := by
  have split : (10 : ℚ) ^ e = 10 ^ e.toNat / 10 ^ (-e).toNat := by
    rw [← zpow_natCast, ← zpow_natCast, ← zpow_sub₀ (by norm_num)]
    congr 1
    omega
  rw [split]
  push_cast
  field_simp

theorem scaled_eq (x : ℕ) (e : ℤ) : (x / r.denominator : ℚ) =
    (x * 10 ^ (-e).toNat : ℕ) / (10 ^ (-e).toNat * r.denominator : ℕ) := by
  push_cast
  field_simp

theorem contains_iff (n : ℕ) (e : ℤ) :
    r.contains (10 ^ (-e).toNat) (n * (10 ^ e.toNat * r.denominator)) = true ↔
      r.Holds (n * 10 ^ e) := by
  have scale : (0 : ℚ) < (10 ^ (-e).toNat * r.denominator : ℕ) := by positivity
  rw [Holds, multiple_eq den n e, scaled_eq den r.low e, scaled_eq den r.high e,
    div_le_div_iff_of_pos_right scale, div_le_div_iff_of_pos_right scale,
    div_lt_div_iff_of_pos_right scale, div_lt_div_iff_of_pos_right scale, Nat.cast_le, Nat.cast_le,
    Nat.cast_lt, Nat.cast_lt, contains]
  cases r.closed with
  | true => simp
  | false =>
      simp only [Bool.false_eq_true, if_false, false_or, Bool.and_eq_true, decide_eq_true_eq]
      omega

/-- The two multiples next to the middle. -/
theorem below_bounds (e : ℤ) :
    let below := r.middle * 10 ^ (-e).toNat / (10 ^ e.toNat * r.denominator)
    (below * 10 ^ e : ℚ) ≤ r.center ∧ r.center < (below + 1 : ℕ) * 10 ^ e := by
  intro below
  have scale : (0 : ℚ) < (10 ^ (-e).toNat * r.denominator : ℕ) := by positivity
  have unit : 0 < 10 ^ e.toNat * r.denominator := by positivity
  rw [center, multiple_eq den, multiple_eq den, scaled_eq den r.middle e,
    div_le_div_iff_of_pos_right scale, div_lt_div_iff_of_pos_right scale, Nat.cast_le, Nat.cast_lt]
  exact ⟨Nat.div_mul_le_self _ _, Nat.succ_mul _ _ ▸ Nat.lt_div_mul_add unit⟩

/-- The point counts the digits of the middle before the point. -/
theorem point_bounds (nonzero : 0 < r.middle) :
    (10 ^ (r.point - 1) : ℚ) ≤ r.center ∧ r.center < 10 ^ r.point := by
  have den' : (0 : ℚ) < r.denominator := by exact_mod_cast den
  rw [center, point]
  split_ifs with whole
  · obtain ⟨low, high⟩ := digitCount_bounds (Nat.div_pos whole den)
    have digit := digitCount_pos (r.middle / r.denominator)
    generalize digitCount (r.middle / r.denominator) = k at low high digit ⊢
    rw [show (k : ℤ) - 1 = (k - 1 : ℕ) by omega, zpow_natCast, zpow_natCast, le_div_iff₀ den',
      div_lt_iff₀ den']
    constructor
    · have := (Nat.le_div_iff_mul_le den).mp low
      exact_mod_cast this
    · have := (Nat.div_lt_iff_lt_mul den).mp high
      exact_mod_cast this
  · have pos : 0 < (r.denominator - 1) / r.middle := Nat.div_pos (by omega) nonzero
    obtain ⟨low, high⟩ := digitCount_bounds pos
    have digit := digitCount_pos ((r.denominator - 1) / r.middle)
    generalize digitCount ((r.denominator - 1) / r.middle) = k at low high digit ⊢
    rw [show (1 - (k : ℤ) - 1) = -(k : ℤ) by ring, show 1 - (k : ℤ) = -((k - 1 : ℕ) : ℤ) by omega,
      zpow_neg, zpow_neg, zpow_natCast, zpow_natCast, le_div_iff₀ den', div_lt_iff₀ den',
      inv_mul_le_iff₀ (by positivity), lt_inv_mul_iff₀ (by positivity)]
    constructor
    · have := (Nat.div_lt_iff_lt_mul nonzero).mp high
      have : r.denominator ≤ 10 ^ k * r.middle := by omega
      exact_mod_cast this
    · have := (Nat.le_div_iff_mul_le nonzero).mp low
      have : 10 ^ (k - 1) * r.middle < r.denominator := by omega
      exact_mod_cast this

/-- A number found with some digits is the multiple below the middle or the one above it, and lies
in the range. -/
theorem of_withDigits {count : ℕ} {d : Decimal} (found : r.withDigits count = some d) :
    r.Holds d.value ∧ d.exponent = r.point - count ∧ ((d.digits * 10 ^ d.exponent : ℚ) ≤ r.center ∨
      ((d.digits - 1 : ℕ) * 10 ^ d.exponent : ℚ) ≤ r.center) := by
  obtain ⟨e, same⟩ : ∃ e, e = r.point - count := ⟨_, rfl⟩
  obtain ⟨low, -⟩ := below_bounds den e
  simp only [withDigits, Nat.pow_eq, ← same] at found low ⊢
  generalize r.middle * 10 ^ (-e).toNat / (10 ^ e.toNat * r.denominator) = below at found low
  have holds (n : ℕ) := (contains_iff den n e).mp
  cases lower : r.contains (10 ^ (-e).toNat) (below * (10 ^ e.toNat * r.denominator)) <;>
    cases upper : r.contains (10 ^ (-e).toNat) ((below + 1) * (10 ^ e.toNat * r.denominator)) <;>
    simp only [lower, upper, Option.some.injEq, reduceCtorEq] at found
  · subst found
    exact ⟨holds _ upper, rfl, .inr low⟩
  · subst found
    exact ⟨holds _ lower, rfl, .inl low⟩
  · subst found
    split_ifs
    · exact ⟨holds _ lower, rfl, .inl low⟩
    · exact ⟨holds _ upper, rfl, .inr low⟩

theorem digits_le_of_withDigits (nonzero : 0 < r.middle) {count : ℕ} {d : Decimal}
    (found : r.withDigits count = some d) : d.digits ≤ 10 ^ count := by
  obtain ⟨-, exponent, bound⟩ := of_withDigits den found
  have high := (point_bounds den nonzero).2
  have unit : (0 : ℚ) < 10 ^ d.exponent := by positivity
  have split : (10 : ℚ) ^ r.point = (10 ^ count : ℕ) * 10 ^ d.exponent := by
    push_cast
    rw [← zpow_natCast, ← zpow_add₀ (by norm_num), exponent]
    congr 1
    ring
  rw [split] at high
  rcases bound with low | low
  · have : (d.digits : ℚ) < (10 ^ count : ℕ) := lt_of_mul_lt_mul_right (low.trans_lt high) unit.le
    exact (Nat.cast_lt.mp this).le
  · have : ((d.digits - 1 : ℕ) : ℚ) < (10 ^ count : ℕ) :=
      lt_of_mul_lt_mul_right (low.trans_lt high) unit.le
    have := Nat.cast_lt.mp this
    omega

/-- One of the two multiples next to the middle is at most half a unit away, so a range that
reaches so far holds a number with that many digits. -/
theorem exists_withDigits {count : ℕ}
    (wide : ∀ v : ℚ, |v - r.center| ≤ 10 ^ (r.point - count) / 2 → r.Holds v) :
    ∃ d, r.withDigits count = some d := by
  obtain ⟨e, same⟩ : ∃ e, e = r.point - count := ⟨_, rfl⟩
  obtain ⟨low, high⟩ := below_bounds den e
  simp only [withDigits, Nat.pow_eq, ← same] at wide low high ⊢
  generalize r.middle * 10 ^ (-e).toNat / (10 ^ e.toNat * r.denominator) = below at low high ⊢
  push_cast at high
  have unit : (0 : ℚ) < 10 ^ e := by positivity
  have one : r.contains (10 ^ (-e).toNat) (below * (10 ^ e.toNat * r.denominator)) = true ∨
      r.contains (10 ^ (-e).toNat) ((below + 1) * (10 ^ e.toNat * r.denominator)) = true := by
    rw [contains_iff den, contains_iff den]
    by_cases near : r.center - below * 10 ^ e ≤ 10 ^ e / 2
    · left
      apply wide
      rw [abs_of_nonpos (by linarith)]
      linarith
    · right
      apply wide
      push_cast
      rw [abs_of_nonneg (by linarith)]
      linarith
  cases lower : r.contains (10 ^ (-e).toNat) (below * (10 ^ e.toNat * r.denominator)) <;>
    cases upper : r.contains (10 ^ (-e).toNat) ((below + 1) * (10 ^ e.toNat * r.denominator)) <;>
    simp [lower, upper] at one ⊢

end Digits

end RoundingRange

/-- Trailing zeros move into the exponent, all of them when there is fuel enough. -/
theorem Decimal.stripZeros_spec (fuel : ℕ) {d : Decimal} (pos : 0 < d.digits)
    (few : d.digits ≤ 10 ^ fuel) :
    (d.stripZeros fuel).value = d.value ∧ (d.stripZeros fuel).digits % 10 ≠ 0 := by
  induction fuel generalizing d with
  | zero =>
      have one : d.digits = 1 := by omega
      exact ⟨rfl, by rw [stripZeros, one]; decide⟩
  | succ fuel ih =>
      rw [stripZeros]
      split_ifs with trailing
      · have pos' : 0 < d.digits / 10 := by omega
        have few' : d.digits / 10 ≤ 10 ^ fuel := by
          rw [pow_succ] at few
          omega
        obtain ⟨same, last⟩ := ih (d := ⟨d.digits / 10, d.exponent + 1⟩) pos' few'
        refine ⟨same.trans ?_, last⟩
        have split : (d.digits : ℚ) = (d.digits / 10 : ℕ) * 10 := by
          exact_mod_cast (Nat.div_mul_cancel (Nat.dvd_of_mod_eq_zero trailing)).symm
        rw [value, value, split, zpow_add₀ (by norm_num)]
        ring
      · exact ⟨rfl, trailing⟩

namespace Binary

variable {b : Binary}

theorem denominator_pos (b : Binary) : 0 < b.roundingRange.denominator := Nat.two_pow_pos _

/-- The ends of the range are counted in quarters of the unit. -/
theorem quarters_eq (b : Binary) (n : ℕ) :
    ((n * Nat.pow 2 (b.exponent - 2).toNat : ℕ) : ℚ) / b.roundingRange.denominator =
      n * 2 ^ (b.exponent - 2) := by
  have split : (2 : ℚ) ^ (b.exponent - 2) =
      2 ^ (b.exponent - 2).toNat / 2 ^ (-(b.exponent - 2)).toNat := by
    rw [← zpow_natCast, ← zpow_natCast, ← zpow_sub₀ two_ne_zero]
    congr 1
    omega
  simp only [roundingRange, Nat.pow_eq]
  rw [split]
  push_cast
  ring

theorem center_eq (b : Binary) : b.roundingRange.center = b.significand * 2 ^ b.exponent := by
  have quarters := b.quarters_eq (4 * b.significand)
  rw [zpow_sub₀ two_ne_zero] at quarters
  refine quarters.trans ?_
  push_cast
  ring

theorem holds_iff (pos : 0 < b.significand) (v : ℚ) : b.roundingRange.Holds v ↔
    (4 * b.significand - reachBelow b.significand b.exponent) * 2 ^ (b.exponent - 2) ≤ v ∧
      v ≤ (4 * b.significand + 2) * 2 ^ (b.exponent - 2) ∧ (b.significand % 2 = 0 ∨
        (4 * b.significand - reachBelow b.significand b.exponent) * 2 ^ (b.exponent - 2) < v ∧
          v < (4 * b.significand + 2) * 2 ^ (b.exponent - 2)) := by
  have reach : reachBelow b.significand b.exponent ≤ 4 * b.significand := by
    rw [reachBelow]
    split_ifs <;> omega
  have low : (b.roundingRange.low : ℚ) / b.roundingRange.denominator =
      (4 * b.significand - reachBelow b.significand b.exponent) * 2 ^ (b.exponent - 2) := by
    refine (b.quarters_eq (4 * b.significand - reachBelow b.significand b.exponent)).trans ?_
    rw [Nat.cast_sub reach]
    push_cast
    rfl
  have high : (b.roundingRange.high : ℚ) / b.roundingRange.denominator =
      (4 * b.significand + 2) * 2 ^ (b.exponent - 2) := by
    refine (b.quarters_eq (4 * b.significand + 2)).trans ?_
    push_cast
    rfl
  have closed : b.roundingRange.closed = true ↔ b.significand % 2 = 0 := by simp [roundingRange]
  rw [RoundingRange.Holds, low, high, closed]

theorem pos_of_holds (pos : 0 < b.significand) {v : ℚ} (holds : b.roundingRange.Holds v) : 0 < v := by
  have some : (1 : ℚ) ≤ b.significand := by exact_mod_cast pos
  have reach : (reachBelow b.significand b.exponent : ℚ) ≤ 2 := by
    rw [reachBelow]
    split_ifs <;> norm_num
  refine lt_of_lt_of_le (mul_pos ?_ (by positivity)) ((holds_iff pos v).mp holds).1
  linarith

theorem middle_pos (pos : 0 < b.significand) : 0 < b.roundingRange.middle :=
  Nat.mul_pos (Nat.mul_pos (by decide) pos) (Nat.two_pow_pos _)

/-- A number in the range rounds to the double. -/
theorem nearestUnpacked_of_holds (double : IsDouble b.significand b.exponent)
    (pos : 0 < b.significand) (sign : Sign) {v : ℚ} (holds : b.roundingRange.Holds v) :
    nearestUnpacked sign v = .finite sign b.significand b.exponent pos := by
  obtain ⟨low, high, inside⟩ := (holds_iff pos v).mp holds
  exact nearestUnpacked_of_range double pos sign low high inside

/-- Numbers in the range of a double are nearest to it. -/
theorem unpack_nearest_of_holds (double : IsDouble b.significand b.exponent)
    (pos : 0 < b.significand) {v : ℚ} (holds : b.roundingRange.Holds v) :
    (nearest v).toModel.unpack = .finite .positive b.significand b.exponent pos := by
  have same : nearest v = nearest (b.significand * 2 ^ b.exponent) := by
    rw [nearest, nearest, nearestUnpacked_of_holds double pos _ holds, double.nearestUnpacked_size pos]
  rw [same, double.unpack_nearest pos]

/-- Seventeen digits are enough: half a unit of the seventeenth digit is less than the range reaches,
on either side. -/
theorem seventeen_digits (double : IsDouble b.significand b.exponent) (pos : 0 < b.significand)
    (v : ℚ) (near : |v - b.roundingRange.center| ≤ 10 ^ (b.roundingRange.point - 17) / 2) :
    b.roundingRange.Holds v := by
  have first := (RoundingRange.point_bounds b.denominator_pos (middle_pos pos)).1
  have quarter : (2 : ℚ) ^ (b.exponent - 2) = 2 ^ b.exponent / 4 := by
    rw [zpow_sub₀ two_ne_zero]
    norm_num
  have step : (10 : ℚ) ^ (b.roundingRange.point - 1) =
      10 ^ (b.roundingRange.point - 17) * 10 ^ 16 := by
    rw [show b.roundingRange.point - 1 = b.roundingRange.point - 17 + 16 by ring,
      zpow_add₀ (by norm_num)]
    norm_num
  have short : (b.significand : ℚ) < 2 ^ 53 := by exact_mod_cast double.small
  rw [center_eq] at first near
  rw [step] at first
  generalize (10 : ℚ) ^ (b.roundingRange.point - 17) = unit at first near
  obtain ⟨low, high⟩ := abs_le.mp near
  have scale : (0 : ℚ) < 2 ^ b.exponent := by positivity
  have half : unit < 2 ^ b.exponent := by nlinarith
  have above : v < (4 * b.significand + 2) * 2 ^ (b.exponent - 2) := by
    rw [quarter]
    linarith
  have below :
      (4 * b.significand - reachBelow b.significand b.exponent) * 2 ^ (b.exponent - 2) < v := by
    rw [quarter, reachBelow]
    split_ifs with power
    · -- the least significand, so the unit is half as large compared with the number
      rw [power.1] at first low ⊢
      push_cast at first low ⊢
      linarith
    · push_cast
      linarith
  exact (holds_iff pos v).mpr ⟨below.le, above.le, .inr ⟨below, above⟩⟩

/-- The shortest digits have no zero at their end, and their number lies in the range. -/
theorem shortest_spec (double : IsDouble b.significand b.exponent) (pos : 0 < b.significand) :
    b.shortest.digits % 10 ≠ 0 ∧ b.roundingRange.Holds b.shortest.value := by
  have searched : ∃ d, (List.range' 1 17).findSome? b.roundingRange.withDigits = some d := by
    obtain ⟨d, found⟩ := RoundingRange.exists_withDigits b.denominator_pos
      (seventeen_digits double pos)
    rw [← Option.isSome_iff_exists, List.findSome?_isSome_iff]
    exact ⟨17, by decide, by rw [found]; rfl⟩
  obtain ⟨d, searched⟩ := searched
  obtain ⟨count, inRange, found⟩ := List.exists_of_findSome?_eq_some searched
  obtain ⟨holds, -⟩ := RoundingRange.of_withDigits b.denominator_pos found
  have few : d.digits ≤ 10 ^ 17 := by
    refine (RoundingRange.digits_le_of_withDigits b.denominator_pos (middle_pos pos) found).trans ?_
    have : count ≤ 17 := by
      rw [List.mem_range'] at inRange
      omega
    exact Nat.pow_le_pow_right (by decide) this
  have some : 0 < d.digits := by
    by_contra none
    have zero : d.value = 0 := by simp [Decimal.value, Nat.eq_zero_of_not_pos none]
    exact (pos_of_holds pos holds).ne' zero
  obtain ⟨same, last⟩ := Decimal.stripZeros_spec 17 some few
  have stripped : b.shortest = d.stripZeros 17 := by
    rw [shortest, RoundingRange.fewestDigits, searched]
  rw [stripped, same]
  exact ⟨last, holds⟩

theorem isDouble_of_ofFloat? {x : Float} (view : ofFloat? x = some b) (pos : 0 < b.significand) :
    IsDouble b.significand b.exponent ∧ x.toModel.unpack =
      .finite (if b.negative then .negative else .positive) b.significand b.exponent pos := by
  have packable := packable_unpack x
  rw [ofFloat?_eq] at view
  cases unpacked : x.toModel.unpack with
  | notANumber | infinity sign => rw [unpacked] at view; cases view
  | zero sign =>
      rw [unpacked] at view
      cases view
      exact absurd pos (lt_irrefl 0)
  | finite sign a e _ =>
      rw [unpacked] at view packable
      cases view
      refine ⟨packable, ?_⟩
      cases sign <;> rfl

end Binary

end ScriptTree
