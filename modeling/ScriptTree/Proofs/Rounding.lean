import Mathlib
import ScriptTree.Proofs.Integers

/-!
# Rounding to doubles

`nearest v` is the double nearest to a rational number: its significand counts units of the last of
53 bits (`unitExponent`), and the number of units is rounded to the nearest natural number, a tie to
the even one (`nearestNat`).

The arithmetic of doubles keeps two more bits behind a significand while it shifts it.  They tell
where the exact number lies between a significand and the next one (`Located`), which is all that
rounding needs.  So products, sums, quotients and natural numbers are rounded to the nearest double
(`mul_eq`, `add_eq`, `div_eq`, `ofNat_eq`).
-/

namespace ScriptTree

open Float.Model Float.Model.UnpackedFloat

/-! ## Rounding to a natural number -/

/-- The natural number nearest to `w`.  A tie goes to the even one. -/
def nearestNat (w : ℚ) : ℕ :=
  if w < ⌊w⌋₊ + 1 / 2 then ⌊w⌋₊
  else if w = ⌊w⌋₊ + 1 / 2 then ⌊w⌋₊ + ⌊w⌋₊ % 2
  else ⌊w⌋₊ + 1

/-- A natural number is the nearest one when it is less than a half away, or a half and even. -/
theorem nearestNat_eq_iff {w : ℚ} (nonneg : 0 ≤ w) {n : ℕ} :
    nearestNat w = n ↔ |w - n| < 1 / 2 ∨ |w - n| = 1 / 2 ∧ n % 2 = 0 := by
  have low : (⌊w⌋₊ : ℚ) ≤ w := Nat.floor_le nonneg
  have high : w < ⌊w⌋₊ + 1 := Nat.lt_floor_add_one w
  rw [nearestNat]
  generalize ⌊w⌋₊ = k at low high
  constructor
  · intro same
    split_ifs at same with less tie
    · subst same
      left
      rw [abs_of_nonneg (by linarith)]
      linarith
    · right
      rcases Nat.mod_two_eq_zero_or_one k with even | odd
      · rw [even, add_zero] at same
        subst same
        rw [abs_of_nonneg (by linarith)]
        exact ⟨by linarith, even⟩
      · rw [odd] at same
        subst same
        push_cast
        rw [abs_of_nonpos (by linarith)]
        exact ⟨by linarith, by omega⟩
    · subst same
      left
      push_cast
      have more : (k : ℚ) + 1 / 2 < w := lt_of_le_of_ne (not_lt.mp less) (Ne.symm tie)
      rw [abs_of_nonpos (by linarith)]
      linarith
  · intro near
    have close : |w - n| ≤ 1 / 2 := near.elim le_of_lt fun h => le_of_eq h.1
    obtain ⟨least, most⟩ := abs_le.mp close
    -- only the two neighbours are that close
    have lower : k ≤ n := by
      have : (k : ℚ) < n + 1 := by linarith
      exact Nat.lt_succ_iff.mp (by exact_mod_cast this)
    have upper : n ≤ k + 1 := by
      have : (n : ℚ) < k + 2 := by linarith
      have : n < k + 2 := by exact_mod_cast this
      omega
    obtain rfl | rfl : n = k ∨ n = k + 1 := by omega
    · rw [abs_of_nonneg (by linarith)] at near
      rcases near with less | ⟨tie, even⟩
      · rw [if_pos (by linarith)]
      · rw [if_neg (by linarith), if_pos (by linarith), even, add_zero]
    · push_cast at near
      rw [abs_of_nonpos (by linarith)] at near
      rcases near with more | ⟨tie, even⟩
      · rw [if_neg (by linarith), if_neg (by linarith)]
      · rw [if_neg (by linarith), if_pos (by linarith)]
        omega

theorem nearestNat_close {w : ℚ} (nonneg : 0 ≤ w) : |w - nearestNat w| ≤ 1 / 2 :=
  ((nearestNat_eq_iff nonneg).mp rfl).elim le_of_lt fun h => le_of_eq h.1

/-- No other natural number is nearer. -/
theorem nearestNat_closest {w : ℚ} (nonneg : 0 ≤ w) {k : ℕ} (other : k ≠ nearestNat w) :
    |w - nearestNat w| < |w - k| ∨ |w - nearestNat w| = |w - k| ∧ nearestNat w % 2 = 0 := by
  have near := (nearestNat_eq_iff nonneg).mp (rfl : nearestNat w = nearestNat w)
  have apart : (1 : ℚ) ≤ |(nearestNat w : ℚ) - k| := by
    have : (1 : ℤ) ≤ |(nearestNat w : ℤ) - k| := Int.one_le_abs (by omega)
    exact_mod_cast this
  have triangle : |(nearestNat w : ℚ) - k| ≤ |w - nearestNat w| + |w - k| := by
    rw [abs_sub_comm w (nearestNat w)]
    exact abs_sub_le _ _ _
  rcases near with less | ⟨half, even⟩
  · left
    linarith
  · rcases (show |w - nearestNat w| ≤ |w - k| by linarith).lt_or_eq with less | tie
    · exact .inl less
    · exact .inr ⟨tie, even⟩

theorem nearestNat_le_abs {w : ℚ} (nonneg : 0 ≤ w) (k : ℕ) : |w - nearestNat w| ≤ |w - k| := by
  by_cases same : k = nearestNat w
  · rw [same]
  · exact (nearestNat_closest nonneg same).elim le_of_lt fun h => h.1.le

theorem le_nearestNat_of_le {w : ℚ} {k : ℕ} (least : (k : ℚ) ≤ w) : k ≤ nearestNat w := by
  have := abs_le.mp (nearestNat_close (le_trans (Nat.cast_nonneg k) least))
  have : (k : ℚ) < nearestNat w + 1 := by linarith
  exact Nat.lt_succ_iff.mp (by exact_mod_cast this)

/-! ## The bits behind a significand -/

/-- Where a number is between a significand and the next one, as the two bits behind the significand
tell. -/
def Located : ExtendedMantissa → ℚ → Prop
  | ⟨a, false, false⟩, w => w = a
  | ⟨a, false, true⟩, w => (a : ℚ) < w ∧ w < a + 1 / 2
  | ⟨a, true, false⟩, w => w = a + 1 / 2
  | ⟨a, true, true⟩, w => (a : ℚ) + 1 / 2 < w ∧ w < a + 1

namespace Located

variable {em : ExtendedMantissa} {w : ℚ}

theorem bounds (h : Located em w) : (em.mantissa : ℚ) ≤ w ∧ w < em.mantissa + 1 := by
  obtain ⟨a, half, rest⟩ := em
  cases half <;> cases rest <;> simp only [Located] at h ⊢ <;> constructor <;> linarith

theorem shiftRightOne (h : Located em w) : Located em.shiftRightOne (w / 2) := by
  obtain ⟨a, half, rest⟩ := em
  have split : ((a / 2 : ℕ) : ℚ) * 2 + (a % 2 : ℕ) = a := by exact_mod_cast Nat.div_add_mod' a 2
  rcases Nat.mod_two_eq_zero_or_one a with even | odd
  · rw [even, Nat.cast_zero, add_zero] at split
    cases half <;> cases rest <;>
      simp only [Located, ExtendedMantissa.shiftRightOne, even, bne_self_eq_false, Bool.or_self,
        Bool.or_true, Bool.true_or] at h ⊢ <;>
      (try constructor) <;> linarith
  · rw [odd, Nat.cast_one] at split
    have bit : (1 != 0) = true := rfl
    cases half <;> cases rest <;>
      simp only [Located, ExtendedMantissa.shiftRightOne, odd, bit, Bool.or_self,
        Bool.or_true, Bool.true_or] at h ⊢ <;>
      (try constructor) <;> linarith

theorem shiftRight (h : Located em w) (j : ℕ) : Located (em >>> j) (w / 2 ^ j) := by
  show Located (j.repeat ExtendedMantissa.shiftRightOne em) (w / 2 ^ j)
  induction j with
  | zero => simpa [Nat.repeat] using h
  | succ j ih =>
      rw [Nat.repeat, pow_succ, ← div_div]
      exact ih.shiftRightOne

theorem roundedMantissa (h : Located em w) : em.roundedMantissa = nearestNat w := by
  obtain ⟨least, most⟩ := h.bounds
  symm
  rw [nearestNat_eq_iff (le_trans (Nat.cast_nonneg _) least)]
  obtain ⟨a, half, rest⟩ := em
  simp only at least most
  cases half <;> cases rest <;>
    simp only [Located, ExtendedMantissa.roundedMantissa, ExtendedMantissa.accuracy,
      Accuracy.roundToNearestEven] at h ⊢
  · left
    simp [h]
  · left
    rw [abs_of_nonneg (by linarith)]
    linarith
  · right
    rcases Nat.mod_two_eq_zero_or_one a with even | odd
    · simp [h, even]
    · rw [h, odd]
      push_cast
      constructor
      · rw [abs_of_nonpos (by linarith)]
        ring
      · omega
  · left
    push_cast
    rw [abs_of_nonpos (by linarith)]
    linarith

end Located

theorem located_exact (a : ℕ) : Located (.ofMantissaAndAccuracy a .exact) a := rfl

/-- The bits of a quotient. -/
theorem located_quotient (n : ℕ) {d : ℕ} (pos : 0 < d) :
    Located (.ofMantissaAndAccuracy (n / d) (accuracyOfFraction (n % d) d)) (n / d : ℚ) := by
  have pos' : (0 : ℚ) < d := by exact_mod_cast pos
  have split : (n : ℚ) / d = (n / d : ℕ) + (n % d : ℕ) / d := by
    field_simp
    exact_mod_cast (Nat.div_add_mod n d).symm
  have less : ((n % d : ℕ) : ℚ) < d := by exact_mod_cast Nat.mod_lt n pos
  rw [split, accuracyOfFraction]
  generalize n % d = r at less
  split_ifs with zero
  · simp [zero, Located, ExtendedMantissa.ofMantissaAndAccuracy]
  · have positive : (0 : ℚ) < r := by exact_mod_cast Nat.pos_of_ne_zero zero
    have fraction : (0 : ℚ) < r / d := div_pos positive pos'
    have whole : (r : ℚ) / d < 1 := (div_lt_one pos').mpr less
    cases compared : compare (2 * r) d with
    | lt =>
        have : ((2 * r : ℕ) : ℚ) < d := by exact_mod_cast Nat.compare_eq_lt.mp compared
        push_cast at this
        have half : (r : ℚ) / d < 1 / 2 := by
          rw [div_lt_div_iff₀ pos' two_pos]
          linarith
        simp only [ExtendedMantissa.ofMantissaAndAccuracy, Located]
        constructor <;> linarith
    | eq =>
        have : ((2 * r : ℕ) : ℚ) = d := by exact_mod_cast Nat.compare_eq_eq.mp compared
        push_cast at this
        have half : (r : ℚ) / d = 1 / 2 := by
          rw [div_eq_div_iff pos'.ne' two_ne_zero]
          linarith
        simp only [ExtendedMantissa.ofMantissaAndAccuracy, Located, half]
    | gt =>
        have : (d : ℚ) < (2 * r : ℕ) := by exact_mod_cast Nat.compare_eq_gt.mp compared
        push_cast at this
        have half : 1 / 2 < (r : ℚ) / d := by
          rw [div_lt_div_iff₀ two_pos pos']
          linarith
        simp only [ExtendedMantissa.ofMantissaAndAccuracy, Located]
        constructor <;> linarith

/-! ## The double nearest to a number -/

/-- The power of two that the significand of the double nearest to `v` counts. -/
def unitExponent (v : ℚ) : ℤ := max (Int.log 2 v - 52) (-1074)

/-- A number has at most 53 bits before the unit. -/
theorem lt_unit (v : ℚ) : v < 2 ^ (unitExponent v + 53) := by
  have below : v < (2 : ℕ) ^ (Int.log 2 v + 1) := Int.lt_zpow_succ_log_self one_lt_two v
  have mono : (2 : ℚ) ^ (Int.log 2 v + 1) ≤ 2 ^ (unitExponent v + 53) :=
    zpow_le_zpow_right₀ one_le_two (by rw [unitExponent]; omega)
  exact lt_of_lt_of_le (by exact_mod_cast below) mono

/-- It has 53 of them, unless the unit is the least one. -/
theorem unit_le {v : ℚ} (pos : 0 < v) (more : -1074 < unitExponent v) :
    2 ^ (unitExponent v + 52) ≤ v := by
  have above : ((2 : ℕ) : ℚ) ^ Int.log 2 v ≤ v := Int.zpow_log_le_self one_lt_two pos
  have same : unitExponent v + 52 = Int.log 2 v := by
    rw [unitExponent] at more ⊢
    omega
  rw [same]
  exact_mod_cast above

theorem unitExponent_eq {v : ℚ} (pos : 0 < v) {e : ℤ} (most : v < 2 ^ (e + 53))
    (least : -1074 ≤ e) (full : -1074 < e → 2 ^ (e + 52) ≤ v) : unitExponent v = e := by
  have below : Int.log 2 v < e + 53 := by
    rw [← Int.lt_zpow_iff_log_lt one_lt_two pos]
    exact_mod_cast most
  rw [unitExponent]
  rcases least.eq_or_lt with rfl | more
  · omega
  · have above : e + 52 ≤ Int.log 2 v := by
      rw [← Int.zpow_le_iff_le_log one_lt_two pos]
      exact_mod_cast full more
    omega

theorem neg_le_unitExponent (v : ℚ) : -1074 ≤ unitExponent v := le_max_right _ _

/-- A significand of at most 53 bits, or `2 ^ 53`, which has one bit more. -/
def carried (sign : Sign) (a : ℕ) (e : ℤ) : UnpackedFloat :=
  if pos : 0 < a then
    if a < 2 ^ 53 then .finite sign a e pos else .finite sign (2 ^ 52) (e + 1) (by decide)
  else .zero sign

/-- The double nearest to `v`, before it is packed. -/
def nearestUnpacked (sign : Sign) (v : ℚ) : UnpackedFloat :=
  carried sign (nearestNat (v / 2 ^ unitExponent v)) (unitExponent v)

/-- The double nearest to `v`, for `v` that is not negative. -/
def nearest (v : ℚ) : Float := .ofModel (.pack (nearestUnpacked .positive v))

/-! ## Rounding in the model -/

theorem targetExponent_eq (m : ℕ) (e : ℤ) :
    Format.targetExponent .binary64 (totalExponent m e) = max (m.log2 + e - 52) (-1074) := by
  simp only [Format.targetExponent, totalExponent, Format.mantissaBits, Format.minExponent]
  omega

/-- A significand other than zero tells how many bits a number has. -/
theorem log_eq {m : ℕ} (some : 0 < m) {e : ℤ} {v : ℚ} (least : m * 2 ^ e ≤ v)
    (most : v < (m + 1) * 2 ^ e) : Int.log 2 v = m.log2 + e := by
  have pos : 0 < v := lt_of_lt_of_le (by positivity) least
  have first : (2 : ℚ) ^ m.log2 ≤ m := by exact_mod_cast Nat.log2_self_le some.ne'
  have next : (m : ℚ) + 1 ≤ 2 ^ (m.log2 + 1) := by exact_mod_cast Nat.lt_log2_self (n := m)
  apply le_antisymm
  · rw [← Int.lt_add_one_iff, ← Int.lt_zpow_iff_log_lt one_lt_two pos]
    calc v < (m + 1) * 2 ^ e := most
      _ ≤ 2 ^ (m.log2 + 1) * 2 ^ e := by gcongr
      _ = ((2 : ℕ) : ℚ) ^ ((m.log2 : ℤ) + e + 1) := by
        rw [← zpow_natCast, ← zpow_add₀ two_ne_zero]
        push_cast
        ring_nf
  · rw [← Int.zpow_le_iff_le_log one_lt_two pos]
    calc ((2 : ℕ) : ℚ) ^ ((m.log2 : ℤ) + e) = 2 ^ m.log2 * 2 ^ e := by
          rw [← zpow_natCast, ← zpow_add₀ two_ne_zero]
          rfl
      _ ≤ m * 2 ^ e := by gcongr
      _ ≤ v := least

/-- Shifting a number that has bits enough leaves the significand before the unit. -/
theorem shiftToTargetExponent_located {m : ℕ} {e : ℤ} {accuracy : Accuracy} {v : ℚ} (pos : 0 < v)
    (located : Located (.ofMantissaAndAccuracy m accuracy) (v / 2 ^ e))
    (fine : e ≤ unitExponent v) :
    ∃ em, shiftToTargetExponent .binary64 m e accuracy = (em, unitExponent v) ∧
      Located em (v / 2 ^ unitExponent v) := by
  have scale : (0 : ℚ) < 2 ^ e := by positivity
  have same : (ExtendedMantissa.ofMantissaAndAccuracy m accuracy).mantissa = m := by
    cases accuracy with
    | exact => rfl
    | inexact order => cases order <;> rfl
  obtain ⟨least, most⟩ := located.bounds
  rw [same, le_div_iff₀ scale] at least
  rw [same, div_lt_iff₀ scale] at most
  have target : Format.targetExponent .binary64 (totalExponent m e) = unitExponent v := by
    rw [targetExponent_eq]
    rcases Nat.eq_zero_or_pos m with rfl | some
    · -- a number below the unit of the significand is below the least unit
      have small : Int.log 2 v < e := by
        rw [← Int.lt_zpow_iff_log_lt one_lt_two pos]
        simpa using most
      rw [unitExponent] at fine ⊢
      simp only [Nat.log2_zero, Nat.cast_zero]
      omega
    · rw [unitExponent, log_eq some least most]
  have steps : ((unitExponent v - e).toNat : ℤ) = unitExponent v - e := by omega
  refine ⟨ExtendedMantissa.ofMantissaAndAccuracy m accuracy >>> (unitExponent v - e).toNat, ?_, ?_⟩
  · rw [shiftToTargetExponent, target, shiftToExponent, steps]
    simp
  · have shifted := located.shiftRight (unitExponent v - e).toNat
    rw [div_div, ← zpow_natCast, steps, ← zpow_add₀ two_ne_zero] at shifted
    simpa using shifted

/-- A significand of at most 53 bits is in its place. -/
theorem shiftToTargetExponent_small {a : ℕ} {e : ℤ} (small : a < 2 ^ 53) (least : -1074 ≤ e) :
    shiftToTargetExponent .binary64 a e .exact = (⟨a, false, false⟩, e) := by
  have bits : a.log2 ≤ 52 := by
    rcases Nat.eq_zero_or_pos a with rfl | pos
    · simp
    · exact Nat.lt_succ_iff.mp ((Nat.log2_lt pos.ne').mpr small)
  have target : (Format.targetExponent .binary64 (totalExponent a e) - e).toNat = 0 := by
    rw [targetExponent_eq]
    omega
  have unshifted : ExtendedMantissa.mk a false false >>> 0 = ⟨a, false, false⟩ := rfl
  simp [shiftToTargetExponent, shiftToExponent, target, ExtendedMantissa.ofMantissaAndAccuracy,
    unshifted]

/-- What rounding does once the significand is rounded. -/
theorem roundWithAccuracy_carried {m a : ℕ} {e e' : ℤ} {accuracy : Accuracy} {em : ExtendedMantissa}
    (first : shiftToTargetExponent .binary64 m e accuracy = (em, e'))
    (rounded : em.roundedMantissa = a) (most : a ≤ 2 ^ 53) (least : -1074 ≤ e') (sign : Sign) :
    roundWithAccuracy .binary64 sign m e accuracy = carried sign a e' := by
  have carry {em : ExtendedMantissa} {e'' : ℤ}
      (second : shiftToTargetExponent .binary64 a e' .exact = (em, e'')) :
      roundWithAccuracy .binary64 sign m e accuracy =
        if zero : em.mantissa = 0 then .zero sign
        else .finite sign em.mantissa e'' (Nat.pos_of_ne_zero zero) := by
    simp only [roundWithAccuracy, first, rounded, second]
  rw [carried]
  by_cases small : a < 2 ^ 53
  · rw [carry (shiftToTargetExponent_small small least)]
    rcases Nat.eq_zero_or_pos a with rfl | some
    · rfl
    · rw [dif_neg some.ne', dif_pos some, if_pos small]
  · -- a carry into the 54th bit
    obtain rfl : a = 2 ^ 52 * 2 ^ 1 := by omega
    rw [carry (shiftToTargetExponent_zeros (le_refl _) (by decide) 1 (by omega))]
    rfl

/-- The significand of the nearest double has at most one bit too many. -/
theorem nearestNat_le {v : ℚ} (pos : 0 < v) : nearestNat (v / 2 ^ unitExponent v) ≤ 2 ^ 53 := by
  have unit : (0 : ℚ) < 2 ^ unitExponent v := by positivity
  have less : v / 2 ^ unitExponent v < 2 ^ 53 := by
    rw [div_lt_iff₀ unit, ← zpow_natCast, ← zpow_add₀ two_ne_zero, add_comm]
    exact lt_unit v
  have most := (abs_le.mp (nearestNat_close (w := v / 2 ^ unitExponent v) (by positivity))).1
  have : (nearestNat (v / 2 ^ unitExponent v) : ℚ) < 2 ^ 53 + 1 := by linarith
  exact Nat.lt_succ_iff.mp (by exact_mod_cast this)

/-- A number that has bits enough is rounded to the nearest double. -/
theorem roundWithAccuracy_eq {m : ℕ} {e : ℤ} {accuracy : Accuracy} {v : ℚ} (pos : 0 < v)
    (located : Located (.ofMantissaAndAccuracy m accuracy) (v / 2 ^ e))
    (fine : e ≤ unitExponent v) (sign : Sign) :
    roundWithAccuracy .binary64 sign m e accuracy = nearestUnpacked sign v := by
  obtain ⟨em, first, located⟩ := shiftToTargetExponent_located pos located fine
  exact roundWithAccuracy_carried first located.roundedMantissa (nearestNat_le pos)
    (neg_le_unitExponent v) sign

/-- Every number of the form `m * 2 ^ e` is rounded to the nearest double. -/
theorem round_eq {m : ℕ} (some : 0 < m) (e : ℤ) (sign : Sign) :
    UnpackedFloat.round .binary64 sign m e = nearestUnpacked sign (m * 2 ^ e) := by
  have pos : (0 : ℚ) < m * 2 ^ e := by positivity
  have next : (m : ℚ) * 2 ^ e < (m + 1) * 2 ^ e := by
    have : (0 : ℚ) < 2 ^ e := by positivity
    linarith
  have target : Format.targetExponent .binary64 (totalExponent m e) = unitExponent (m * 2 ^ e) := by
    rw [targetExponent_eq, unitExponent, log_eq some le_rfl next]
  rw [UnpackedFloat.round, target, decreaseExponent, Nat.shiftLeft_eq]
  refine roundWithAccuracy_eq pos ?_ (by omega) sign
  have same : (m * 2 ^ e : ℚ) / 2 ^ (e - (e - unitExponent (m * 2 ^ e)).toNat) =
      (m * 2 ^ (e - unitExponent (m * 2 ^ e)).toNat : ℕ) := by
    rw [zpow_sub₀ two_ne_zero, zpow_natCast]
    push_cast
    field_simp
  rw [same]
  exact located_exact _

/-- A signed significand is rounded to the nearest double of its sign. -/
theorem normalize_eq {i : ℤ} (some : i ≠ 0) (e : ℤ) (zero : Sign) :
    UnpackedFloat.normalize .binary64 i e zero =
      nearestUnpacked (if i < 0 then .negative else .positive) (i.natAbs * 2 ^ e) := by
  rcases lt_or_gt_of_ne some with less | greater
  · have compared : compare i 0 = .lt := Int.compare_eq_lt.mpr less
    have size : (-i).toNat = i.natAbs := by omega
    simp only [UnpackedFloat.normalize, compared, size]
    rw [if_pos less, round_eq (by omega)]
  · have compared : compare i 0 = .gt := Int.compare_eq_gt.mpr greater
    have size : i.toNat = i.natAbs := by omega
    simp only [UnpackedFloat.normalize, compared, size]
    rw [if_neg greater.le.not_gt, round_eq (by omega)]

/-! ## The operations of the model -/

section Operations

variable {m₁ m₂ : ℕ} (pos₁ : 0 < m₁) (pos₂ : 0 < m₂) (e₁ e₂ : ℤ)

/-- A product that has bits enough is rounded to the nearest double. -/
theorem mul_eq (s₁ s₂ : Sign) (fine : e₁ + e₂ ≤ unitExponent (m₁ * 2 ^ e₁ * (m₂ * 2 ^ e₂))) :
    UnpackedFloat.mul .binary64 (.finite s₁ m₁ e₁ pos₁) (.finite s₂ m₂ e₂ pos₂) =
      nearestUnpacked (s₁ * s₂) (m₁ * 2 ^ e₁ * (m₂ * 2 ^ e₂)) := by
  refine roundWithAccuracy_eq (by positivity) ?_ fine _
  have same : (m₁ * 2 ^ e₁ * (m₂ * 2 ^ e₂) : ℚ) / 2 ^ (e₁ + e₂) = (m₁ * m₂ : ℕ) := by
    rw [zpow_add₀ two_ne_zero]
    push_cast
    field_simp
  rw [same]
  exact located_exact _

/-- A power of two over a smaller one. -/
theorem two_zpow_eq {e e' : ℤ} (le : e ≤ e') : (2 ^ e' : ℚ) = 2 ^ (e' - e).toNat * 2 ^ e := by
  rw [← zpow_natCast, ← zpow_add₀ two_ne_zero, Int.toNat_of_nonneg (by omega), sub_add_cancel]

/-- A sum is one of whole multiples of the smaller unit, and then rounded. -/
theorem exists_add (s₁ s₂ : Sign) :
    ∃ i : ℤ, (i * 2 ^ min e₁ e₂ : ℚ) = s₁.apply m₁ * 2 ^ e₁ + s₂.apply m₂ * 2 ^ e₂ ∧
      UnpackedFloat.add .binary64 (.finite s₁ m₁ e₁ pos₁) (.finite s₂ m₂ e₂ pos₂) =
        UnpackedFloat.normalize .binary64 i (min e₁ e₂) .positive := by
  obtain ⟨e, same⟩ : ∃ e, e = min e₁ e₂ := ⟨_, rfl⟩
  have scaled (s : Sign) (m : ℕ) {e' : ℤ} (le : e ≤ e') :
      (s.apply m * 2 ^ e' : ℚ) = s.apply (m * 2 ^ (e' - e).toNat) * 2 ^ e := by
    rw [two_zpow_eq le]
    cases s <;> simp only [Sign.apply] <;> push_cast <;> ring
  refine ⟨s₁.apply (m₁ * 2 ^ (e₁ - e).toNat) + s₂.apply (m₂ * 2 ^ (e₂ - e).toNat), ?_, ?_⟩
  · rw [scaled s₁ m₁ (show e ≤ e₁ by omega), scaled s₂ m₂ (show e ≤ e₂ by omega), ← same]
    push_cast
    ring
  · simp only [UnpackedFloat.add, decreaseExponent, ← same, Nat.shiftLeft_eq, Nat.cast_mul,
      Nat.cast_pow, Nat.cast_ofNat]

/-- A sum of positive numbers is rounded to the nearest double. -/
theorem add_eq :
    UnpackedFloat.add .binary64 (.finite .positive m₁ e₁ pos₁) (.finite .positive m₂ e₂ pos₂) =
      nearestUnpacked .positive (m₁ * 2 ^ e₁ + m₂ * 2 ^ e₂) := by
  obtain ⟨i, exact, sum⟩ := exists_add pos₁ pos₂ e₁ e₂ .positive .positive
  have unit : (0 : ℚ) < 2 ^ min e₁ e₂ := by positivity
  have total : (i * 2 ^ min e₁ e₂ : ℚ) = m₁ * 2 ^ e₁ + m₂ * 2 ^ e₂ := exact
  have positive : (0 : ℚ) < i := by
    refine pos_of_mul_pos_left ?_ unit.le
    rw [total]
    positivity
  have some : 0 < i := by exact_mod_cast positive
  rw [sum, normalize_eq some.ne', if_neg some.le.not_gt, ← total]
  rw [Nat.cast_natAbs, abs_of_pos some]

/-- A quotient is rounded to the nearest double. -/
theorem div_eq (s₁ s₂ : Sign) :
    UnpackedFloat.div .binary64 (.finite s₁ m₁ e₁ pos₁) (.finite s₂ m₂ e₂ pos₂) =
      nearestUnpacked (s₁ / s₂) (m₁ * 2 ^ e₁ / (m₂ * 2 ^ e₂)) := by
  have pos : (0 : ℚ) < m₁ * 2 ^ e₁ / (m₂ * 2 ^ e₂) := by positivity
  obtain ⟨target, same⟩ : ∃ target, target = min (e₁ - e₂)
    (Format.targetExponent .binary64 (totalExponent m₁ e₁ - totalExponent m₂ e₂)) := ⟨_, rfl⟩
  have steps : ((e₁ - e₂ - target).toNat : ℤ) = e₁ - e₂ - target := by omega
  have quotient : (m₁ * 2 ^ e₁ / (m₂ * 2 ^ e₂) : ℚ) / 2 ^ target =
      (m₁ * 2 ^ (e₁ - e₂ - target).toNat : ℕ) / m₂ := by
    push_cast
    rw [← zpow_natCast, steps, zpow_sub₀ two_ne_zero, zpow_sub₀ two_ne_zero]
    field_simp
  -- the quotient has as many bits as the lengths differ by, or one less
  have bits : (m₁.log2 : ℤ) + e₁ - m₂.log2 - e₂ - 1 ≤ Int.log 2 (m₁ * 2 ^ e₁ / (m₂ * 2 ^ e₂) : ℚ) := by
    have first : (2 : ℚ) ^ (m₁.log2 : ℤ) ≤ m₁ := by exact_mod_cast Nat.log2_self_le pos₁.ne'
    have next : (m₂ : ℚ) ≤ 2 ^ (m₂.log2 + 1 : ℤ) := by exact_mod_cast Nat.lt_log2_self.le
    rw [← Int.zpow_le_iff_le_log one_lt_two pos]
    push_cast
    calc (2 : ℚ) ^ ((m₁.log2 : ℤ) + e₁ - m₂.log2 - e₂ - 1)
        = 2 ^ (m₁.log2 : ℤ) * 2 ^ e₁ / (2 ^ (m₂.log2 + 1 : ℤ) * 2 ^ e₂) := by
          rw [← zpow_add₀ two_ne_zero, ← zpow_add₀ two_ne_zero, ← zpow_sub₀ two_ne_zero]
          congr 1
          ring
      _ ≤ m₁ * 2 ^ e₁ / (m₂ * 2 ^ e₂) := by gcongr
  have fine : target ≤ unitExponent (m₁ * 2 ^ e₁ / (m₂ * 2 ^ e₂)) := by
    rw [unitExponent]
    simp only [Format.targetExponent, totalExponent, Format.mantissaBits, Format.minExponent] at same
    omega
  simp only [UnpackedFloat.div, divCore, ← same, Nat.shiftLeft_eq]
  refine roundWithAccuracy_eq pos ?_ fine _
  rw [quotient]
  exact located_quotient _ pos₂

end Operations

/-- A natural number is rounded to the nearest double. -/
theorem ofNat_eq (n : ℕ) : UnpackedFloat.ofNat .binary64 n = nearestUnpacked .positive n := by
  rcases Nat.eq_zero_or_pos n with rfl | pos
  · simp [nearestUnpacked, nearestNat, carried, UnpackedFloat.ofNat, UnpackedFloat.ofInt,
      UnpackedFloat.normalize]
  · rw [UnpackedFloat.ofNat, UnpackedFloat.ofInt, normalize_eq (by omega), if_neg (by omega)]
    simp

end ScriptTree
