import Mathlib
import ScriptTree.Proofs.Doubles
import ScriptTree.Proofs.Rounding

/-!
# The nearest double

`nearest v` is the double that no other double is nearer to `v` than, the one with the even
significand when two are equally near (`isNearest_nearest`).  A number of `2 ^ 1024` counts as
infinity here, and as even.

On numbers that are doubles the product, the sum and the quotient of two doubles are the nearest
doubles to the exact ones (`nearest_mul`, `nearest_add`, `nearest_div`).  The numbers that round to
a double are those half a unit around it, a quarter below it where the unit changes
(`nearestUnpacked_of_range`).
-/

namespace ScriptTree

open Float.Model Float.Model.UnpackedFloat

/-! ## Numbers that are doubles -/

/-- The number is the size of a double. -/
def Representable (v : ℚ) : Prop := ∃ a e, IsDouble a e ∧ v = a * 2 ^ e

namespace IsDouble

variable {a : ℕ} {e : ℤ} (double : IsDouble a e)
include double

theorem lt_size : (a * 2 ^ e : ℚ) < 2 ^ (e + 53) := by
  have small : (a : ℚ) < 2 ^ (53 : ℤ) := by exact_mod_cast double.small
  rw [add_comm, zpow_add₀ two_ne_zero]
  gcongr

theorem size_le (more : -1074 < e) : (2 ^ (e + 52) : ℚ) ≤ a * 2 ^ e := by
  have full : (2 : ℚ) ^ (52 : ℤ) ≤ a := by exact_mod_cast double.full more
  rw [add_comm, zpow_add₀ two_ne_zero]
  gcongr

theorem unitExponent_size (pos : 0 < a) : unitExponent (a * 2 ^ e) = e :=
  unitExponent_eq (by positivity) double.lt_size double.least double.size_le

theorem nearestUnpacked_size (pos : 0 < a) (sign : Sign) :
    nearestUnpacked sign (a * 2 ^ e) = .finite sign a e pos := by
  have whole : nearestNat (a * 2 ^ e / 2 ^ e : ℚ) = a := by
    rw [mul_div_cancel_right₀ _ (by positivity), nearestNat_eq_iff (by positivity)]
    simp
  rw [nearestUnpacked, double.unitExponent_size pos, whole, carried, dif_pos pos,
    if_pos double.small]

theorem unpack_nearest (pos : 0 < a) :
    (nearest (a * 2 ^ e)).toModel.unpack = .finite .positive a e pos := by
  have packed : (nearest (a * 2 ^ e)).toModel.unpack =
      (Float.Model.pack (nearestUnpacked .positive (a * 2 ^ e))).unpack := rfl
  rw [packed, double.nearestUnpacked_size pos]
  exact Packable.unpack_pack (u := .finite .positive a e pos) double

end IsDouble

theorem nearestUnpacked_zero (sign : Sign) : nearestUnpacked sign 0 = .zero sign := by
  simp [nearestUnpacked, nearestNat, carried]

theorem unpack_nearest_zero : (nearest 0).toModel.unpack = .zero .positive := by
  have packed : (nearest 0).toModel.unpack =
      (Float.Model.pack (nearestUnpacked .positive 0)).unpack := rfl
  rw [packed, nearestUnpacked_zero]
  rfl

/-- A number of at most 53 bits is a double when its exponent is in the range. -/
theorem representable_of_lt {a : ℕ} {e : ℤ} (small : a < 2 ^ 53) (least : -1074 ≤ e)
    (most : e < 972) : Representable (a * 2 ^ e) := by
  rcases Nat.eq_zero_or_pos a with rfl | pos
  · exact ⟨0, -1074, ⟨by decide, by decide, by decide, by decide⟩, by simp⟩
  · obtain ⟨low, high⟩ := significand_bounds pos small
    obtain ⟨k, same⟩ : ∃ k, k = min (52 - a.log2) (e + 1074).toNat := ⟨_, rfl⟩
    refine ⟨a * 2 ^ k, e - k, ⟨?_, by omega, by omega, fun more => ?_⟩, ?_⟩
    · calc a * 2 ^ k ≤ a * 2 ^ (52 - a.log2) :=
            Nat.mul_le_mul_left _ (Nat.pow_le_pow_right two_pos (by omega))
        _ < 2 ^ 53 := high
    · have : k = 52 - a.log2 := by omega
      rw [this]
      exact low
    · rw [zpow_sub₀ two_ne_zero, zpow_natCast]
      push_cast
      field_simp

theorem representable_natCast {n : ℕ} (small : n < 2 ^ 53) : Representable n := by
  have := representable_of_lt small (e := 0) (by decide) (by decide)
  simpa using this

/-! ## Arithmetic on doubles -/

/-- A product of doubles has bits enough to be rounded. -/
theorem IsDouble.mul_fine {a b : ℕ} {e f : ℤ} (first : IsDouble a e) (second : IsDouble b f)
    (pos₁ : 0 < a) (pos₂ : 0 < b) : e + f ≤ unitExponent (a * 2 ^ e * (b * 2 ^ f)) := by
  by_cases long : 2 ^ 52 ≤ a * b
  · have bits : 52 + (e + f) ≤ Int.log 2 (a * 2 ^ e * (b * 2 ^ f) : ℚ) := by
      have long' : (2 : ℚ) ^ (52 : ℤ) ≤ a * b := by exact_mod_cast long
      rw [← Int.zpow_le_iff_le_log one_lt_two (by positivity)]
      push_cast
      calc (2 : ℚ) ^ (52 + (e + f)) = 2 ^ (52 : ℤ) * (2 ^ e * 2 ^ f) := by
            rw [zpow_add₀ two_ne_zero, zpow_add₀ two_ne_zero]
        _ ≤ a * b * (2 ^ e * 2 ^ f) := by gcongr
        _ = a * 2 ^ e * (b * 2 ^ f) := by ring
    rw [unitExponent]
    omega
  · -- both are below the normal range
    have least : e = -1074 := by
      by_contra other
      have := first.full (by have := first.least; omega)
      exact long (le_trans this (Nat.le_mul_of_pos_right a pos₂))
    have least' : f = -1074 := by
      by_contra other
      have := second.full (by have := second.least; omega)
      exact long (le_trans this (Nat.le_mul_of_pos_left b pos₁))
    rw [unitExponent]
    omega

section Arithmetic

variable {v w : ℚ} (hv : Representable v) (hw : Representable w)
include hv hw

theorem nearest_mul : nearest v * nearest w = nearest (v * w) := by
  obtain ⟨a, e, first, rfl⟩ := hv
  obtain ⟨b, f, second, rfl⟩ := hw
  have product : nearest (a * 2 ^ e) * nearest (b * 2 ^ f) = .ofModel (.pack (UnpackedFloat.mul
    .binary64 (nearest (a * 2 ^ e)).toModel.unpack (nearest (b * 2 ^ f)).toModel.unpack)) := rfl
  rw [product]
  apply congrArg (fun u => Float.ofModel (.pack u))
  rcases Nat.eq_zero_or_pos a with rfl | pos₁ <;> rcases Nat.eq_zero_or_pos b with rfl | pos₂
  · simp only [Nat.cast_zero, zero_mul, unpack_nearest_zero, nearestUnpacked_zero]
    rfl
  · simp only [Nat.cast_zero, zero_mul, unpack_nearest_zero, second.unpack_nearest pos₂,
      nearestUnpacked_zero]
    rfl
  · simp only [Nat.cast_zero, zero_mul, mul_zero, unpack_nearest_zero, first.unpack_nearest pos₁,
      nearestUnpacked_zero]
    rfl
  · rw [first.unpack_nearest pos₁, second.unpack_nearest pos₂,
      mul_eq pos₁ pos₂ e f _ _ (first.mul_fine second pos₁ pos₂)]
    rfl

theorem nearest_add : nearest v + nearest w = nearest (v + w) := by
  obtain ⟨a, e, first, rfl⟩ := hv
  obtain ⟨b, f, second, rfl⟩ := hw
  have sum : nearest (a * 2 ^ e) + nearest (b * 2 ^ f) = .ofModel (.pack (UnpackedFloat.add
    .binary64 (nearest (a * 2 ^ e)).toModel.unpack (nearest (b * 2 ^ f)).toModel.unpack)) := rfl
  rw [sum]
  apply congrArg (fun u => Float.ofModel (.pack u))
  rcases Nat.eq_zero_or_pos a with rfl | pos₁ <;> rcases Nat.eq_zero_or_pos b with rfl | pos₂
  · simp only [Nat.cast_zero, zero_mul, add_zero, unpack_nearest_zero, nearestUnpacked_zero]
    rfl
  · simp only [Nat.cast_zero, zero_mul, zero_add, unpack_nearest_zero, second.unpack_nearest pos₂,
      second.nearestUnpacked_size pos₂]
    rfl
  · simp only [Nat.cast_zero, zero_mul, add_zero, unpack_nearest_zero, first.unpack_nearest pos₁,
      first.nearestUnpacked_size pos₁]
    rfl
  · rw [first.unpack_nearest pos₁, second.unpack_nearest pos₂, add_eq pos₁ pos₂]

theorem nearest_div (some : w ≠ 0) : nearest v / nearest w = nearest (v / w) := by
  obtain ⟨a, e, first, rfl⟩ := hv
  obtain ⟨b, f, second, rfl⟩ := hw
  have pos₂ : 0 < b := Nat.pos_of_ne_zero fun zero => some (by simp [zero])
  have quotient : nearest (a * 2 ^ e) / nearest (b * 2 ^ f) = .ofModel (.pack (UnpackedFloat.div
    .binary64 (nearest (a * 2 ^ e)).toModel.unpack (nearest (b * 2 ^ f)).toModel.unpack)) := rfl
  rw [quotient]
  apply congrArg (fun u => Float.ofModel (.pack u))
  rcases Nat.eq_zero_or_pos a with rfl | pos₁
  · simp only [Nat.cast_zero, zero_mul, zero_div, unpack_nearest_zero, second.unpack_nearest pos₂,
      nearestUnpacked_zero]
    rfl
  · rw [first.unpack_nearest pos₁, second.unpack_nearest pos₂, div_eq pos₁ pos₂]
    rfl

end Arithmetic

/-! ## Too large and too small -/

/-- Positive infinity. -/
def infinity : Float := .ofModel (.pack (.infinity .positive))

theorem one_div_zero : (1 / 0 : Float) = infinity := rfl

/-- The double `a * 2 ^ e`, for a significand of at most 53 bits. -/
def double (a : ℕ) (e : ℤ) : Float := .ofModel (.pack (carried .positive a e))

theorem double_overflow {a : ℕ} {e : ℤ} (pos : 0 < a) (large : 972 ≤ e) : double a e = infinity := by
  rw [double, carried, dif_pos pos, infinity]
  split_ifs
  · rw [pack_overflow large]
  · rw [pack_overflow (by omega)]

theorem IsDouble.double_eq {a : ℕ} {e : ℤ} (h : IsDouble a e) (pos : 0 < a) :
    double a e = nearest (a * 2 ^ e) := by
  rw [double, nearest, h.nearestUnpacked_size pos, carried, dif_pos pos, if_pos h.small]

theorem exactValue?_double {a : ℕ} {e : ℤ} (h : IsDouble a e) :
    exactValue? (double a e) = some (a * 2 ^ e : ℚ) := by
  rcases Nat.eq_zero_or_pos a with rfl | pos
  · rw [double, carried, dif_neg (lt_irrefl 0), Nat.cast_zero, zero_mul]
    rfl
  · rw [h.double_eq pos, exactValue?, h.unpack_nearest pos]
    rfl

/-- Infinity times a double is infinity. -/
theorem infinity_mul {w : ℚ} (hw : Representable w) (pos : 0 < w) :
    infinity * nearest w = infinity := by
  obtain ⟨b, f, second, rfl⟩ := hw
  have pos' : 0 < b := Nat.pos_of_ne_zero fun zero => pos.ne' (by simp [zero])
  have product : infinity * nearest (b * 2 ^ f) = .ofModel (.pack (UnpackedFloat.mul .binary64
    (.infinity .positive) (nearest (b * 2 ^ f)).toModel.unpack)) := rfl
  rw [product, second.unpack_nearest pos']
  rfl

/-- Infinity and a double make infinity. -/
theorem infinity_add {w : ℚ} (hw : Representable w) : infinity + nearest w = infinity := by
  obtain ⟨b, f, second, rfl⟩ := hw
  have sum : infinity + nearest (b * 2 ^ f) = .ofModel (.pack (UnpackedFloat.add .binary64
    (.infinity .positive) (nearest (b * 2 ^ f)).toModel.unpack)) := rfl
  rw [sum]
  rcases Nat.eq_zero_or_pos b with rfl | pos
  · rw [Nat.cast_zero, zero_mul, unpack_nearest_zero]
    rfl
  · rw [second.unpack_nearest pos]
    rfl

/-- The significand of the nearest double has 53 bits, unless the unit is the least one. -/
theorem le_nearestNat {v : ℚ} (pos : 0 < v) (more : -1074 < unitExponent v) :
    2 ^ 52 ≤ nearestNat (v / 2 ^ unitExponent v) := by
  have bound : (2 ^ 52 : ℕ) ≤ v / 2 ^ unitExponent v := by
    have bits := unit_le pos more
    rw [add_comm, zpow_add₀ two_ne_zero] at bits
    rw [le_div_iff₀ (by positivity)]
    exact_mod_cast bits
  exact le_nearestNat_of_le bound

/-- A number of `2 ^ 1024` or more is nearest to infinity. -/
theorem nearest_of_large {v : ℚ} (large : 2 ^ (1024 : ℤ) ≤ v) : nearest v = infinity := by
  have pos : 0 < v := lt_of_lt_of_le (by positivity) large
  have bits : 1024 ≤ Int.log 2 v := by
    rw [← Int.zpow_le_iff_le_log one_lt_two pos]
    exact large
  have unit : 972 ≤ unitExponent v := by
    rw [unitExponent]
    omega
  have some := le_nearestNat pos (by omega)
  exact double_overflow (by omega) unit

/-- A number below half the least double is nearest to zero. -/
theorem nearest_of_small {v : ℚ} (nonneg : 0 ≤ v) (small : v < 2 ^ (-1075 : ℤ)) : nearest v = 0 := by
  have zero : Float.ofModel (.pack (.zero .positive)) = 0 := rfl
  rcases nonneg.eq_or_lt with rfl | pos
  · rw [nearest, nearestUnpacked_zero, zero]
  · have bits : Int.log 2 v < -1075 := by
      rw [← Int.lt_zpow_iff_log_lt one_lt_two pos]
      exact small
    have unit : unitExponent v = -1074 := by
      rw [unitExponent]
      omega
    have none : nearestNat (v / 2 ^ (-1074 : ℤ)) = 0 := by
      rw [nearestNat_eq_iff (by positivity)]
      left
      rw [Nat.cast_zero, sub_zero, abs_of_pos (by positivity), div_lt_iff₀ (by positivity)]
      calc v < 2 ^ (-1075 : ℤ) := small
        _ = 1 / 2 * 2 ^ (-1074 : ℤ) := by
          rw [show (-1075 : ℤ) = -1 + -1074 by decide, zpow_add₀ two_ne_zero]
          norm_num
    rw [nearest, nearestUnpacked, unit, none]
    exact zero

/-! ## No double is nearer -/

/-- The sizes that rounding can give.  The last one stands for infinity. -/
def OnGrid (a : ℕ) (e : ℤ) : Prop := IsDouble a e ∨ a = 2 ^ 52 ∧ e = 972

/-- No double is nearer to `v` than `x`, and those that are as near have an odd significand. -/
def IsNearest (v : ℚ) (x : Float) : Prop :=
  ∃ a e, OnGrid a e ∧ x = double a e ∧ ∀ b f, OnGrid b f → (b * 2 ^ f : ℚ) ≠ a * 2 ^ e →
    |v - a * 2 ^ e| < |v - b * 2 ^ f| ∨ |v - a * 2 ^ e| = |v - b * 2 ^ f| ∧ a % 2 = 0

/-- No number on the grid is nearer to `v` than the one at the nearest multiple of its unit. -/
theorem nearest_multiple {v : ℚ} (pos : 0 < v) {b : ℕ} {f : ℤ} (small : b < 2 ^ 53)
    (least : -1074 ≤ f)
    (other : (b * 2 ^ f : ℚ) ≠ nearestNat (v / 2 ^ unitExponent v) * 2 ^ unitExponent v) :
    |v - nearestNat (v / 2 ^ unitExponent v) * 2 ^ unitExponent v| < |v - b * 2 ^ f| ∨
      |v - nearestNat (v / 2 ^ unitExponent v) * 2 ^ unitExponent v| = |v - b * 2 ^ f| ∧
        nearestNat (v / 2 ^ unitExponent v) % 2 = 0 := by
  obtain ⟨unit, same⟩ : ∃ unit : ℚ, unit = 2 ^ unitExponent v := ⟨_, rfl⟩
  have scale : 0 < unit := by rw [same]; positivity
  have scaled (k : ℚ) : |v - k * unit| = |v / unit - k| * unit := by
    rw [← abs_of_pos scale, ← abs_mul, abs_of_pos scale, sub_mul, div_mul_cancel₀ _ scale.ne']
  rw [← same] at other ⊢
  by_cases coarse : unitExponent v ≤ f
  · -- a multiple of the unit
    have multiple : (b * 2 ^ f : ℚ) = (b * 2 ^ (f - unitExponent v).toNat : ℕ) * unit := by
      push_cast
      rw [same, mul_assoc, ← zpow_natCast, ← zpow_add₀ two_ne_zero, Int.toNat_of_nonneg (by omega)]
      congr 2
      omega
    rw [multiple] at other ⊢
    have closest := nearestNat_closest (w := v / unit) (by positivity)
      (k := b * 2 ^ (f - unitExponent v).toNat) (fun h => other (by rw [h]))
    rw [scaled, scaled]
    rcases closest with less | ⟨tie, even⟩
    · exact .inl (mul_lt_mul_of_pos_right less scale)
    · exact .inr ⟨by rw [tie], even⟩
  · -- a number with fewer bits before the unit than `v`
    left
    have more : -1074 < unitExponent v := by omega
    have low : 2 ^ 52 * unit ≤ v := by
      have := unit_le pos more
      rw [zpow_add₀ two_ne_zero, ← same, mul_comm] at this
      exact_mod_cast this
    have below : (b * 2 ^ f : ℚ) < 2 ^ 52 * unit := by
      have small' : (b : ℚ) < 2 ^ (53 : ℤ) := by exact_mod_cast small
      calc (b * 2 ^ f : ℚ) < 2 ^ (53 : ℤ) * 2 ^ f := by gcongr
        _ ≤ 2 ^ (53 : ℤ) * 2 ^ (unitExponent v - 1) := by
          gcongr
          · exact one_le_two
          · omega
        _ = 2 ^ 52 * unit := by
          rw [same, zpow_sub₀ two_ne_zero]
          norm_num
          ring
    calc |v - nearestNat (v / unit) * unit| ≤ |v - (2 ^ 52 : ℕ) * unit| := by
          rw [scaled, scaled]
          exact mul_le_mul_of_nonneg_right (nearestNat_le_abs (by positivity) _) scale.le
      _ = v - 2 ^ 52 * unit := by
          push_cast
          exact abs_of_nonneg (by linarith)
      _ < v - b * 2 ^ f := by linarith
      _ ≤ |v - b * 2 ^ f| := le_abs_self _

/-- A rounded significand is one of the grid, where a carry has been made. -/
theorem exists_onGrid {n : ℕ} {e : ℤ} (most : n ≤ 2 ^ 53) (least : -1074 ≤ e) (small : e < 972)
    (full : -1074 < e → 2 ^ 52 ≤ n) :
    ∃ a f, OnGrid a f ∧ double n e = double a f ∧ (a * 2 ^ f : ℚ) = n * 2 ^ e ∧
      (n % 2 = 0 → a % 2 = 0) := by
  rcases most.lt_or_eq with less | rfl
  · exact ⟨n, e, .inl ⟨less, least, small, full⟩, rfl, rfl, id⟩
  · refine ⟨2 ^ 52, e + 1, ?_, rfl, ?_, fun _ => by decide⟩
    · by_cases last : e = 971
      · exact .inr ⟨rfl, by omega⟩
      · exact .inl ⟨by decide, by omega, by omega, fun _ => le_rfl⟩
    · rw [zpow_add₀ two_ne_zero]
      push_cast
      ring

theorem last_size : ((2 ^ 52 : ℕ) * 2 ^ (972 : ℤ) : ℚ) = 2 ^ (1024 : ℤ) := by
  rw [Nat.cast_pow, ← zpow_natCast]
  exact (zpow_add₀ two_ne_zero 52 972).symm

theorem OnGrid.bounds {a : ℕ} {e : ℤ} (grid : OnGrid a e) : a < 2 ^ 53 ∧ -1074 ≤ e := by
  rcases grid with finite | ⟨rfl, rfl⟩
  · exact ⟨finite.small, finite.least⟩
  · decide

theorem OnGrid.size_le {a : ℕ} {e : ℤ} (grid : OnGrid a e) : (a * 2 ^ e : ℚ) ≤ 2 ^ (1024 : ℤ) := by
  rcases grid with finite | ⟨rfl, rfl⟩
  · exact finite.lt_size.le.trans (zpow_le_zpow_right₀ one_le_two (by have := finite.most; omega))
  · exact last_size.le

/-- `nearest v` is nearest to `v`. -/
theorem isNearest_nearest {v : ℚ} (nonneg : 0 ≤ v) : IsNearest v (nearest v) := by
  rcases nonneg.eq_or_lt with rfl | pos
  · refine ⟨0, -1074, .inl ⟨by decide, by decide, by decide, by decide⟩, ?_,
      fun b f _ other => .inl ?_⟩
    · rw [nearest, nearestUnpacked_zero]
      rfl
    · rw [Nat.cast_zero, zero_mul, sub_zero, abs_zero, zero_sub, abs_neg, abs_pos]
      simpa using other
  · by_cases large : 972 ≤ unitExponent v
    · -- infinity is nearest to what is larger than all doubles
      have above : 2 ^ (1024 : ℤ) ≤ v :=
        (zpow_le_zpow_right₀ one_le_two (by omega)).trans (unit_le pos (by omega))
      refine ⟨2 ^ 52, 972, .inr ⟨rfl, rfl⟩, ?_, fun b f grid other => .inl ?_⟩
      · rw [nearest_of_large above, double_overflow (by decide) (le_refl _)]
      · have less : (b * 2 ^ f : ℚ) < 2 ^ (1024 : ℤ) := lt_of_le_of_ne grid.size_le (last_size ▸ other)
        rw [last_size, abs_of_nonneg (by linarith), abs_of_nonneg (by linarith)]
        linarith
    · obtain ⟨a, e, grid, same, size, even⟩ := exists_onGrid (nearestNat_le pos)
        (neg_le_unitExponent v) (by omega) (le_nearestNat pos)
      refine ⟨a, e, grid, same, fun b f grid' other => ?_⟩
      rw [size] at other ⊢
      exact (nearest_multiple pos grid'.bounds.1 grid'.bounds.2 other).imp_right
        fun tie => ⟨tie.1, even tie.2⟩

/-! ## The numbers that round to a double -/

/-- How far below a double the numbers that round to it reach, in quarters of its unit. -/
def reachBelow (a : ℕ) (q : ℤ) : ℕ := if a = 2 ^ 52 ∧ -1074 < q then 1 else 2

/-- The numbers half a unit around a double round to it, and the two ends when its significand is
even.  Below a significand whose predecessor has one bit less it is a quarter. -/
theorem nearestUnpacked_of_range {a : ℕ} {q : ℤ} {v : ℚ} (double : IsDouble a q) (pos : 0 < a)
    (sign : Sign) (least : (4 * a - reachBelow a q) * 2 ^ (q - 2) ≤ v)
    (most : v ≤ (4 * a + 2) * 2 ^ (q - 2))
    (inside : a % 2 = 0 ∨
      (4 * a - reachBelow a q) * 2 ^ (q - 2) < v ∧ v < (4 * a + 2) * 2 ^ (q - 2)) :
    nearestUnpacked sign v = .finite sign a q pos := by
  obtain ⟨w, rfl⟩ : ∃ w, v = w * 2 ^ q := ⟨v / 2 ^ q, by rw [div_mul_cancel₀ _ (by positivity)]⟩
  have quarter (k : ℚ) : k * 2 ^ (q - 2) = k / 4 * 2 ^ q := by
    rw [zpow_sub₀ two_ne_zero]
    norm_num
    ring
  have unit : (0 : ℚ) < 2 ^ q := by positivity
  simp only [quarter, mul_le_mul_iff_left₀ unit, mul_lt_mul_iff_left₀ unit] at least most inside
  have some : (1 : ℚ) ≤ a := by exact_mod_cast pos
  have short : (a : ℚ) + 1 ≤ 2 ^ 53 := by exact_mod_cast double.small
  have reach : (reachBelow a q : ℚ) ≤ 2 := by
    rw [reachBelow]
    split_ifs <;> norm_num
  have positive : 0 < w := by linarith
  have notLong : w * 2 ^ q < 2 ^ (q + 53) := by
    rw [add_comm, zpow_add₀ two_ne_zero]
    gcongr
    norm_num
    linarith
  by_cases full : -1074 < q → (2 : ℚ) ^ 52 ≤ w
  · -- the number has the unit of the double
    have unitExponent : unitExponent (w * 2 ^ q) = q := by
      refine unitExponent_eq (by positivity) notLong double.least fun more => ?_
      rw [add_comm, zpow_add₀ two_ne_zero]
      gcongr
      exact_mod_cast full more
    have nearest : nearestNat (w * 2 ^ q / 2 ^ q) = a := by
      rw [mul_div_cancel_right₀ _ unit.ne', nearestNat_eq_iff positive.le]
      rcases inside with even | ⟨low, high⟩
      · have close : |w - a| ≤ 1 / 2 := abs_le.mpr ⟨by linarith, by linarith⟩
        exact close.lt_or_eq.imp_right fun tie => ⟨tie, even⟩
      · exact .inl (abs_lt.mpr ⟨by linarith, by linarith⟩)
    rw [nearestUnpacked, unitExponent, nearest, carried, dif_pos pos, if_pos double.small]
  · -- the number is below a power of two that is the double, so it has half the unit
    push Not at full
    obtain ⟨more, less⟩ := full
    have power : a = 2 ^ 52 := by
      have : (a : ℚ) < 2 ^ 52 + 1 := by linarith
      have upper : a < 2 ^ 52 + 1 := by exact_mod_cast this
      have := double.full more
      omega
    subst power
    have nearby : (reachBelow (2 ^ 52) q : ℚ) = 1 := by simp [reachBelow, more]
    rw [nearby] at least
    push_cast at least
    have unitExponent : unitExponent (w * 2 ^ q) = q - 1 := by
      refine unitExponent_eq (by positivity) ?_ (by omega) fun _ => ?_
      · rw [show q - 1 + 53 = 52 + q by ring, zpow_add₀ two_ne_zero]
        gcongr
        exact_mod_cast less
      · rw [show q - 1 + 52 = 51 + q by ring, zpow_add₀ two_ne_zero]
        gcongr
        norm_num
        linarith
    have nearest : nearestNat (w * 2 ^ q / 2 ^ (q - 1)) = 2 ^ 53 := by
      have double : w * 2 ^ q / 2 ^ (q - 1) = w * 2 := by
        rw [zpow_sub₀ two_ne_zero]
        field_simp
      rw [double, nearestNat_eq_iff (by positivity)]
      push_cast
      have close : |w * 2 - 2 ^ 53| ≤ 1 / 2 := abs_le.mpr ⟨by linarith, by linarith⟩
      exact close.lt_or_eq.imp_right fun tie => ⟨tie, by decide⟩
    rw [nearestUnpacked, unitExponent, nearest, carried, dif_pos (by decide), if_neg (by decide)]
    simp

end ScriptTree
