import Mathlib
import ScriptTree.Number.Arithmetic
import ScriptTree.Proofs.Decimals

/-!
# Arithmetic on doubles that does not round

A number of at most 53 bits is a double, so an operation whose exact result is such a number gives
that result.  Truncation always is one of these (`exactValue?_truncate`), as is the remainder of a
division (`exactValue?_remainder`), and the sum of two doubles is one where its exact value is a
double (`exactValue?_add`).  A double that is a 32-bit natural becomes that word (`toNat_toUInt32`).
-/

namespace ScriptTree

open Float.Model Float.Model.UnpackedFloat

variable {x y : Float} {v w : ℚ}

/-! ## Truncation of numbers -/

/-- A number with its fraction dropped. -/
def truncation (v : ℚ) : ℤ := if v < 0 then ⌈v⌉ else ⌊v⌋

theorem truncation_of_nonneg (nonneg : 0 ≤ v) : truncation v = ⌊v⌋ := by
  rw [truncation, if_neg nonneg.not_gt]

theorem truncation_neg (v : ℚ) : truncation (-v) = -truncation v := by
  rcases lt_trichotomy v 0 with neg | rfl | pos
  · rw [truncation, truncation, if_neg (by linarith), if_pos neg, Int.floor_neg]
  · simp [truncation]
  · rw [truncation, truncation, if_pos (by linarith), if_neg (by linarith), Int.ceil_neg]

@[simp] theorem truncation_intCast (i : ℤ) : truncation i = i := by
  simp [truncation]

theorem truncation_div (i j : ℤ) : truncation (i / j : ℚ) = i.tdiv j := by
  have natural (n m : ℕ) : truncation (n / m : ℚ) = (n : ℤ).tdiv m := by
    rw [truncation_of_nonneg (by positivity), Rat.floor_natCast_div_natCast,
      Int.tdiv_eq_ediv_of_nonneg (Int.natCast_nonneg n)]
  obtain ⟨n, rfl | rfl⟩ := i.eq_nat_or_neg <;> obtain ⟨m, rfl | rfl⟩ := j.eq_nat_or_neg <;>
    simp only [Int.cast_neg, Int.cast_natCast, neg_div, div_neg, neg_neg, truncation_neg, natural,
      Int.neg_tdiv, Int.tdiv_neg]

/-! ## From exact numbers to doubles -/

theorem exactValue?_nearest (exact : Representable v) : exactValue? (nearest v) = some v := by
  obtain ⟨a, e, double, rfl⟩ := exact
  rw [exactValue?]
  rcases Nat.eq_zero_or_pos a with rfl | pos
  · simp [unpack_nearest_zero, unpackedValue?]
  · rw [double.unpack_nearest pos]
    rfl

namespace Binary

/-- The size of the number. -/
def size (b : Binary) : ℚ := b.significand * 2 ^ b.exponent

theorem size_nonneg (b : Binary) : 0 ≤ b.size := by
  rw [size]
  positivity

theorem value_eq (b : Binary) : b.value = if b.negative then -b.size else b.size := rfl

theorem toFloat_eq (b : Binary) :
    b.toFloat = if b.negative then -nearest b.size else nearest b.size := by
  rw [toFloat, size]
  by_cases whole : 0 ≤ b.exponent
  · obtain ⟨k, same⟩ := Int.eq_ofNat_of_zero_le whole
    rw [if_pos whole, ofScientific_eq, same]
    simp
  · -- a power of one half is one of ten with a power of five beside it
    obtain ⟨k, same⟩ : ∃ k : ℕ, b.exponent = -k := ⟨(-b.exponent).toNat, by omega⟩
    have fives : (5 : ℚ) ^ k * (10 ^ k)⁻¹ = (2 ^ k)⁻¹ := by
      rw [show (10 : ℚ) = 5 * 2 by norm_num, mul_pow]
      field_simp
    have size : ((b.significand * Nat.pow 5 k : ℕ) : ℚ) * 10 ^ (-(k : ℤ)) =
        b.significand * 2 ^ (-(k : ℤ)) := by
      simp [mul_assoc, fives]
    rw [if_neg whole, ofScientific_eq, if_pos rfl, same, neg_neg, Int.toNat_natCast, size]

/-- A number whose size is a double is kept as it is. -/
theorem exactValue?_toFloat {b : Binary} (exact : Representable b.size) :
    exactValue? b.toFloat = some b.value := by
  rw [toFloat_eq, value_eq]
  split_ifs
  · rw [exactValue?_neg, exactValue?_nearest exact]
    rfl
  · exact exactValue?_nearest exact

/-- A double has at most 53 bits and an exponent in the range. -/
theorem bounds_of_ofFloat? {b : Binary} (view : ofFloat? x = some b) :
    b.significand < 2 ^ 53 ∧ -1074 ≤ b.exponent ∧ b.exponent < 972 := by
  have double := packable_unpack x
  rw [ofFloat?_eq] at view
  cases unpacked : x.toModel.unpack with
  | notANumber | infinity =>
      rw [unpacked] at view
      cases view
  | zero sign =>
      rw [unpacked] at view
      cases view
      cases sign <;> decide
  | finite sign a e pos =>
      rw [unpacked] at view double
      cases view
      exact ⟨double.small, double.least, double.most⟩

end Binary

theorem exists_of_exactValue? (value : exactValue? x = some v) :
    ∃ b, Binary.ofFloat? x = some b ∧ b.value = v := by
  rwa [exactValue?_eq, Option.map_eq_some_iff] at value

/-! ## Truncation -/

namespace Binary

theorem truncatedSize_eq_floor (b : Binary) : (b.truncatedSize : ℤ) = ⌊b.size⌋ := by
  rw [truncatedSize, size]
  split
  next whole =>
    obtain ⟨k, same⟩ := Int.eq_ofNat_of_zero_le whole
    rw [same, Int.toNat_natCast, zpow_natCast]
    exact_mod_cast (Int.floor_natCast (R := ℚ) (b.significand * 2 ^ k)).symm
  next fraction =>
    obtain ⟨k, same⟩ : ∃ k : ℕ, b.exponent = -k := ⟨(-b.exponent).toNat, by omega⟩
    rw [same, neg_neg, Int.toNat_natCast, zpow_neg, zpow_natCast, ← div_eq_mul_inv]
    exact_mod_cast (Rat.floor_natCast_div_natCast b.significand (2 ^ k)).symm

theorem size_whole (b : Binary) : b.whole.size = b.truncatedSize := by
  simp [size, whole]

theorem value_whole (b : Binary) : b.whole.value = truncation b.value := by
  have floor : (b.truncatedSize : ℚ) = ((⌊b.size⌋ : ℤ) : ℚ) := by
    exact_mod_cast b.truncatedSize_eq_floor
  have sign : b.whole.negative = b.negative := rfl
  rw [value_eq, value_eq, size_whole, sign, floor]
  split_ifs
  · rw [truncation_neg, truncation_of_nonneg b.size_nonneg, Int.cast_neg]
  · rw [truncation_of_nonneg b.size_nonneg]

/-- What is left of a double without its fraction is a double: it has no more bits. -/
theorem representable_whole {b : Binary} (view : ofFloat? x = some b) :
    Representable b.whole.size := by
  obtain ⟨small, least, most⟩ := bounds_of_ofFloat? view
  rw [size_whole, truncatedSize]
  split_ifs with whole
  · obtain ⟨k, same⟩ := Int.eq_ofNat_of_zero_le whole
    have size : ((b.significand * Nat.pow 2 b.exponent.toNat : ℕ) : ℚ) =
        b.significand * 2 ^ b.exponent := by
      simp [same]
    rw [size]
    exact representable_of_lt small least most
  · exact representable_natCast (lt_of_le_of_lt (Nat.div_le_self _ _) small)

end Binary

/-- Truncation does not round. -/
theorem exactValue?_truncate (value : exactValue? x = some v) :
    exactValue? (truncate x) = some ↑(truncation v) := by
  obtain ⟨b, view, rfl⟩ := exists_of_exactValue? value
  rw [truncate, view, ← b.value_whole]
  exact Binary.exactValue?_toFloat (Binary.representable_whole view)

/-! ## Remainders -/

namespace Binary

variable {a b : Binary}

/-- The significand of a number over a smaller power of two. -/
theorem size_eq_scaled (b : Binary) {e : ℤ} (le : e ≤ b.exponent) :
    b.size = (b.significand * Nat.pow 2 (b.exponent - e).toNat : ℕ) * 2 ^ e := by
  rw [size, two_zpow_eq le, Nat.cast_mul, Nat.pow_eq, Nat.cast_pow, Nat.cast_ofNat]
  ring

/-- The remainder of two sizes is their remainder over a common unit. -/
theorem size_remainder (a b : Binary) :
    (a.remainder b).size = a.size - b.size * ⌊a.size / b.size⌋ := by
  obtain ⟨e, same⟩ : ∃ e, e = min a.exponent b.exponent := ⟨_, rfl⟩
  obtain ⟨left, left_eq⟩ : ∃ left, left = a.significand * Nat.pow 2 (a.exponent - e).toNat := ⟨_, rfl⟩
  obtain ⟨right, right_eq⟩ : ∃ right, right = b.significand * Nat.pow 2 (b.exponent - e).toNat :=
    ⟨_, rfl⟩
  have dividend : a.size = left * 2 ^ e := left_eq ▸ a.size_eq_scaled (by omega)
  have divisor : b.size = right * 2 ^ e := right_eq ▸ b.size_eq_scaled (by omega)
  have rest : (a.remainder b).size = (left % right : ℕ) * 2 ^ e := by
    simp only [remainder, size, ← same, ← left_eq, ← right_eq]
  have times : ⌊a.size / b.size⌋ = (left / right : ℕ) := by
    rw [dividend, divisor, mul_div_mul_right _ _ (by positivity)]
    exact_mod_cast Rat.floor_natCast_div_natCast left right
  have split : (left : ℚ) = right * (left / right : ℕ) + (left % right : ℕ) := by
    exact_mod_cast (Nat.div_add_mod left right).symm
  rw [rest, times, dividend, divisor, Int.cast_natCast]
  linear_combination (-(2 : ℚ) ^ e) * split

theorem value_remainder (a b : Binary) :
    (a.remainder b).value = a.value - b.value * truncation (a.value / b.value) := by
  have sign : (a.remainder b).negative = a.negative := rfl
  have quotient : truncation (a.size / b.size) = ⌊a.size / b.size⌋ :=
    truncation_of_nonneg (div_nonneg a.size_nonneg b.size_nonneg)
  rw [value_eq, value_eq, value_eq, sign, size_remainder, ← quotient]
  split_ifs <;>
    simp only [neg_div, div_neg, neg_neg, truncation_neg, Int.cast_neg] <;> ring

/-- The remainder of two doubles is a double: it is less than the one of the smaller unit, or has
no more bits than the other. -/
theorem representable_remainder (first : ofFloat? x = some a) (second : ofFloat? y = some b)
    (nonzero : b.significand ≠ 0) : Representable (a.remainder b).size := by
  obtain ⟨small, least, most⟩ := bounds_of_ofFloat? first
  obtain ⟨small', least', most'⟩ := bounds_of_ofFloat? second
  refine representable_of_lt ?_ (le_min least least') (min_lt_of_left_lt most)
  rcases le_total a.exponent b.exponent with le | le
  · have left : a.significand * Nat.pow 2 (a.exponent - min a.exponent b.exponent).toNat =
        a.significand := by
      simp [min_eq_left le]
    simp only [remainder, left]
    exact lt_of_le_of_lt (Nat.mod_le _ _) small
  · have right : b.significand * Nat.pow 2 (b.exponent - min a.exponent b.exponent).toNat =
        b.significand := by
      simp [min_eq_right le]
    simp only [remainder, right]
    exact lt_trans (Nat.mod_lt _ (Nat.pos_of_ne_zero nonzero)) small'

end Binary

/-- A remainder does not round. -/
theorem exactValue?_remainder (first : exactValue? x = some v) (second : exactValue? y = some w)
    (nonzero : w ≠ 0) :
    exactValue? (remainder x y) = some (v - w * truncation (v / w)) := by
  obtain ⟨a, view, rfl⟩ := exists_of_exactValue? first
  obtain ⟨b, view', rfl⟩ := exists_of_exactValue? second
  have some : b.significand ≠ 0 := by
    intro zero
    simp [Binary.value, zero] at nonzero
  have kept : remainder x y = (a.remainder b).toFloat := by
    simp only [remainder, view, view', if_neg some]
  rw [kept, ← Binary.value_remainder]
  exact Binary.exactValue?_toFloat (Binary.representable_remainder view view' some)

theorem exactValue?_remainder_intCast {i j : ℤ} (first : exactValue? x = some ↑i)
    (second : exactValue? y = some ↑j) (nonzero : j ≠ 0) :
    exactValue? (remainder x y) = some ↑(i.tmod j) := by
  rw [exactValue?_remainder first second (by exact_mod_cast nonzero), truncation_div, Int.tmod_def]
  push_cast
  rfl

/-! ## Signs, sums and words -/

theorem exactValue?_abs (x : Float) : exactValue? x.abs = (exactValue? x).map (|·|) := by
  have packable : Packable x.toModel.unpack.abs := by
    have := packable_unpack x
    cases unpacked : x.toModel.unpack <;> simp_all [UnpackedFloat.abs, Packable]
  have unpacked : x.abs.toModel.unpack = x.toModel.unpack.abs := packable.unpack_pack
  rw [exactValue?, exactValue?, unpacked]
  cases x.toModel.unpack with
  | notANumber | infinity => rfl
  | zero sign => simp [unpackedValue?, UnpackedFloat.abs]
  | finite sign a e pos =>
      cases sign <;> simp [unpackedValue?, UnpackedFloat.abs, Sign.apply, abs_mul]

theorem isFinite_iff (x : Float) : x.isFinite = (exactValue? x).isSome := by
  have finite : x.isFinite = x.toModel.unpack.isFinite := rfl
  rw [finite, exactValue?]
  cases x.toModel.unpack <;> rfl

theorem lt_zero_iff (value : exactValue? x = some v) : x < 0 ↔ v < 0 := by
  have compared : x < 0 ↔ x.toModel.unpack.lt (.zero .positive) = true := decide_eq_true_iff
  rw [compared]
  rw [exactValue?] at value
  cases unpacked : x.toModel.unpack with
  | notANumber | infinity => simp [unpacked, unpackedValue?] at value
  | zero sign =>
      rw [unpacked] at value
      cases value
      cases sign <;> decide
  | finite sign a e pos =>
      rw [unpacked] at value
      cases value
      have size : (0 : ℚ) < a * 2 ^ e := by positivity
      cases sign with
      | positive => simpa [UnpackedFloat.lt, UnpackedFloat.compare, Sign.apply] using size.le
      | negative => simpa [UnpackedFloat.lt, UnpackedFloat.compare, Sign.apply] using size

/-- Rounding keeps a signed number whose size is a double. -/
theorem normalize_exact {i e : ℤ} (exact : Representable |(i * 2 ^ e : ℚ)|) :
    Packable (UnpackedFloat.normalize .binary64 i e .positive) ∧
      unpackedValue? (UnpackedFloat.normalize .binary64 i e .positive) = some ((i : ℚ) * 2 ^ e) := by
  rcases eq_or_ne i 0 with rfl | nonzero
  · exact ⟨trivial, by simp [UnpackedFloat.normalize, unpackedValue?]⟩
  · have size : (i.natAbs * 2 ^ e : ℚ) = |(i * 2 ^ e : ℚ)| := by
      rw [abs_mul, abs_of_pos (a := (2 : ℚ) ^ e) (by positivity), Nat.cast_natAbs, Int.cast_abs]
    obtain ⟨a, f, double, same⟩ := exact
    have pos : 0 < a := by
      have : (0 : ℚ) < a * 2 ^ f := by
        rw [← same]
        positivity
      exact_mod_cast pos_of_mul_pos_left this (by positivity)
    rw [normalize_eq nonzero, size, same, double.nearestUnpacked_size pos]
    refine ⟨double, ?_⟩
    have unit : (0 : ℚ) < 2 ^ e := by positivity
    split_ifs with negative
    · have : (i : ℚ) < 0 := by exact_mod_cast negative
      rw [abs_of_neg (mul_neg_of_neg_of_pos this unit)] at same
      simp [unpackedValue?, Sign.apply, ← same]
    · have : (0 : ℚ) ≤ i := by exact_mod_cast not_lt.mp negative
      rw [abs_of_nonneg (by positivity)] at same
      simp [unpackedValue?, Sign.apply, ← same]

theorem add_exact {u t : UnpackedFloat} (packable : Packable u) (packable' : Packable t)
    (first : unpackedValue? u = some v) (second : unpackedValue? t = some w)
    (exact : Representable |v + w|) :
    Packable (UnpackedFloat.add .binary64 u t) ∧
      unpackedValue? (UnpackedFloat.add .binary64 u t) = some (v + w) := by
  cases u with
  | notANumber | infinity => cases first
  | zero sign =>
      cases first
      cases t with
      | notANumber | infinity => cases second
      | zero sign' =>
          cases second
          cases sign <;> cases sign' <;> exact ⟨trivial, by simp [UnpackedFloat.add, unpackedValue?]⟩
      | finite sign' b f pos' =>
          rw [zero_add, ← second]
          exact ⟨packable', rfl⟩
  | finite sign a e pos =>
      cases t with
      | notANumber | infinity => cases second
      | zero sign' =>
          cases second
          rw [add_zero, ← first]
          exact ⟨packable, rfl⟩
      | finite sign' b f pos' =>
          cases first
          cases second
          obtain ⟨i, total, sum⟩ := exists_add pos pos' e f sign sign'
          rw [← total] at exact ⊢
          rw [sum]
          exact normalize_exact exact

/-- A sum that is a double does not round. -/
theorem exactValue?_add (first : exactValue? x = some v) (second : exactValue? y = some w)
    (exact : Representable |v + w|) : exactValue? (x + y) = some (v + w) := by
  obtain ⟨packable, value⟩ :=
    add_exact (packable_unpack x) (packable_unpack y) first second exact
  have sum : (x + y).toModel.unpack = UnpackedFloat.add .binary64 x.toModel.unpack
    y.toModel.unpack := packable.unpack_pack
  rw [exactValue?, sum, value]

/-- The number is cut off after its whole part. -/
theorem roundToInt_eq (sign : Sign) (a : ℕ) (e : ℤ) :
    roundToInt sign a e = sign.apply ⌊(a * 2 ^ e : ℚ)⌋₊ := by
  have scaled : ((a <<< (e - 0).toNat : ℕ) : ℚ) / 2 ^ (0 - (e - (e - 0).toNat)).toNat = a * 2 ^ e := by
    rcases le_total 0 e with whole | fraction
    · obtain ⟨k, rfl⟩ := Int.eq_ofNat_of_zero_le whole
      simp [Nat.shiftLeft_eq]
    · obtain ⟨k, rfl⟩ : ∃ k : ℕ, e = -k := ⟨(-e).toNat, by omega⟩
      simp [Nat.shiftLeft_eq, div_eq_mul_inv]
  have located := (located_exact (a <<< (e - 0).toNat)).shiftRight (0 - (e - (e - 0).toNat)).toNat
  rw [scaled] at located
  obtain ⟨low, high⟩ := located.bounds
  have floor := (Nat.floor_eq_iff (by positivity)).mpr ⟨low, high⟩
  rw [floor]
  rfl

/-- A double that is a natural of 32 bits is converted to it. -/
theorem toNat_toUInt32 {n : ℕ} (value : exactValue? x = some ↑n) (small : n < 2 ^ 32) :
    x.toUInt32.toNat = n := by
  have whole : (x.toModel.unpack.toInt 0 (UInt32.size - 1)).toNat = n := by
    rw [exactValue?] at value
    cases unpacked : x.toModel.unpack with
    | notANumber | infinity => simp [unpacked, unpackedValue?] at value
    | zero sign =>
        simp only [unpacked, unpackedValue?, Option.some.injEq] at value
        have : n = 0 := by exact_mod_cast value.symm
        rw [this]
        rfl
    | finite sign a e pos =>
        simp only [unpacked, unpackedValue?, Option.some.injEq] at value
        have size : (0 : ℚ) < a * 2 ^ e := by positivity
        cases sign with
        | positive =>
            have : (a * 2 ^ e : ℚ) = n := value
            rw [toInt, roundToInt_eq, this, Nat.floor_natCast]
            rfl
        | negative =>
            have : -(a * 2 ^ e : ℚ) = n := by simpa [Sign.apply] using value
            have nonneg : (0 : ℚ) ≤ n := Nat.cast_nonneg n
            linarith
  have converted : x.toUInt32 = UInt32.ofNatClamp
    (x.toModel.unpack.toInt 0 (UInt32.size - 1)).toNat := rfl
  rw [converted, whole, UInt32.ofNatClamp, dif_pos (show n < UInt32.size from small)]
  rfl

end ScriptTree
