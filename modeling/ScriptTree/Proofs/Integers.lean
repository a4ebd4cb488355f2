import Mathlib
import ScriptTree.Number.Binary

/-!
# Integers as doubles

A natural number below `2 ^ 53` is a double, and nothing is lost on the way there and back
(`Binary.ofFloat?_ofNat`).

The way there rounds twice: once where the number becomes a double, and once more in a product with
one.  Both have to move a significand of 53 bits past zeros only (`roundWithAccuracy_zeros`).  The
way back is the exact view of a double.  It takes the bits apart as the logical model of doubles
does (`Binary.ofFloat?_eq`), so a double is known by its sign, its significand and its exponent.
-/

namespace ScriptTree

open Float.Model Float.Model.UnpackedFloat

/-! ## Rounding that drops nothing -/

/-- Zeros that are shifted out leave no trace. -/
theorem shiftRight_zeros (a j : Nat) :
    ExtendedMantissa.mk (a * 2 ^ j) false false >>> j = ⟨a, false, false⟩ := by
  show j.repeat ExtendedMantissa.shiftRightOne ⟨a * 2 ^ j, false, false⟩ = ⟨a, false, false⟩
  induction j generalizing a with
  | zero => simp [Nat.repeat]
  | succ j ih =>
      have shifted := ih (2 * a)
      rw [show 2 * a * 2 ^ j = a * 2 ^ (j + 1) by ring] at shifted
      rw [Nat.repeat, shifted]
      simp [ExtendedMantissa.shiftRightOne]

section Significand

variable {a : Nat} (low : 2 ^ 52 ≤ a) (high : a < 2 ^ 53)
include low high

/-- A significand of 53 bits that is followed by zeros is shifted to its place. -/
theorem shiftToTargetExponent_zeros (j : Nat) {e : Int} (least : -1074 ≤ e + j) :
    shiftToTargetExponent .binary64 (a * 2 ^ j) e .exact = (⟨a, false, false⟩, e + j) := by
  have bits : (a * 2 ^ j).log2 = 52 + j := by
    have pos : a * 2 ^ j ≠ 0 := by positivity
    rw [Nat.log2_eq_iff pos, Nat.pow_add, show 52 + j + 1 = 53 + j by omega, Nat.pow_add]
    exact ⟨Nat.mul_le_mul_right _ low, Nat.mul_lt_mul_of_pos_right high (Nat.two_pow_pos j)⟩
  have target : Format.targetExponent .binary64 (totalExponent (a * 2 ^ j) e) = e + j := by
    simp only [Format.targetExponent, totalExponent, Format.mantissaBits, Format.minExponent, bits]
    omega
  simp [shiftToTargetExponent, target, shiftToExponent, ExtendedMantissa.ofMantissaAndAccuracy,
    shiftRight_zeros]

theorem roundWithAccuracy_zeros (j : Nat) {e : Int} (least : -1074 ≤ e + j) (sign : Sign)
    (pos : 0 < a) :
    roundWithAccuracy .binary64 sign (a * 2 ^ j) e .exact = .finite sign a (e + j) pos := by
  have first := shiftToTargetExponent_zeros low high j least
  have rounded : (ExtendedMantissa.mk a false false).roundedMantissa = a := rfl
  -- the rounded significand has 53 bits still, so the second shift does nothing
  have second := shiftToTargetExponent_zeros low high 0 (e := e + j) (by simpa using least)
  simp only [Nat.pow_zero, Nat.mul_one, Nat.cast_zero, add_zero] at second
  simp [roundWithAccuracy, first, rounded, second, pos.ne']

/-! ## Packing -/

omit low high in
/-- The first of the 53 bits is not stored. -/
theorem toNat_implicitBit (fraction : BitVec 52) :
    (1#1 ++ fraction).toNat = 2 ^ 52 + fraction.toNat := by
  have joined := Nat.two_pow_add_eq_or_of_lt fraction.isLt 1
  rw [Nat.mul_one] at joined
  rw [BitVec.toNat_append, joined]
  rfl

theorem pack_finite (sign : Sign) {biased : Nat} (most : biased < 2047) (pos : 0 < a) :
    UnpackedFloat.pack .binary64 (.finite sign a ((biased : Int) - 1075) pos) =
      packComponents .binary64 sign (BitVec.ofNat 11 biased) (BitVec.ofNat 52 a) := by
  have bits : a.log2 + 1 = Format.mantissaBits .binary64 :=
    congrArg (· + 1) ((Nat.log2_eq_iff pos.ne').mpr ⟨low, high⟩)
  have exponent : ((biased : Int) - 1075 + (Format.exponentBias .binary64 : Nat) +
      (Format.mantissaBitsWithoutImplicit .binary64 : Nat)).toNat = biased := by
    show ((biased : Int) - 1075 + 1023 + 52).toNat = biased
    omega
  have inside : ¬2 ^ Format.exponentBits .binary64 ≤ biased + 1 := by
    show ¬2 ^ 11 ≤ biased + 1
    omega
  simp only [UnpackedFloat.pack, exponent]
  rw [if_neg inside, if_pos bits]

/-- A double with 53 significant bits is the same after it was packed. -/
theorem unpack_pack_finite (sign : Sign) {e : Int} (least : -1074 ≤ e) (most : e < 972)
    (pos : 0 < a) :
    (Float.Model.pack (.finite sign a e pos)).unpack = .finite sign a e pos := by
  obtain ⟨biased, rfl⟩ : ∃ biased : Nat, e = (biased : Int) - 1075 := ⟨(e + 1075).toNat, by omega⟩
  have stored : (BitVec.ofNat 11 biased).toNat = biased := by
    rw [BitVec.toNat_ofNat, Nat.mod_eq_of_lt (by omega)]
  have notAll : BitVec.ofNat 11 biased ≠ -1#11 := by
    intro same
    have all : biased = 2047 := stored.symm.trans (congrArg BitVec.toNat same)
    omega
  have notNone : BitVec.ofNat 11 biased ≠ 0#11 := by
    intro same
    have none : biased = 0 := stored.symm.trans (congrArg BitVec.toNat same)
    omega
  have significand : (1#1 ++ BitVec.ofNat 52 a).toNat = a := by
    rw [toNat_implicitBit, BitVec.toNat_ofNat]
    omega
  show UnpackedFloat.unpack .binary64 (UnpackedFloat.pack .binary64 _) = _
  rw [pack_finite low high sign (by omega) pos]
  simp only [UnpackedFloat.unpack, unpackExponent_packComponents, unpackMantissa_packComponents,
    unpackSign_packComponents, Sign.ofBitVec_toBitVec, notAll, notNone, if_false, significand,
    stored]
  rfl

end Significand

/-! ## Natural numbers -/

section Naturals

variable {n : Nat} (pos : 0 < n) (small : n < 2 ^ 53)
include pos small

/-- With zeros behind it, a number below `2 ^ 53` has 53 bits. -/
theorem significand_bounds :
    2 ^ 52 ≤ n * 2 ^ (52 - n.log2) ∧ n * 2 ^ (52 - n.log2) < 2 ^ 53 := by
  have bits : n.log2 < 53 := (Nat.log2_lt pos.ne').mpr small
  have split : 2 ^ 52 = 2 ^ n.log2 * 2 ^ (52 - n.log2) := by
    rw [← Nat.pow_add, show n.log2 + (52 - n.log2) = 52 by omega]
  have split' : 2 ^ 53 = 2 ^ (n.log2 + 1) * 2 ^ (52 - n.log2) := by
    rw [← Nat.pow_add, show n.log2 + 1 + (52 - n.log2) = 53 by omega]
  constructor
  · rw [split]
    exact Nat.mul_le_mul_right _ (Nat.log2_self_le pos.ne')
  · rw [split']
    exact Nat.mul_lt_mul_of_pos_right Nat.lt_log2_self (Nat.two_pow_pos _)

theorem unpacked_ofNat :
    UnpackedFloat.ofNat .binary64 n = .finite .positive (n * 2 ^ (52 - n.log2)) (n.log2 - 52)
      (Nat.mul_pos pos (Nat.two_pow_pos _)) := by
  have bits : n.log2 < 53 := (Nat.log2_lt pos.ne').mpr small
  obtain ⟨low, high⟩ := significand_bounds pos small
  have target : Format.targetExponent .binary64 (totalExponent n 0) = n.log2 - 52 := by
    simp only [Format.targetExponent, totalExponent, Format.mantissaBits, Format.minExponent]
    omega
  have places : (0 - ((n.log2 : Int) - 52)).toNat = 52 - n.log2 := by omega
  have rounded := roundWithAccuracy_zeros low high 0 (e := (n.log2 : Int) - 52) (by omega) .positive
    (by positivity)
  simp only [Nat.pow_zero, Nat.mul_one, Nat.cast_zero, add_zero] at rounded
  have exponent : (0 : Int) - (52 - n.log2 : Nat) = n.log2 - 52 := by omega
  have compared : compare (n : Int) 0 = .gt := Int.compare_eq_gt.mpr (by omega)
  simp only [UnpackedFloat.ofNat, UnpackedFloat.ofInt, UnpackedFloat.normalize, compared,
    UnpackedFloat.round, target, decreaseExponent, places, Int.toNat_natCast, Nat.shiftLeft_eq,
    exponent, rounded]

/-- The double of a natural number below `2 ^ 53`: its bits come first, then zeros. -/
theorem unpack_ofNat :
    (Float.ofNat n).toModel.unpack = .finite .positive (n * 2 ^ (52 - n.log2)) (n.log2 - 52)
      (Nat.mul_pos pos (Nat.two_pow_pos _)) := by
  have bits : n.log2 < 53 := (Nat.log2_lt pos.ne').mpr small
  obtain ⟨low, high⟩ := significand_bounds pos small
  have word : n.toUInt64.toNat = n := Nat.mod_eq_of_lt (by omega)
  -- as a power of ten, one has the exponent zero
  have product : Float.ofNat n = n.toUInt64.toFloat * Float.ofBits 0x3FF0000000000000 :=
    dif_pos ⟨small, Nat.zero_le 22⟩
  have left : n.toUInt64.toFloat.toModel.unpack = .finite .positive (n * 2 ^ (52 - n.log2))
      (n.log2 - 52) (by positivity) := by
    show (Float.Model.pack (UnpackedFloat.ofNat .binary64 n.toUInt64.toNat)).unpack = _
    simp only [word, unpacked_ofNat pos small]
    exact unpack_pack_finite low high .positive (by omega) (by omega) _
  have right : (Float.ofBits 0x3FF0000000000000).toModel.unpack =
      .finite .positive (2 ^ 52) (-52) (by decide) := rfl
  have multiplied := roundWithAccuracy_zeros low high 52 (e := (n.log2 : Int) - 52 + -52)
    (by omega) .positive (by positivity)
  have exponent : (n.log2 : Int) - 52 + -52 + (52 : Nat) = n.log2 - 52 := by omega
  simp only [exponent] at multiplied
  rw [product]
  show (Float.Model.pack (UnpackedFloat.mul .binary64 n.toUInt64.toFloat.toModel.unpack
    (Float.ofBits 0x3FF0000000000000).toModel.unpack)).unpack = _
  rw [left, right]
  show (Float.Model.pack (roundWithAccuracy .binary64 .positive (n * 2 ^ (52 - n.log2) * 2 ^ 52)
    ((n.log2 : Int) - 52 + -52) .exact)).unpack = _
  rw [multiplied]
  exact unpack_pack_finite low high .positive (by omega) (by omega) _

end Naturals

/-! ## The exact view -/

namespace Binary

/-- The exact value of an unpacked double. -/
def ofUnpacked? : UnpackedFloat → Option Binary
  | .notANumber | .infinity _ => none
  | .zero sign => some ⟨sign == .negative, 0, -1074⟩
  | .finite sign a e _ => some ⟨sign == .negative, a, e⟩

theorem beq_negative_ofBitVec (sign : BitVec 1) :
    (Sign.ofBitVec sign == .negative) = decide (sign.toNat = 1) := by
  revert sign
  decide

/-- The exact view reads the fields of a double as the model does. -/
theorem ofFloat?_eq (x : Float) : ofFloat? x = ofUnpacked? x.toModel.unpack := by
  obtain ⟨⟨⟨b⟩, valid⟩⟩ := x
  have bits : (Float.toBits ⟨⟨⟨b⟩, valid⟩⟩).toNat = b.toNat := rfl
  have fraction : (@unpackMantissa .binary64 b).toNat = b.toNat % 2 ^ 52 := by
    simp [unpackMantissa]
  have exponent : (@unpackExponent .binary64 b).toNat = b.toNat / 2 ^ 52 % 2 ^ 11 := by
    simp [unpackExponent, Nat.shiftRight_eq_div_pow]
  have sign : (@unpackSign .binary64 b).toNat = 1 ↔ 2 ^ 63 ≤ b.toNat := by
    have : b.toNat < 2 ^ 64 := b.isLt
    simp [unpackSign, Nat.shiftRight_eq_div_pow]
    omega
  have all : @unpackExponent .binary64 b = -1#11 ↔ (@unpackExponent .binary64 b).toNat = 2047 :=
    BitVec.toNat_inj.symm
  have least : @unpackExponent .binary64 b = 0#11 ↔ (@unpackExponent .binary64 b).toNat = 0 :=
    BitVec.toNat_inj.symm
  have zero : @unpackMantissa .binary64 b = 0#52 ↔ (@unpackMantissa .binary64 b).toNat = 0 :=
    BitVec.toNat_inj.symm
  show _ = ofUnpacked? (UnpackedFloat.unpack .binary64 b)
  simp only [ofFloat?, Nat.pow_eq, bits, ← fraction, ← exponent, ← sign, UnpackedFloat.unpack, all,
    least, zero]
  split
  · split <;> rfl
  · split
    · split
      next zero => simp [ofUnpacked?, beq_negative_ofBitVec, zero]
      next least _ =>
        simp [ofUnpacked?, beq_negative_ofBitVec, least]
        rfl
    · simp [ofUnpacked?, beq_negative_ofBitVec, toNat_implicitBit]
      rfl

theorem truncatedSize_of_significand {b : Binary} (zero : b.significand = 0) :
    b.truncatedSize = 0 := by
  simp [truncatedSize, zero]

/-- A natural number below `2 ^ 53` is not changed by becoming a double. -/
theorem ofFloat?_ofNat {n : Nat} (small : n < 2 ^ 53) :
    ∃ b, ofFloat? (Float.ofNat n) = some b ∧ b.negative = false ∧ b.truncatedSize = n := by
  rcases Nat.eq_zero_or_pos n with rfl | pos
  · exact ⟨⟨false, 0, -1074⟩, rfl, rfl, truncatedSize_of_significand rfl⟩
  · have bits : n.log2 < 53 := (Nat.log2_lt pos.ne').mpr small
    refine ⟨⟨false, n * 2 ^ (52 - n.log2), n.log2 - 52⟩, ?_, rfl, ?_⟩
    · rw [ofFloat?_eq, unpack_ofNat pos small]
      rfl
    · have places : (-((n.log2 : Int) - 52)).toNat = 52 - n.log2 := by omega
      have dropped : n * 2 ^ (52 - n.log2) / 2 ^ (52 - n.log2) = n :=
        Nat.mul_div_cancel n (Nat.two_pow_pos _)
      simp only [truncatedSize, places, Nat.pow_eq, dropped]
      split
      next whole =>
        have none : ((n.log2 : Int) - 52).toNat = 0 ∧ 52 - n.log2 = 0 := by omega
        simp [none]
      next => rfl

end Binary

end ScriptTree
