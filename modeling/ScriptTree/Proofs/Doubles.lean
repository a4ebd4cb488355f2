import Mathlib
import ScriptTree.Proofs.Integers

/-!
# Doubles as exact numbers

A finite double stands for a rational number (`exactValue?`).  It is known by its sign, its
significand and its exponent (`eq_of_unpack`), and `IsDouble` says which significands and exponents
there are: those are the unpacked numbers that packing does not change (`Packable.unpack_pack`).
-/

namespace ScriptTree

open Float.Model Float.Model.UnpackedFloat

/-! ## The significands and exponents of doubles -/

/-- A double has a significand of at most 53 bits, and of 53 bits unless its exponent is the
least. -/
structure IsDouble (a : ℕ) (e : ℤ) : Prop where
  small : a < 2 ^ 53
  least : -1074 ≤ e
  most : e < 972
  full : -1074 < e → 2 ^ 52 ≤ a

/-- The unpacked numbers that are doubles. -/
def Packable : UnpackedFloat → Prop
  | .finite _ a e _ => IsDouble a e
  | _ => True

theorem packable_unpack (x : Float) : Packable x.toModel.unpack := by
  have view := Binary.ofFloat?_eq x
  cases unpacked : x.toModel.unpack with
  | finite sign a e pos =>
      rw [unpacked, Binary.ofUnpacked?] at view
      simp only [Binary.ofFloat?, Nat.pow_eq] at view
      have fraction : x.toBits.toNat % 2 ^ 52 < 2 ^ 52 := Nat.mod_lt _ (by decide)
      have exponent : x.toBits.toNat / 2 ^ 52 % 2 ^ 11 < 2 ^ 11 := Nat.mod_lt _ (by decide)
      split_ifs at view with all none <;> simp only [Option.some.injEq, Binary.mk.injEq] at view <;>
        obtain ⟨-, rfl, rfl⟩ := view
      · exact ⟨by omega, by omega, by omega, by omega⟩
      · exact ⟨by omega, by omega, by omega, by omega⟩
  | _ => trivial

theorem Packable.neg {u : UnpackedFloat} (h : Packable u) : Packable u.neg := by
  cases u <;> exact h

/-- A double with the least exponent and fewer than 53 bits is the same after it was packed. -/
theorem unpack_pack_subnormal {a : ℕ} (small : a < 2 ^ 52) (sign : Sign) (pos : 0 < a) :
    (Float.Model.pack (.finite sign a (-1074) pos)).unpack = .finite sign a (-1074) pos := by
  have bits : a.log2 + 1 ≠ Format.mantissaBits .binary64 := by
    have : a.log2 < 52 := (Nat.log2_lt pos.ne').mpr small
    show a.log2 + 1 ≠ 53
    omega
  have inside : ¬2 ^ Format.exponentBits .binary64 ≤ ((-1074 : ℤ) +
      (Format.exponentBias .binary64 : ℕ) +
      (Format.mantissaBitsWithoutImplicit .binary64 : ℕ)).toNat + 1 := by decide
  have stored : (BitVec.ofNat 52 a).toNat = a := by
    rw [BitVec.toNat_ofNat, Nat.mod_eq_of_lt small]
  have some : BitVec.ofNat 52 a ≠ 0#52 := by
    intro zero
    have : a = 0 := stored.symm.trans (congrArg BitVec.toNat zero)
    omega
  have packed : UnpackedFloat.pack .binary64 (.finite sign a (-1074) pos) =
      packComponents .binary64 sign 0#11 (BitVec.ofNat 52 a) := by
    simp only [UnpackedFloat.pack]
    rw [if_neg inside, if_neg bits]
  have notAll : (0#11 : BitVec 11) ≠ -1#11 := by decide
  show UnpackedFloat.unpack .binary64 (UnpackedFloat.pack .binary64 _) = _
  rw [packed]
  simp only [UnpackedFloat.unpack, unpackExponent_packComponents, unpackMantissa_packComponents,
    unpackSign_packComponents, Sign.ofBitVec_toBitVec, notAll, some, if_false, if_true, dif_neg,
    not_false_eq_true, stored]
  rfl

theorem unpack_pack_infinity (sign : Sign) :
    (Float.Model.pack (.infinity sign)).unpack = .infinity sign := by
  cases sign <;> rfl

/-- A double is the same after it was packed. -/
theorem Packable.unpack_pack {u : UnpackedFloat} (h : Packable u) :
    (Float.Model.pack u).unpack = u := by
  cases u with
  | notANumber => exact unpack_packedNaN
  | infinity sign => exact unpack_pack_infinity sign
  | zero sign => exact unpack_packedZero
  | finite sign a e pos =>
      obtain ⟨small, least, most, full⟩ := h
      by_cases low : 2 ^ 52 ≤ a
      · exact unpack_pack_finite low small sign least most pos
      · obtain rfl : e = -1074 := by omega
        exact unpack_pack_subnormal (by omega) sign pos

/-- A number with too large an exponent is packed as infinity. -/
theorem pack_overflow {a : ℕ} {e : ℤ} (large : 972 ≤ e) (sign : Sign) (pos : 0 < a) :
    Float.Model.pack (.finite sign a e pos) = Float.Model.pack (.infinity sign) := by
  have outside : 2 ^ Format.exponentBits .binary64 ≤ (e + (Format.exponentBias .binary64 : ℕ) +
      (Format.mantissaBitsWithoutImplicit .binary64 : ℕ)).toNat + 1 := by
    show 2 ^ 11 ≤ (e + 1023 + 52).toNat + 1
    omega
  have packed : UnpackedFloat.pack .binary64 (.finite sign a e pos) =
      UnpackedFloat.pack .binary64 (.infinity sign) := by
    simp only [UnpackedFloat.pack]
    rw [if_pos outside]
  simp only [Float.Model.pack, packed]

/-- A double is known by its sign, its significand and its exponent. -/
theorem eq_of_unpack {x y : Float} (same : x.toModel.unpack = y.toModel.unpack) : x = y := by
  obtain ⟨⟨⟨b⟩, valid⟩⟩ := x
  obtain ⟨⟨⟨c⟩, valid'⟩⟩ := y
  obtain rfl : b = c := (unpack_inj_of_valid valid valid').mp same
  rfl

theorem unpack_neg (x : Float) : (-x).toModel.unpack = x.toModel.unpack.neg :=
  (packable_unpack x).neg.unpack_pack

/-! ## Exact values -/

/-- The exact value of an unpacked number. -/
def unpackedValue? : UnpackedFloat → Option ℚ
  | .notANumber | .infinity _ => none
  | .zero _ => some 0
  | .finite sign a e _ => some (sign.apply a * 2 ^ e)

/-- The exact value of a double.  NaN and the infinities have none. -/
def exactValue? (x : Float) : Option ℚ := unpackedValue? x.toModel.unpack

/-- The number a sign, a significand and an exponent stand for. -/
def Binary.value (b : Binary) : ℚ :=
  if b.negative then -(b.significand * 2 ^ b.exponent) else b.significand * 2 ^ b.exponent

/-- The exact view of a double is its exact value. -/
theorem exactValue?_eq (x : Float) : exactValue? x = (Binary.ofFloat? x).map Binary.value := by
  rw [Binary.ofFloat?_eq, exactValue?]
  cases x.toModel.unpack with
  | notANumber | infinity => rfl
  | zero sign => cases sign <;> simp [unpackedValue?, Binary.ofUnpacked?, Binary.value]
  | finite sign a e pos =>
      cases sign <;> simp [unpackedValue?, Binary.ofUnpacked?, Binary.value, Sign.apply]

theorem exactValue?_neg (x : Float) : exactValue? (-x) = (exactValue? x).map (- ·) := by
  rw [exactValue?, exactValue?, unpack_neg]
  cases x.toModel.unpack with
  | notANumber | infinity => rfl
  | zero sign => simp [unpackedValue?, UnpackedFloat.neg]
  | finite sign a e pos =>
      cases sign <;> simp [unpackedValue?, UnpackedFloat.neg, Sign.apply]

theorem exactValue?_ofNat {n : ℕ} (small : n < 2 ^ 53) : exactValue? (Float.ofNat n) = some ↑n := by
  rcases Nat.eq_zero_or_pos n with rfl | pos
  · rfl
  · have bits : n.log2 < 53 := (Nat.log2_lt pos.ne').mpr small
    rw [exactValue?, unpack_ofNat pos small]
    simp only [unpackedValue?, Sign.apply, Option.some.injEq]
    have exponent : (n.log2 : ℤ) - 52 = -((52 - n.log2 : ℕ) : ℤ) := by omega
    rw [exponent, zpow_neg, zpow_natCast]
    push_cast
    field_simp

theorem exactValue?_ofInt {i : ℤ} (small : i.natAbs < 2 ^ 53) :
    exactValue? (Float.ofInt i) = some ↑i := by
  cases i with
  | ofNat n => exact exactValue?_ofNat small
  | negSucc n =>
      show exactValue? (-Float.ofNat (n + 1)) = _
      rw [exactValue?_neg, exactValue?_ofNat (n := n + 1) small, Int.cast_negSucc]
      simp

end ScriptTree
