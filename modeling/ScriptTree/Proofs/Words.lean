import Mathlib
import ScriptTree.Operator
import ScriptTree.Proofs.Discipline
import ScriptTree.Proofs.ExactArithmetic

/-!
# Doubles as 32-bit words

A double is truncated toward zero, reduced modulo `2 ^ 32` and converted to a word, each a step on
doubles.  None of the steps rounds, at any size and for either sign: where the remainder is negative
the modulus is added to it, and the sum is a natural of 32 bits (`exactValue?_residue`).  So the word
is the residue of the truncated number (`toNat_toWord`).  Read as a signed number the word is the balanced residue
(`toInt_toWord`).  A word goes back into a double without loss, and a shift moves it by the residue
modulo 32 of its right operand (`Runner.shift_value`).
-/

namespace ScriptTree

/-- The double with its fraction dropped, and zero when it is not finite. -/
def wholePart (x : Float) : ℤ := ((exactValue? x).map truncation).getD 0

/-! ## Residues -/

theorem residue_iff (n t : ℤ) :
    0 ≤ n ∧ n < 2 ^ 32 ∧ n ≡ t [ZMOD 2 ^ 32] ↔ n = t % 2 ^ 32 := by
  rw [Int.ModEq]
  constructor <;> omega

theorem balancedResidue_iff (n t : ℤ) :
    -2 ^ 31 ≤ n ∧ n < 2 ^ 31 ∧ n ≡ t [ZMOD 2 ^ 32] ↔ n = t.bmod (2 ^ 32) := by
  have bounds := Int.bmod_eq_iff (a := t) (b := 2 ^ 32) (c := n) (by decide)
  rw [eq_comm (b := t.bmod _), bounds, Int.modEq_iff_dvd, ← dvd_neg, neg_sub]
  norm_num

/-! ## The steps on doubles -/

theorem exactValue?_modulus : exactValue? 4294967296 = some ((2 ^ 32 : ℤ) : ℚ) := by
  have modulus : exactValue? 4294967296 = some ↑(4294967296 : ℕ) := exactValue?_ofNat (by decide)
  rw [modulus]
  norm_num

section Steps

variable {x : Float} {i : ℤ} (value : exactValue? x = some ↑i)
include value

/-- The remainder of a whole double has the sign of the double. -/
theorem exactValue?_remainder_modulus :
    exactValue? (remainder x 4294967296) = some ↑(i.tmod (2 ^ 32)) :=
  exactValue?_remainder_intCast value exactValue?_modulus (by decide)

/-- Where the remainder is negative the modulus is added to it, and the sum is not rounded: it is a
natural of 32 bits. -/
theorem exactValue?_residue :
    exactValue? (euclideanRemainder x 4294967296) = some ((i % 2 ^ 32 : ℤ) : ℚ) := by
  have rest := exactValue?_remainder_modulus value
  have residue := Int.tmod_eq_emod (a := i) (b := 2 ^ 32)
  have bound : 0 ≤ i % 2 ^ 32 ∧ i % 2 ^ 32 < 2 ^ 32 := by omega
  rw [euclideanRemainder]
  split_ifs with negative
  · rw [lt_zero_iff rest, Int.cast_lt_zero] at negative
    have size : exactValue? (Float.abs 4294967296) = some ((2 ^ 32 : ℤ) : ℚ) := by
      rw [exactValue?_abs, exactValue?_modulus]
      norm_num
    have sum : ((i.tmod (2 ^ 32) : ℤ) : ℚ) + ((2 ^ 32 : ℤ) : ℚ) = ((i % 2 ^ 32 : ℤ) : ℚ) := by
      have : i.tmod (2 ^ 32) + 2 ^ 32 = i % 2 ^ 32 := by split_ifs at residue <;> omega
      exact_mod_cast this
    obtain ⟨n, same⟩ := Int.eq_ofNat_of_zero_le bound.1
    have exact : Representable |((i.tmod (2 ^ 32) : ℤ) : ℚ) + ((2 ^ 32 : ℤ) : ℚ)| := by
      rw [sum, same, Int.cast_natCast, Nat.abs_cast]
      exact representable_natCast (by omega)
    rw [exactValue?_add rest size exact, sum]
  · rw [lt_zero_iff rest, Int.cast_lt_zero] at negative
    have same : i.tmod (2 ^ 32) = i % 2 ^ 32 := by
      split_ifs at residue <;> omega
    rw [rest, same]

end Steps

/-! ## Words -/

theorem toNat_toWord (x : Float) : ((toWord x).toNat : ℤ) = wholePart x % 2 ^ 32 := by
  rw [toWord, wholePart, isFinite_iff]
  cases value : exactValue? x with
  | none => rfl
  | some v =>
      have bound : 0 ≤ truncation v % 2 ^ 32 ∧ truncation v % 2 ^ 32 < 2 ^ 32 := by omega
      obtain ⟨n, same⟩ := Int.eq_ofNat_of_zero_le bound.1
      have residue := exactValue?_residue (exactValue?_truncate value)
      rw [same, Int.cast_natCast] at residue
      have word := toNat_toUInt32 residue (by omega)
      simpa [word] using same.symm

theorem toInt_toInt32 (w : UInt32) : w.toInt32.toInt = (w.toNat : ℤ).bmod (2 ^ 32) :=
  BitVec.toInt_eq_toNat_bmod w.toBitVec

theorem toInt_toWord (x : Float) : (toWord x).toInt32.toInt = (wholePart x).bmod (2 ^ 32) := by
  rw [toInt_toInt32, toNat_toWord]
  exact Int.emod_bmod (wholePart x) (2 ^ 32)

/-- A word is known by the residue of its double. -/
theorem toWord_eq {x : Float} {w : UInt32} (same : wholePart x % 2 ^ 32 = w.toNat) :
    toWord x = w := by
  rw [← UInt32.toNat_inj]
  have := toNat_toWord x
  omega

theorem exactValue?_unsignedWord (w : UInt32) : exactValue? (unsignedWord w) = some ↑w.toNat :=
  exactValue?_ofNat (lt_trans w.toNat_lt (by decide))

theorem exactValue?_word (i : Int32) : exactValue? (Float.ofInt i.toInt) = some ↑i.toInt := by
  have low : -2 ^ 31 ≤ i.toInt := i.le_toInt
  have high : i.toInt < 2 ^ 31 := i.toInt_lt
  exact exactValue?_ofInt (by omega)

theorem toWord_unsignedWord (w : UInt32) : toWord (unsignedWord w) = w := by
  apply toWord_eq
  have whole : wholePart (unsignedWord w) = w.toNat := by
    rw [wholePart, exactValue?_unsignedWord]
    exact truncation_intCast w.toNat
  have := w.toNat_lt
  omega

theorem toWord_signedWord (w : UInt32) : toWord (signedWord w) = w := by
  apply toWord_eq
  have whole : wholePart (signedWord w) = w.toInt32.toInt := by
    rw [wholePart, signedWord, exactValue?_word]
    exact truncation_intCast _
  have small := w.toNat_lt
  rw [whole, toInt_toInt32]
  have residue : (w.toNat : ℤ).bmod (2 ^ 32) % 2 ^ 32 = w.toNat % 2 ^ 32 :=
    Int.bmod_emod (x := w.toNat) (m := 2 ^ 32)
  omega

/-! ## Shifts -/

theorem toNat_shiftAmount (x : Float) : (shiftAmount (toWord x)).toNat = (wholePart x % 32).toNat := by
  have := toNat_toWord x
  rw [shiftAmount, UInt32.toNat_mod]
  show (toWord x).toNat % 32 = _
  omega

section Amount

variable (w : UInt32) {amount : UInt32} (small : amount.toNat < 32)
include small

theorem toInt_shiftLeft :
    (w <<< amount).toInt32.toInt = (w.toNat * 2 ^ amount.toNat : ℤ).bmod (2 ^ 32) := by
  have residue := Int.emod_bmod (w.toNat * 2 ^ amount.toNat) (2 ^ 32)
  rw [toInt_toInt32, UInt32.toNat_shiftLeft, Nat.mod_eq_of_lt small, Nat.shiftLeft_eq]
  push_cast at residue ⊢
  exact residue

theorem toNat_shiftRight : (w >>> amount).toNat = w.toNat / 2 ^ amount.toNat := by
  rw [UInt32.toNat_shiftRight, Nat.mod_eq_of_lt small, Nat.shiftRight_eq_div_pow]

theorem toInt_shiftRight :
    (w.toInt32 >>> amount.toInt32).toInt = w.toInt32.toInt / 2 ^ amount.toNat := by
  have plain : amount.toBitVec.msb = false := by
    rw [BitVec.msb_eq_false_iff_two_mul_lt]
    show 2 * amount.toNat < 2 ^ 32
    omega
  have places : (amount.toBitVec.smod 32).toNat = amount.toNat := by
    have reduced : amount.toBitVec.smod 32 = amount.toBitVec % 32#32 := by
      rw [BitVec.smod_eq, plain]
      rfl
    rw [reduced, BitVec.toNat_umod]
    exact Nat.mod_eq_of_lt small
  show (w.toBitVec.sshiftRight' (amount.toBitVec.smod 32)).toInt = _
  rw [BitVec.toInt_sshiftRight', places, Int.shiftRight_eq_div_pow]
  rfl

end Amount

namespace Runner

variable {r : Runner} {left right : Value} {m m₁ m₂ : Machine} {x y : Float}

theorem toWord_value {v : Value} (number : r.toNumber v m = .value x m₁) :
    r.toWord v m = .value (ScriptTree.toWord x) m₁ := by
  rw [Runner.toWord, Eval.bind_of_value number]
  rfl

/-- A shift moves the word of its left operand by the residue of its right one. -/
theorem shift_value (f : UInt32 → UInt32 → Float) (second : r.toNumber right m = .value y m₁)
    (first : r.toNumber left m₁ = .value x m₂) :
    r.shift f left right m =
      .value (.number (f (ScriptTree.toWord x) (shiftAmount (ScriptTree.toWord y)))) m₂ := by
  rw [shift, Eval.bind_of_value (toWord_value second), Eval.bind_of_value (toWord_value first)]
  rfl

theorem shiftAmount_lt (y : Float) : (shiftAmount (ScriptTree.toWord y)).toNat < 32 := by
  rw [toNat_shiftAmount]
  omega

variable (second : r.toNumber right m = .value y m₁) (first : r.toNumber left m₁ = .value x m₂)
include second first

theorem shiftLeft_value :
    ∃ z, r.applyBinary .shiftLeft left right m = .value (.number z) m₂ ∧ exactValue? z =
      some (((wholePart x * 2 ^ (wholePart y % 32).toNat).bmod (2 ^ 32) : ℤ) : ℚ) := by
  refine ⟨_, shift_value (fun w amount => signedWord (w <<< amount)) second first, ?_⟩
  have residue : (wholePart x % 2 ^ 32 * 2 ^ (wholePart y % 32).toNat).bmod (2 ^ 32) =
      (wholePart x * 2 ^ (wholePart y % 32).toNat).bmod (2 ^ 32) :=
    Int.emod_mul_bmod (wholePart x) (2 ^ 32)
  rw [signedWord, exactValue?_word, toInt_shiftLeft _ (shiftAmount_lt y), toNat_shiftAmount,
    toNat_toWord, residue]

theorem shiftRight_value :
    ∃ z, r.applyBinary .shiftRight left right m = .value (.number z) m₂ ∧ exactValue? z =
      some (((wholePart x).bmod (2 ^ 32) / 2 ^ (wholePart y % 32).toNat : ℤ) : ℚ) := by
  refine ⟨_, shift_value (fun w amount => Float.ofInt (w.toInt32 >>> amount.toInt32).toInt) second
    first, ?_⟩
  rw [exactValue?_word, toInt_shiftRight _ (shiftAmount_lt y), toNat_shiftAmount, toInt_toWord]

theorem shiftRightUnsigned_value :
    ∃ z, r.applyBinary .shiftRightUnsigned left right m = .value (.number z) m₂ ∧ exactValue? z =
      some ((wholePart x % 2 ^ 32 / 2 ^ (wholePart y % 32).toNat : ℤ) : ℚ) := by
  refine ⟨_, shift_value (fun w amount => unsignedWord (w >>> amount)) second first, ?_⟩
  rw [exactValue?_unsignedWord, toNat_shiftRight _ (shiftAmount_lt y), toNat_shiftAmount,
    ← toNat_toWord x]
  norm_cast

end Runner

/-- The steps that make a word of a double do not round: truncation, the remainder, and the modulus
added to it where it is negative.  So the words of a double are the residues modulo `2 ^ 32` of its
truncation, unsigned and signed, and what is not finite counts as zero.  The two readings of a word agree modulo `2 ^ 32`, and either
one, as a double, has that word again.  A shift moves by the truncation of its right operand modulo
32, and loses nothing but what it shifts out. -/
theorem toWord_residues :
    (∀ x v, exactValue? x = some v →
      exactValue? (truncate x) = some ↑(truncation v) ∧
      exactValue? (remainder (truncate x) 4294967296) = some ↑((truncation v).tmod (2 ^ 32)) ∧
      exactValue? (euclideanRemainder (truncate x) 4294967296) =
        some ((truncation v % 2 ^ 32 : ℤ) : ℚ) ∧
      ∀ n : ℤ,
        (0 ≤ n ∧ n < 2 ^ 32 ∧ n ≡ truncation v [ZMOD 2 ^ 32] ↔ n = (toWord x).toNat) ∧
        (-2 ^ 31 ≤ n ∧ n < 2 ^ 31 ∧ n ≡ truncation v [ZMOD 2 ^ 32] ↔
          n = (toWord x).toInt32.toInt)) ∧
    (∀ x, exactValue? x = none → (toWord x).toNat = 0 ∧ (toWord x).toInt32.toInt = 0) ∧
    (∀ w : UInt32, w.toInt32.toInt ≡ w.toNat [ZMOD 2 ^ 32] ∧
      exactValue? (unsignedWord w) = some ↑w.toNat ∧ toWord (unsignedWord w) = w ∧
      exactValue? (signedWord w) = some ↑w.toInt32.toInt ∧ toWord (signedWord w) = w) ∧
    ∀ (r : Runner) (left right : Value) (m m₁ m₂ : Machine) (x y : Float),
      r.toNumber right m = .value y m₁ → r.toNumber left m₁ = .value x m₂ →
      (∃ z, r.applyBinary .shiftLeft left right m = .value (.number z) m₂ ∧ exactValue? z =
        some (((wholePart x * 2 ^ (wholePart y % 32).toNat).bmod (2 ^ 32) : ℤ) : ℚ)) ∧
      (∃ z, r.applyBinary .shiftRight left right m = .value (.number z) m₂ ∧ exactValue? z =
        some (((wholePart x).bmod (2 ^ 32) / 2 ^ (wholePart y % 32).toNat : ℤ) : ℚ)) ∧
      ∃ z, r.applyBinary .shiftRightUnsigned left right m = .value (.number z) m₂ ∧ exactValue? z =
        some ((wholePart x % 2 ^ 32 / 2 ^ (wholePart y % 32).toNat : ℤ) : ℚ) := by
  refine ⟨?_, ?_, ?_, ?_⟩
  · intro x v value
    have whole : wholePart x = truncation v := by rw [wholePart, value]; rfl
    have truncated := exactValue?_truncate value
    refine ⟨truncated, exactValue?_remainder_modulus truncated, exactValue?_residue truncated,
      fun n => ?_⟩
    rw [toNat_toWord, toInt_toWord, whole]
    exact ⟨residue_iff n _, balancedResidue_iff n _⟩
  · intro x value
    have whole : wholePart x = 0 := by rw [wholePart, value]; rfl
    have unsigned := toNat_toWord x
    have signed := toInt_toWord x
    rw [whole] at unsigned signed
    exact ⟨by exact_mod_cast unsigned, signed⟩
  · intro w
    refine ⟨?_, exactValue?_unsignedWord w, toWord_unsignedWord w, exactValue?_word w.toInt32,
      toWord_signedWord w⟩
    rw [toInt_toInt32]
    exact ((balancedResidue_iff _ _).mpr rfl).2.2
  · intro r left right m m₁ m₂ x y second first
    exact ⟨Runner.shiftLeft_value second first, Runner.shiftRight_value second first,
      Runner.shiftRightUnsigned_value second first⟩

/-- `-(2 ^ 52 + 1) * 2 ^ 20`, which is far from every 32-bit word, leaves the remainder `-2 ^ 20`,
to which the modulus is added, and has the words `2 ^ 32 - 2 ^ 20` and `-2 ^ 20`.  Shifted right by
33.5 it moves by one place. -/
theorem toWord_residues_large :
    exactValue? (remainder (truncate (.ofBits 0xC470000000000001)) 4294967296) =
      some (-2 ^ 20) ∧
    exactValue? (euclideanRemainder (truncate (.ofBits 0xC470000000000001)) 4294967296) =
      some (2 ^ 32 - 2 ^ 20) ∧
    (toWord (.ofBits 0xC470000000000001)).toNat = 2 ^ 32 - 2 ^ 20 ∧
    (toWord (.ofBits 0xC470000000000001)).toInt32.toInt = -2 ^ 20 ∧
    ∃ z, (Settings.standard.runner 0).applyBinary .shiftRight
        (.number (.ofBits 0xC470000000000001)) (.number (.ofBits 0x4040C00000000000))
        Machine.empty = .value (.number z) Machine.empty ∧
      exactValue? z = some (-2 ^ 19) := by
  obtain ⟨finite, -, -, shifts⟩ := toWord_residues
  have large : exactValue? (.ofBits 0xC470000000000001) =
      some (((-(2 ^ 52 + 1) : ℤ) : ℚ) * 2 ^ (20 : ℤ)) := rfl
  have small : exactValue? (.ofBits 0x4040C00000000000) =
      some (((0x10C00000000000 : ℤ) : ℚ) * 2 ^ (-47 : ℤ)) := rfl
  have whole : truncation (((-(2 ^ 52 + 1) : ℤ) : ℚ) * 2 ^ (20 : ℤ)) = -(2 ^ 52 + 1) * 2 ^ 20 := by
    have : (((-(2 ^ 52 + 1) : ℤ) : ℚ) * 2 ^ (20 : ℤ)) = ((-(2 ^ 52 + 1) * 2 ^ 20 : ℤ) : ℚ) := by
      norm_num
    rw [this, truncation_intCast]
  have places : truncation (((0x10C00000000000 : ℤ) : ℚ) * 2 ^ (-47 : ℤ)) = 33 := by
    norm_num [truncation, Int.floor_eq_iff]
  obtain ⟨-, ⟨z, shifted, value⟩, -⟩ := shifts (Settings.standard.runner 0)
    (.number (.ofBits 0xC470000000000001)) (.number (.ofBits 0x4040C00000000000)) Machine.empty
    Machine.empty Machine.empty (.ofBits 0xC470000000000001) (.ofBits 0x4040C00000000000) rfl rfl
  obtain ⟨-, rest, residue, words⟩ := finite _ _ large
  have unsigned := (words (2 ^ 32 - 2 ^ 20)).1
  have signed := (words (-2 ^ 20)).2
  rw [whole] at unsigned signed rest residue
  refine ⟨?_, ?_, ?_, ?_, z, shifted, ?_⟩
  · have : (-(2 ^ 52 + 1) * 2 ^ 20 : ℤ).tmod (2 ^ 32) = -2 ^ 20 := by decide
    rw [rest, this]
    norm_num
  · have : (-(2 ^ 52 + 1) * 2 ^ 20 : ℤ) % 2 ^ 32 = 2 ^ 32 - 2 ^ 20 := by decide
    rw [residue, this]
    norm_num
  · have := unsigned.mp (by decide)
    omega
  · exact (signed.mp (by decide)).symm
  · have dividend : wholePart (.ofBits 0xC470000000000001) = -(2 ^ 52 + 1) * 2 ^ 20 := by
      rw [wholePart, large, Option.map_some, whole]
      rfl
    have divisor : wholePart (.ofBits 0x4040C00000000000) = 33 := by
      rw [wholePart, small, Option.map_some, places]
      rfl
    rw [value, dividend, divisor]
    have : (-(2 ^ 52 + 1) * 2 ^ 20 : ℤ).bmod (2 ^ 32) / 2 ^ (33 % 32 : ℤ).toNat = -2 ^ 19 := by decide
    rw [this]
    norm_num

end ScriptTree
