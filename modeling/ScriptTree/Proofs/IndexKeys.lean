import ScriptTree.Proofs.ArrayLikes
import ScriptTree.Proofs.Spellings

/-!
# Index keys

Arrays, `arguments` and texts have their elements under keys.  A key is written as the text of an
index (`indexText`), and read back by looking at its characters (`arrayIndex?`).  The two agree on
all texts: a key is read as an index exactly when it is what the index is written as
(`arrayIndex?_eq_some_iff`).

What an index is written as is said once more without either, by what the characters of a decimal
text have to be (`IsDecimalText`).
-/

namespace ScriptTree

/-! ## Digits without a leading zero -/

theorem isDigit_iff (c : Char) : c.isDigit = true ↔ '0' ≤ c ∧ c ≤ '9' := by
  simp [Char.isDigit, Char.le_def]

theorem digitChar_of_isDigit {c : Char} (digit : c.isDigit = true) :
    Nat.digitChar (c.toNat - '0'.toNat) = c := by
  have bounds := toNat_of_isDigit digit
  have zero : '0'.toNat = 48 := rfl
  apply Char.toNat_inj.mp
  rw [Nat.toNat_digitChar_of_lt_ten (by omega)]
  omega

theorem digitsValue_concat (digits : List Char) (c : Char) :
    digitsValue (digits ++ [c]) = 10 * digitsValue digits + (c.toNat - '0'.toNat) := by
  rw [digitsValue, List.foldl_append]
  rfl

/-- Digits without a leading zero are those of the number they stand for. -/
theorem toDigits_digitsValue {digits : List Char} (nonempty : digits ≠ [])
    (areDigits : AreDigits digits) (leading : digits.head? = some '0' → digits.length ≤ 1) :
    Nat.toDigits 10 (digitsValue digits) = digits := by
  induction digits using List.reverseRecOn with
  | nil => exact absurd rfl nonempty
  | append_singleton digits c ih =>
      have digit : c.isDigit = true := areDigits c (by simp)
      have small : c.toNat - '0'.toNat < 10 := by
        have bounds := toNat_of_isDigit digit
        have zero : '0'.toNat = 48 := rfl
        omega
      rw [digitsValue_concat]
      by_cases none : digits = []
      · subst none
        have only : 10 * digitsValue [] + (c.toNat - '0'.toNat) = c.toNat - '0'.toNat := by
          simp [digitsValue]
        rw [only, Nat.toDigits_of_lt_base small, digitChar_of_isDigit digit, List.nil_append]
      · -- the digits before the last one have no leading zero at all
        have head : digits.head? ≠ some '0' := by
          intro zero
          have short := leading (by rw [List.head?_append, zero]; rfl)
          simp [none] at short
        have before := ih none (fun d mem => areDigits d (List.mem_append_left _ mem))
          fun zero => absurd zero head
        have positive : 0 < digitsValue digits := by
          apply Nat.pos_of_ne_zero
          intro zero
          rw [zero] at before
          exact head (by rw [← before]; rfl)
        have last := Nat.toDigits_append_toDigits (b := 10) (by decide) positive small
        rw [← last, before, Nat.toDigits_of_lt_base small, digitChar_of_isDigit digit]

/-! ## Decimal texts -/

/-- The text is what a natural number is written as: digits that stand for it, the first one with
the highest power of ten, and no zero before the others. -/
structure IsDecimalText (key : String) (i : ℕ) : Prop where
  nonempty : key ≠ ""
  digits : ∀ c ∈ key.toList, '0' ≤ c ∧ c ≤ '9'
  leading : key.toList.head? = some '0' → key = "0"
  value : Nat.ofDigits 10 (key.toList.reverse.map fun c => c.toNat - '0'.toNat) = i

theorem ofDigits_eq_digitsValue (digits : List Char) :
    Nat.ofDigits 10 (digits.reverse.map fun c => c.toNat - '0'.toNat) = digitsValue digits := by
  induction digits using List.reverseRecOn with
  | nil => rfl
  | append_singleton digits c ih =>
      rw [List.reverse_append, List.map_append, digitsValue_concat, ← ih]
      simp [Nat.ofDigits_cons, add_comm]

/-- The text of an index, by the characters that it consists of. -/
theorem eq_indexText_iff {key : String} {i : ℕ} :
    key = indexText i ↔ key.toList ≠ [] ∧ AreDigits key.toList ∧
      (key.toList.head? = some '0' → key.toList.length ≤ 1) ∧ digitsValue key.toList = i := by
  constructor
  · rintro rfl
    rw [toList_indexText]
    refine ⟨Nat.toDigits_ne_nil, fun c => Nat.isDigit_of_mem_toDigits (by decide) (by decide), ?_,
      digitsValue_toDigits i⟩
    intro zero
    rcases Nat.eq_zero_or_pos i with rfl | positive
    · simp
    · exact absurd zero (head?_toDigits_ne_zero positive)
  · rintro ⟨nonempty, digits, leading, rfl⟩
    apply String.toList_injective
    rw [toList_indexText, toDigits_digitsValue nonempty digits leading]

theorem isDecimalText_iff {key : String} {i : ℕ} : IsDecimalText key i ↔ key = indexText i := by
  have zero (h : key.toList.head? = some '0') : key = "0" ↔ key.toList.length ≤ 1 := by
    rw [← String.toList_inj]
    cases chars : key.toList with
    | nil => simp [chars] at h
    | cons c rest =>
        obtain rfl : c = '0' := by simpa [chars] using h
        simp
  rw [eq_indexText_iff]
  constructor
  · intro decimal
    refine ⟨?_, fun c mem => (isDigit_iff c).mpr (decimal.digits c mem),
      fun h => (zero h).mp (decimal.leading h), ?_⟩
    · simpa using decimal.nonempty
    · rw [← ofDigits_eq_digitsValue]
      exact decimal.value
  · rintro ⟨nonempty, digits, leading, rfl⟩
    exact {
      nonempty := by simpa using nonempty
      digits := fun c mem => (isDigit_iff c).mp (digits c mem)
      leading := fun h => (zero h).mpr (leading h)
      value := ofDigits_eq_digitsValue key.toList }

/-! ## Reading keys -/

/-- A key is read as an index exactly when it is what the index is written as. -/
theorem arrayIndex?_eq_some_iff {key : String} {i : ℕ} :
    arrayIndex? key = some i ↔ i < 2 ^ 64 ∧ key = indexText i := by
  constructor
  · intro read
    simp only [arrayIndex?] at read
    split_ifs at read with bad good
    obtain rfl : digitsValue key.toList = i := by simpa using read
    obtain ⟨nonempty, plain⟩ := not_or.mp bad
    refine ⟨good.2, eq_indexText_iff.mpr ⟨nonempty, ?_, ?_, rfl⟩⟩
    · simpa [AreDigits] using good.1
    · intro zero
      exact Nat.le_of_not_lt fun long => plain ⟨zero, long⟩
  · rintro ⟨small, rfl⟩
    exact arrayIndex?_indexText small

/-- The keys that are read as indices are the decimal texts of the numbers below `2 ^ 64`, each of
its own number, and every other key is read as none.  So writing and reading index keys are inverse
to one another. -/
theorem indexKeys_bijective :
    (∀ key i, arrayIndex? key = some i ↔ i < 2 ^ 64 ∧ key = indexText i) ∧
    (∀ key i, key = indexText i ↔ IsDecimalText key i) ∧
    (∀ key, arrayIndex? key = none ↔ ¬∃ i, i < 2 ^ 64 ∧ key = indexText i) ∧
    Set.BijOn indexText {i | i < 2 ^ 64} {key | (arrayIndex? key).isSome = true} := by
  refine ⟨fun _ _ => arrayIndex?_eq_some_iff, fun _ _ => isDecimalText_iff.symm, ?_, ?_, ?_, ?_⟩
  · intro key
    simp only [Option.eq_none_iff_forall_ne_some, ne_eq, arrayIndex?_eq_some_iff, not_exists]
  · intro i small
    exact Option.isSome_iff_exists.mpr ⟨i, arrayIndex?_indexText small⟩
  · intro i _ j _ same
    exact indexText_inj.mp same
  · intro key isIndex
    obtain ⟨i, read⟩ := Option.isSome_iff_exists.mp isIndex
    obtain ⟨small, rfl⟩ := arrayIndex?_eq_some_iff.mp read
    exact ⟨i, small, rfl⟩

end ScriptTree
