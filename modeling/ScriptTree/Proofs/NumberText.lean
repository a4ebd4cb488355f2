import Mathlib
import ScriptTree.Number.Text
import ScriptTree.Proofs.ArrayLikes
import ScriptTree.Proofs.NumeralValues

/-!
# The text of a number reads back

The text of a number is laid out in one of four ways: digits and zeros, a point inside the digits,
zeros before them, or an exponent.  Each is a decimal numeral that stands for exactly what the digits
stand for (`exists_spelling`).  The digits are such that the double is nearest to them
(`Binary.shortest_spec`), and so reading the text gives the number back.
-/

namespace ScriptTree

/-! ## Digits and a power of ten -/

/-- The number `d₁.d₂d₃… * 10 ^ e`, digit by digit. -/
def scientific : List Char → ℤ → ℚ
  | [], _ => 0
  | c :: cs, e => digitsValue [c] * 10 ^ e + scientific cs (e - 1)

theorem scientific_eq (digits : List Char) (e : ℤ) :
    scientific digits e = digitsValue digits * 10 ^ (e + 1 - digits.length) := by
  induction digits generalizing e with
  | nil => simp [scientific, digitsValue]
  | cons c digits ih =>
      have shifted : e - 1 + 1 - digits.length = e + 1 - (c :: digits).length := by
        push_cast [List.length_cons]
        ring
      have power : (10 : ℚ) ^ e = 10 ^ digits.length * 10 ^ (e + 1 - (c :: digits).length) := by
        rw [← zpow_natCast, ← zpow_add₀ (by norm_num)]
        congr 1
        push_cast [List.length_cons]
        ring
      have value : digitsValue (c :: digits) =
          digitsValue [c] * 10 ^ digits.length + digitsValue digits := digitsValue_append [c] digits
      rw [scientific, ih, shifted, power, value]
      push_cast
      ring

theorem scientific_nonneg (digits : List Char) (e : ℤ) : 0 ≤ scientific digits e := by
  rw [scientific_eq]
  positivity

theorem digitsValue_replicate_zero (n : ℕ) : digitsValue (List.replicate n '0') = 0 := by
  rw [digitsValue, ← Nat.ofDigitChars_eq_foldl, Nat.ofDigitChars_replicate_zero, mul_zero]

theorem areDigits_replicate_zero (n : ℕ) : AreDigits (List.replicate n '0') := by
  intro c mem
  rw [List.eq_of_mem_replicate mem]
  rfl

theorem areDigits_toDigits (n : ℕ) : AreDigits (Nat.toDigits 10 n) :=
  fun _ => Nat.isDigit_of_mem_toDigits (by decide) (by decide)

/-- A decimal numeral whose digits are those of `digits` up to zeros. -/
theorem decimalSize_eq_scientific {size : List Char → ℕ} {digits whole : List Char}
    {fraction : Option (List Char)} {exponent : Option ExponentPart} {e : ℤ} {k : ℕ}
    (value : digitsValue (whole ++ fraction.getD []) = digitsValue digits * 10 ^ k)
    (place : exponentOf size exponent - (fraction.getD []).length + k = e + 1 - digits.length) :
    decimalSize size whole fraction exponent = scientific digits e := by
  rw [decimalSize_eq, Decimal.value, value, scientific_eq, ← place, zpow_add₀ (by norm_num),
    zpow_natCast]
  push_cast
  ring

/-! ## Layouts -/

section Layout

variable {digits : List Char} (some : digits ≠ []) (h : AreDigits digits)
include some h

theorem exists_of_positionalText (point : ℤ) : ∃ whole fraction, whole ≠ [] ∧ AreDigits whole ∧
    AreDigits (fraction.getD []) ∧
    Layout.positionalText digits point = whole ++ Spelling.pointText fraction ∧
    ∀ size, decimalSize size whole fraction none = scientific digits (point - 1) := by
  rw [Layout.positionalText]
  split_ifs with after inside
  · refine ⟨_, none, by simp [some], h.append (areDigits_replicate_zero _), by simp [AreDigits],
      (List.append_nil _).symm,
      fun size => decimalSize_eq_scientific (k := (point - digits.length).toNat) ?_ ?_⟩
    · simp [digitsValue_append, digitsValue_replicate_zero]
    · simp only [exponentOf, Option.getD_none, List.length_nil]
      omega
  · refine ⟨_, .some _, ?_, fun c mem => h c (List.mem_of_mem_take mem),
      fun c mem => h c (List.mem_of_mem_drop mem), rfl,
      fun size => decimalSize_eq_scientific (k := 0) ?_ ?_⟩
    · simp [List.take_eq_nil_iff, some]
      omega
    · simp
    · simp only [exponentOf, Option.getD_some, List.length_drop]
      omega
  · refine ⟨['0'], .some _, by simp, by simp [AreDigits], (areDigits_replicate_zero _).append h, rfl,
      fun size => decimalSize_eq_scientific (k := 0) ?_ ?_⟩
    · rw [Option.getD_some, digitsValue_append, digitsValue_append, digitsValue_replicate_zero]
      simp [digitsValue]
    · simp only [exponentOf, Option.getD_some, List.length_append, List.length_replicate]
      omega

theorem exists_of_exponentText (point : ℤ) : ∃ whole fraction, ∃ part : ExponentPart, whole ≠ [] ∧
    AreDigits whole ∧ AreDigits (fraction.getD []) ∧ part.WellFormed ∧ part.letter = 'e' ∧
    Layout.exponentText digits point =
      whole ++ (Spelling.pointText fraction ++ Spelling.exponentText part) ∧
    digitsValue part.digits = (point - 1).natAbs ∧
    decimalSize digitsValue whole fraction part = scientific digits (point - 1) := by
  obtain ⟨fraction, point', behind⟩ : ∃ fraction : Option (List Char),
      (if digits.drop 1 = [] then [] else '.' :: digits.drop 1) = Spelling.pointText fraction ∧
        fraction.getD [] = digits.drop 1 := by
    split_ifs with none
    · exact ⟨.none, rfl, none.symm⟩
    · exact ⟨.some (digits.drop 1), rfl, rfl⟩
  refine ⟨digits.take 1, fraction, ⟨'e', if 0 ≤ point - 1 then .plus else .minus,
    Nat.toDigits 10 (point - 1).natAbs⟩, by simp [some],
    fun c mem => h c (List.mem_of_mem_take mem), ?_, ⟨List.mem_cons_self, Nat.toDigits_ne_nil,
      areDigits_toDigits _⟩, rfl, ?_, digitsValue_toDigits _, decimalSize_eq_scientific (k := 0) ?_ ?_⟩
  · rw [behind]
    exact fun c mem => h c (List.mem_of_mem_drop mem)
  · simp only [Layout.exponentText, point', Spelling.exponentText, ExponentPart.text]
    split_ifs <;> simp [SignMark.text]
  · rw [behind, List.take_append_drop, pow_zero, mul_one]
  · have length := List.length_pos_iff.mpr some
    simp only [exponentOf, behind, digitsValue_toDigits, List.length_drop]
    by_cases sign : 0 ≤ point - 1
    · simp only [sign, if_true, SignMark.isMinus, Bool.false_eq_true, if_false]
      omega
    · simp only [sign, if_false, SignMark.isMinus, if_true]
      omega

/-- A number laid out for scripts is spelled as a decimal numeral that stands for its digits.  It has
an exponent when the point is far from the digits. -/
theorem exists_spelling (sign : SignMark) (e : ℤ) : ∃ whole fraction exponent,
    (Spelling.decimal sign whole fraction exponent).WellFormed ∧
    (Spelling.decimal sign whole fraction exponent).text =
      sign.text ++ Layout.script.digitsText digits (e + 1) ∧
    decimalSize digitsValue whole fraction exponent = scientific digits e ∧
    (∀ part ∈ exponent, digitsValue part.digits = e.natAbs) ∧
    ('e' ∈ Layout.script.digitsText digits (e + 1) ↔ 21 ≤ e ∨ e < -6) := by
  have plain {cs : List Char} (digits : AreDigits cs) : 'e' ∉ cs :=
    fun mem => absurd (digits 'e' mem) (by decide)
  have point : e + 1 - 1 = e := by ring
  by_cases near : -6 < e + 1 ∧ e + 1 ≤ 21
  · have layout : Layout.script.digitsText digits (e + 1) = Layout.positionalText digits (e + 1) :=
      if_pos near
    obtain ⟨whole, fraction, some, digits', digits'', text, value⟩ :=
      exists_of_positionalText some h (e + 1)
    rw [layout, text]
    refine ⟨whole, fraction, none, ⟨digits', digits'', .inl some, by simp⟩, ?_, ?_, by simp, ?_⟩
    · simp [Spelling.text, Spelling.exponentText]
    · rw [value, point]
    · refine iff_of_false ?_ (by omega)
      cases fraction with
      | none => simpa [Spelling.pointText] using plain digits'
      | some ds => simpa [Spelling.pointText] using ⟨plain digits', plain digits''⟩
  · have layout : Layout.script.digitsText digits (e + 1) = Layout.exponentText digits (e + 1) :=
      if_neg near
    obtain ⟨whole, fraction, part, some, digits', digits'', formed, letter, text, exponent, value⟩ :=
      exists_of_exponentText some h (e + 1)
    rw [layout, text]
    rw [point] at exponent value
    refine ⟨whole, fraction, part, ⟨digits', digits'', .inl some, ?_⟩, rfl, value, ?_, ?_⟩
    · rintro _ ⟨⟩
      exact formed
    · rintro _ ⟨⟩
      exact exponent
    · refine iff_of_true ?_ (by omega)
      simp [Spelling.exponentText, ExponentPart.text, letter]

end Layout

/-! ## Reading back -/

theorem IsDecimalChar.isBlank_eq {c : Char} (h : IsDecimalChar c) : isBlank c = false := by
  rcases h with digit | mark
  · have bounds := toNat_of_isDigit digit
    simp only [isBlank, blankRanges, List.any_cons, List.any_nil, Bool.or_false, Bool.or_eq_false_iff,
      Bool.and_eq_false_iff, decide_eq_false_iff_not]
    omega
  · fin_cases mark <;> decide +kernel

/-- A decimal numeral has no white space in it. -/
theorem trimmed_decimal {sign : SignMark} {whole : List Char} {fraction : Option (List Char)}
    {exponent : Option ExponentPart}
    (formed : (Spelling.decimal sign whole fraction exponent).WellFormed) :
    Trimmed (Spelling.decimal sign whole fraction exponent).text
      (Spelling.decimal sign whole fraction exponent).text := by
  have solid := isDecimalChar_of_text formed
  refine ⟨[], [], by simp, by simp, by simp, fun c mem => ?_, fun c mem => ?_⟩
  · exact (solid c (List.mem_of_mem_head? mem)).isBlank_eq
  · exact (solid c (List.mem_of_mem_getLast? mem)).isBlank_eq

/-- The text of digits and a power of ten stands for them. -/
theorem parse?_digitsText (sign : SignMark) {digits : List Char} (some : digits ≠ [])
    (h : AreDigits digits) {e : ℤ} (range : e.natAbs < 10 * Numeral.exponentLimit) :
    ∃ size : Decimal, size.value = scientific digits e ∧
      Numeral.parse? (trimBlanks (sign.text ++ Layout.script.digitsText digits (e + 1))) =
        .some (.decimal sign.isMinus size) := by
  obtain ⟨whole, fraction, exponent, formed, text, value, exact, -⟩ := exists_spelling some h sign e
  have same : decimalSize Numeral.exponentSize whole fraction exponent = scientific digits e := by
    rw [← value]
    cases exponent with
    | none => rfl
    | some part =>
        have small := exact part rfl
        have size := (exponentSize_cases part.digits).resolve_right fun large => by omega
        rw [decimalSize, decimalSize, exponentOf, exponentOf, size]
  rw [decimalSize_eq] at same
  refine ⟨_, same, ?_⟩
  rw [← text, (trimmed_decimal formed).trimBlanks_eq, parse?_text formed, Spelling.numeral,
    Spelling.size]

/-! ## The digits of a double -/

/-- Digits that are written for a double: at least one, the first and the last other than zero. -/
structure Significant (cs : List Char) : Prop where
  nonempty : cs ≠ []
  digits : AreDigits cs
  first : cs.head? ≠ some '0'
  last : cs.getLast? ≠ some '0'

theorem significant_toDigits {n : ℕ} (last : n % 10 ≠ 0) : Significant (Nat.toDigits 10 n) where
  nonempty := Nat.toDigits_ne_nil
  digits := areDigits_toDigits n
  first := head?_toDigits_ne_zero (Nat.pos_of_ne_zero fun zero => last (by rw [zero]))
  last := by
    have digit : ∀ d : Fin 10, d.val ≠ 0 → Nat.digitChar d ≠ '0' := by decide
    have ends : (Nat.toDigits 10 n).getLast? = .some (Nat.digitChar (n % 10)) := by
      rw [Nat.toDigits_eq_if (by decide)]
      split_ifs with small
      · rw [Nat.mod_eq_of_lt small]
        rfl
      · exact List.getLast?_concat
    rw [ends]
    exact fun same => digit ⟨n % 10, Nat.mod_lt n (by decide)⟩ last (Option.some.inj same)

/-- A finite double is neither too large nor too small. -/
theorem bounds_of_unpack_nearest {v : ℚ} (nonneg : 0 ≤ v) {a : ℕ} {e : ℤ} {pos : 0 < a}
    (unpacked : (nearest v).toModel.unpack = .finite .positive a e pos) :
    2 ^ (-1075 : ℤ) ≤ v ∧ v < 2 ^ (1024 : ℤ) := by
  constructor
  · by_contra small
    rw [nearest_of_small nonneg (not_le.mp small)] at unpacked
    cases unpacked
  · by_contra large
    rw [nearest_of_large (not_lt.mp large)] at unpacked
    cases unpacked

/-- The power of ten of a double. -/
theorem exponent_range {n : ℕ} (pos : 0 < n) {k : ℤ} (least : 2 ^ (-1075 : ℤ) ≤ (n * 10 ^ k : ℚ))
    (most : (n * 10 ^ k : ℚ) < 2 ^ (1024 : ℤ)) :
    -324 ≤ digitCount n + k - 1 ∧ digitCount n + k - 1 ≤ 308 := by
  obtain ⟨low, high⟩ := digitCount_bounds pos
  have count := digitCount_pos n
  have low' : (10 : ℚ) ^ (digitCount n + k - 1) ≤ n * 10 ^ k := by
    have : (10 : ℚ) ^ ((digitCount n - 1 : ℕ) : ℤ) ≤ n := by exact_mod_cast low
    calc (10 : ℚ) ^ (digitCount n + k - 1) = 10 ^ ((digitCount n - 1 : ℕ) : ℤ) * 10 ^ k := by
          rw [← zpow_add₀ (by norm_num)]
          congr 1
          omega
      _ ≤ n * 10 ^ k := by gcongr
  have high' : (n * 10 ^ k : ℚ) < 10 ^ (digitCount n + k) := by
    have : (n : ℚ) < 10 ^ (digitCount n : ℤ) := by exact_mod_cast high
    rw [zpow_add₀ (by norm_num)]
    gcongr
  constructor
  · have bits : (10 : ℚ) ^ (-324 : ℤ) < 2 ^ (-1075 : ℤ) := by
      have : (2 : ℚ) ^ 1075 < 10 ^ 324 := by exact_mod_cast (by decide +kernel : 2 ^ 1075 < 10 ^ 324)
      rw [zpow_neg, zpow_neg]
      exact inv_strictAnti₀ (by positivity) (by exact_mod_cast this)
    have := bits.trans (least.trans_lt high')
    have := (zpow_lt_zpow_iff_right₀ (by norm_num)).mp this
    omega
  · have bits : (2 : ℚ) ^ (1024 : ℤ) < 10 ^ (309 : ℤ) := by
      exact_mod_cast (by decide +kernel : 2 ^ 1024 < 10 ^ 309)
    have := (low'.trans_lt most).trans bits
    have := (zpow_lt_zpow_iff_right₀ (by norm_num)).mp this
    omega

theorem Binary.value_eq_zero_iff (b : Binary) : b.value = 0 ↔ b.significand = 0 := by
  have : (2 : ℚ) ^ b.exponent ≠ 0 := by positivity
  rw [Binary.value]
  split_ifs <;> simp [this]

theorem Binary.value_lt_zero_iff {b : Binary} (pos : 0 < b.significand) :
    b.value < 0 ↔ b.negative = true := by
  have : (0 : ℚ) < b.significand * 2 ^ b.exponent := by positivity
  rw [Binary.value]
  split_ifs with negative
  · simpa [negative] using this
  · simpa [negative] using this.le

/-- The sign of a number other than zero in its text. -/
def signOf (v : ℚ) : SignMark := if v < 0 then .minus else .none

/-- The text of a number is made of digits that it is the nearest double to. -/
theorem exists_digits {x : Float} {v : ℚ} (value : exactValue? x = some v) (nonzero : v ≠ 0) :
    ∃ digits e, Significant digits ∧ -324 ≤ e ∧ e ≤ 308 ∧
      (numberText x).toList = (signOf v).text ++ Layout.script.digitsText digits (e + 1) ∧
      (if v < 0 then -x else x) = nearest (scientific digits e) := by
  obtain ⟨b, view, rfl⟩ := Option.map_eq_some_iff.mp (exactValue?_eq x ▸ value)
  have pos : 0 < b.significand := Nat.pos_of_ne_zero (mt b.value_eq_zero_iff.mpr nonzero)
  obtain ⟨double, unpacked⟩ := Binary.isDouble_of_ofFloat? view pos
  obtain ⟨last, holds⟩ := Binary.shortest_spec double pos
  have some : 0 < b.shortest.digits := Nat.pos_of_ne_zero fun zero => last (by rw [zero])
  have rounded := Binary.unpack_nearest_of_holds double pos holds
  obtain ⟨least, most⟩ := bounds_of_unpack_nearest (Binary.pos_of_holds pos holds).le rounded
  obtain ⟨least', most'⟩ := exponent_range some least most
  refine ⟨Nat.toDigits 10 b.shortest.digits, digitCount b.shortest.digits + b.shortest.exponent - 1,
    significant_toDigits last, least', most', ?_, ?_⟩
  · rw [sub_add_cancel, signOf, numberText, Layout.text, view]
    simp only [pos.ne', if_false, Binary.value_lt_zero_iff pos]
    split_ifs
    · simp only [String.toList_append, String.toList_ofList]
      rfl
    · simp only [String.toList_ofList]
      rfl
  · have size : scientific (Nat.toDigits 10 b.shortest.digits)
        (digitCount b.shortest.digits + b.shortest.exponent - 1) = b.shortest.value := by
      rw [scientific_eq, digitsValue_toDigits, Decimal.value, digitCount]
      congr 2
      ring
    rw [size]
    apply eq_of_unpack
    rw [rounded]
    simp only [Binary.value_lt_zero_iff pos]
    split_ifs with negative
    · rw [unpack_neg, unpacked, if_pos negative]
      rfl
    · rw [unpacked, if_neg negative]

theorem neg_neg_eq (x : Float) : - -x = x := by
  apply eq_of_unpack
  rw [unpack_neg, unpack_neg]
  cases x.toModel.unpack with
  | notANumber => rfl
  | infinity sign | zero sign => cases sign <;> rfl
  | finite sign => cases sign <;> rfl

/-- Infinity and what is not a number have words for their texts. -/
theorem textNumber_numberText_of_none {x : Float} (value : exactValue? x = none) :
    textNumber (numberText x) = x := by
  have same (y : Float) : x.toModel.unpack = y.toModel.unpack → x = y := eq_of_unpack
  rw [exactValue?] at value
  cases unpacked : x.toModel.unpack with
  | notANumber =>
      rw [same notANumber unpacked]
      rfl
  | infinity sign =>
      cases sign with
      | positive =>
          rw [same infinity unpacked]
          rfl
      | negative =>
          rw [same (-infinity) unpacked]
          rfl
  | zero sign | finite sign => rw [unpacked] at value; cases value

theorem numberText_of_zero {x : Float} (value : exactValue? x = some 0) : numberText x = "0" := by
  obtain ⟨b, view, zero⟩ := Option.map_eq_some_iff.mp (exactValue?_eq x ▸ value)
  rw [numberText, Layout.text, view]
  simp [b.value_eq_zero_iff.mp zero, Layout.script]

/-- A number is the one its text stands for, and zero has no sign in its text. -/
theorem textNumber_numberText (x : Float) :
    textNumber (numberText x) = if exactValue? x = some 0 then 0 else x := by
  split_ifs with zero
  · rw [numberText_of_zero zero]
    rfl
  · cases value : exactValue? x with
    | none => exact textNumber_numberText_of_none value
    | some v =>
        have nonzero : v ≠ 0 := fun none => zero (none ▸ value)
        obtain ⟨digits, e, significant, least, most, text, near⟩ := exists_digits value nonzero
        have limits : Numeral.exponentLimit = 65536 := rfl
        obtain ⟨size, exact, read⟩ := parse?_digitsText (signOf v) significant.nonempty
          significant.digits (e := e) (by omega)
        rw [textNumber, text, read]
        simp only [Numeral.value, Decimal.toFloat_eq, exact, ← near, signOf]
        by_cases negative : v < 0
        · simp only [negative, if_true, SignMark.isMinus]
          exact neg_neg_eq x
        · simp only [negative, if_false, SignMark.isMinus]
          rfl

/-- Digits laid out for scripts are read as exactly the number they stand for, and have an exponent
when the point is far from them.  The text of a double has digits that it is nearest to, and so it
reads back as the double and no other number has it. -/
theorem numberText_reads_back :
    (∀ (sign : SignMark) (digits : List Char) (e : ℤ), digits ≠ [] → AreDigits digits →
      e.natAbs < 10 * Numeral.exponentLimit →
      (∃ size : Decimal, size.value = scientific digits e ∧
        Numeral.parse? (trimBlanks (sign.text ++ Layout.script.digitsText digits (e + 1))) =
          some (.decimal sign.isMinus size)) ∧
      ('e' ∈ Layout.script.digitsText digits (e + 1) ↔ 21 ≤ e ∨ e < -6)) ∧
    (∀ (x : Float) (v : ℚ), exactValue? x = some v → v ≠ 0 →
      ∃ digits e, Significant digits ∧ -324 ≤ e ∧ e ≤ 308 ∧
        (numberText x).toList = (signOf v).text ++ Layout.script.digitsText digits (e + 1) ∧
        IsNearest (scientific digits e) (if v < 0 then -x else x)) ∧
    (∀ x, textNumber (numberText x) = if exactValue? x = some 0 then 0 else x) ∧
    ∀ x y, numberText x = numberText y →
      x = y ∨ exactValue? x = some 0 ∧ exactValue? y = some 0 := by
  refine ⟨?_, ?_, textNumber_numberText, ?_⟩
  · intro sign digits e some h range
    obtain ⟨-, -, -, -, -, -, -, far⟩ := exists_spelling some h sign e
    exact ⟨parse?_digitsText sign some h range, far⟩
  · intro x v value nonzero
    obtain ⟨digits, e, significant, least, most, text, near⟩ := exists_digits value nonzero
    refine ⟨digits, e, significant, least, most, text, ?_⟩
    rw [near]
    exact isNearest_nearest (scientific_nonneg digits e)
  · intro x y same
    have first := textNumber_numberText x
    rw [same, textNumber_numberText y] at first
    have none : exactValue? 0 = some 0 := rfl
    split_ifs at first with zero' zero zero
    · exact .inr ⟨zero, zero'⟩
    · rw [← first] at zero
      exact absurd none zero
    · rw [first] at zero'
      exact absurd none zero'
    · exact .inl first.symm

theorem numberText_reads_back_edge :
    (∃ size : Decimal, size.value = scientific ['1', '5'] 21 ∧
      Numeral.parse? (trimBlanks (SignMark.minus.text ++ Layout.script.digitsText ['1', '5'] 22)) =
        some (.decimal true size)) ∧
    'e' ∈ Layout.script.digitsText ['1', '5'] 22 ∧ 'e' ∉ Layout.script.digitsText ['1', '5'] 21 ∧
    (∃ digits e, Significant digits ∧ -324 ≤ e ∧ e ≤ 308 ∧
      (numberText (Float.ofNat 15)).toList = Layout.script.digitsText digits (e + 1) ∧
      IsNearest (scientific digits e) (Float.ofNat 15)) ∧
    numberText 0 = numberText (-0) ∧
      ((0 : Float) = -0 ∨ exactValue? 0 = some 0 ∧ exactValue? (-0) = some 0) := by
  obtain ⟨laid, made, -, apart⟩ := numberText_reads_back
  have digits : AreDigits ['1', '5'] := by simp [AreDigits]
  have large := laid .minus ['1', '5'] 21 (by decide) digits (by decide)
  have whole := laid .none ['1', '5'] 20 (by decide) digits (by decide)
  have fifteen := made (Float.ofNat 15) 15 (exactValue?_ofNat (by decide)) (by norm_num)
  have unsigned : ¬(15 : ℚ) < 0 := by norm_num
  simp only [signOf, unsigned, if_false, SignMark.text, List.nil_append] at fifteen
  have zeros : numberText 0 = numberText (-0) := by decide +kernel
  exact ⟨large.1, large.2.mpr (by decide), fun mem => absurd (whole.2.mp mem) (by decide), fifteen,
    zeros, apart 0 (-0) zeros⟩

end ScriptTree
