import Mathlib
import ScriptTree.Proofs.Decimals
import ScriptTree.Proofs.Spellings

/-!
# What numerals stand for

A text is a number when it is spelled like one between white space (`Trimmed`).  A decimal numeral
stands for the nearest double.

The digits of a radix are added up in doubles.  This is exact until `2 ^ 53` is reached, and a digit
that follows is too small to change the double (`nearest_step`), so it counts as zero (`keptValue`).
The nearest double of what is left need not be that of all the digits, but it is when the digits
stand for a double (`keptValue_eq`).

An exponent takes no more digits once it has reached a limit.  Only a numeral with about as many
digits as the limit could tell (`nearest_decimalSize`).
-/

namespace ScriptTree

open Float.Model Float.Model.UnpackedFloat

/-! ## White space -/

/-- `t` is the text without the white space at its two ends. -/
def Trimmed (cs t : List Char) : Prop :=
  ∃ left right, cs = left ++ t ++ right ∧ (∀ c ∈ left, isBlank c = true) ∧
    (∀ c ∈ right, isBlank c = true) ∧ (∀ c ∈ t.head?, isBlank c = false) ∧
      ∀ c ∈ t.getLast?, isBlank c = false

theorem dropWhile_of_head? {p : Char → Bool} {cs : List Char} (h : ∀ c ∈ cs.head?, p c = false) :
    cs.dropWhile p = cs := by
  cases cs with
  | nil => rfl
  | cons c cs => simp [h c rfl]

theorem Trimmed.trimBlanks_eq {cs t : List Char} (h : Trimmed cs t) : trimBlanks cs = t := by
  obtain ⟨left, right, rfl, blank, blank', first, last⟩ := h
  rw [trimBlanks, List.append_assoc, List.dropWhile_append_of_pos blank]
  cases t with
  | nil =>
      have all : right.dropWhile isBlank = [] := List.dropWhile_eq_nil_iff.mpr blank'
      simp [all]
  | cons c cs =>
      have kept : ((c :: cs) ++ right).dropWhile isBlank = (c :: cs) ++ right := by
        simp [first c rfl]
      have blank'' : ∀ c ∈ right.reverse, isBlank c = true := by simpa using blank'
      rw [kept, List.reverse_append, List.dropWhile_append_of_pos blank'',
        dropWhile_of_head? (List.head?_reverse ▸ last), List.reverse_reverse]

theorem head?_dropWhile (p : Char → Bool) (cs : List Char) :
    ∀ c ∈ (cs.dropWhile p).head?, p c = false := by
  intro c mem
  have stop := List.head?_dropWhile_not p cs
  rw [Option.mem_def.mp mem] at stop
  exact stop

theorem trimmed_trimBlanks (cs : List Char) : Trimmed cs (trimBlanks cs) := by
  obtain ⟨rest, same⟩ : ∃ rest, rest = cs.dropWhile isBlank := ⟨_, rfl⟩
  have split : rest = trimBlanks cs ++ (rest.reverse.takeWhile isBlank).reverse := by
    rw [trimBlanks, ← same, ← List.reverse_append, List.takeWhile_append_dropWhile,
      List.reverse_reverse]
  refine ⟨cs.takeWhile isBlank, (rest.reverse.takeWhile isBlank).reverse, ?_, ?_, ?_, ?_, ?_⟩
  · rw [List.append_assoc, ← split, same, List.takeWhile_append_dropWhile]
  · exact fun c mem => List.mem_takeWhile_imp mem
  · exact fun c mem => List.mem_takeWhile_imp (List.mem_reverse.mp mem)
  · intro c mem
    refine head?_dropWhile isBlank cs c ?_
    rw [← same, split]
    exact List.mem_head?_append_of_mem_head? mem
  · intro c mem
    refine head?_dropWhile isBlank (cs.dropWhile isBlank).reverse c ?_
    rw [← List.getLast?_reverse]
    exact mem

/-! ## Digits of a radix added up in doubles -/

theorem ofNat_eq_nearest (n : ℕ) : Float.ofNat n = nearest n := by
  have scientific : Float.ofNat n = Float.ofScientific n false 0 := rfl
  rw [scientific, ofScientific_eq]
  simp

section Large

variable {a : ℕ} {e : ℤ} {k d : ℕ}

/-- Less than half a unit above a double, the double is nearest. -/
theorem nearest_of_remainder (h : IsDouble a e) (pos : 0 < a) {v : ℚ} (nonneg : 0 ≤ v)
    (less : v < 2 ^ (e - 1)) : nearest (a * 2 ^ e + v) = double a e := by
  have quarter : (2 : ℚ) ^ e = 4 * 2 ^ (e - 2) := by
    rw [zpow_sub₀ two_ne_zero]
    norm_num
    ring
  have half : (2 : ℚ) ^ (e - 1) = 2 * 2 ^ (e - 2) := by
    rw [← zpow_one_add₀ two_ne_zero]
    congr 1
    ring
  have unit : (0 : ℚ) < 2 ^ (e - 2) := by positivity
  have reach : (1 : ℚ) ≤ reachBelow a e := by
    rw [reachBelow]
    split_ifs <;> norm_num
  rw [half] at less
  have low : (4 * a - reachBelow a e) * 2 ^ (e - 2) < a * 2 ^ e + v := by
    rw [quarter]
    nlinarith
  have high : a * 2 ^ e + v < (4 * a + 2) * 2 ^ (e - 2) := by
    rw [quarter]
    nlinarith
  rw [nearest, nearestUnpacked_of_range h pos .positive low.le high.le (.inr ⟨low, high⟩), double,
    carried, dif_pos pos, if_pos h.small]

theorem remainder_lt (least : 1 ≤ e) (digit : d < 2 ^ k) : (d : ℚ) < 2 ^ (e + k - 1) :=
  calc (d : ℚ) < 2 ^ (k : ℤ) := by exact_mod_cast digit
    _ ≤ 2 ^ (e + k - 1) := zpow_le_zpow_right₀ one_le_two (by omega)

/-- To a double of 53 bits before the point and more, a digit adds nothing. -/
theorem double_step (low : 2 ^ 52 ≤ a) (high : a < 2 ^ 53) (least : 1 ≤ e) (few : k ≤ 4)
    (digit : d < 2 ^ k) : double a e * nearest (2 ^ k : ℕ) + nearest d = double a (e + k) := by
  have pos : 0 < a := by omega
  have small : 2 ^ k ≤ 2 ^ 4 := Nat.pow_le_pow_right two_pos few
  have factor : Representable (2 ^ k : ℕ) := representable_natCast (by omega)
  have summand : Representable d := representable_natCast (by omega)
  by_cases finite : e < 972
  · have first : IsDouble a e := ⟨high, by omega, finite, fun _ => low⟩
    have product : (a * 2 ^ e * (2 ^ k : ℕ) : ℚ) = a * 2 ^ (e + k) := by
      rw [zpow_add₀ two_ne_zero, zpow_natCast]
      push_cast
      ring
    rw [first.double_eq pos, nearest_mul ⟨a, e, first, rfl⟩ factor, product]
    by_cases finite' : e + k < 972
    · have second : IsDouble a (e + k) := ⟨high, by omega, finite', fun _ => low⟩
      rw [nearest_add ⟨a, _, second, rfl⟩ summand]
      exact nearest_of_remainder second pos (by positivity) (remainder_lt least digit)
    · have large : (2 : ℚ) ^ (1024 : ℤ) ≤ a * 2 ^ (e + k) := by
        have low' : (2 : ℚ) ^ (52 : ℤ) ≤ a := by exact_mod_cast low
        calc (2 : ℚ) ^ (1024 : ℤ) ≤ 2 ^ (52 + (e + k)) :=
              zpow_le_zpow_right₀ one_le_two (by omega)
          _ = 2 ^ (52 : ℤ) * 2 ^ (e + k) := zpow_add₀ two_ne_zero _ _
          _ ≤ a * 2 ^ (e + k) := by gcongr
      rw [nearest_of_large large, infinity_add summand, double_overflow pos (by omega)]
  · rw [double_overflow pos (by omega), infinity_mul factor (by positivity), infinity_add summand,
      double_overflow pos (by omega)]

/-- Once 53 bits stand before the point, the next digit of a radix counts as zero. -/
theorem nearest_step {v : ℚ} (large : 2 ^ 53 ≤ v) (few : k ≤ 4) (digit : d < 2 ^ k) :
    nearest v * nearest (2 ^ k : ℕ) + nearest d = nearest (v * 2 ^ k) := by
  have pos : 0 < v := lt_of_lt_of_le (by positivity) large
  have unit : 1 ≤ unitExponent v := by
    have : 53 ≤ Int.log 2 v := by
      rw [← Int.zpow_le_iff_le_log one_lt_two pos]
      exact_mod_cast large
    rw [unitExponent]
    omega
  have scaled : unitExponent (v * 2 ^ k) = unitExponent v + k := by
    have low := unit_le pos (by omega)
    have high := lt_unit v
    refine unitExponent_eq (by positivity) ?_ (by omega) fun _ => ?_
    · rw [show unitExponent v + k + 53 = unitExponent v + 53 + k by ring, zpow_add₀ two_ne_zero,
        zpow_natCast]
      gcongr
    · rw [show unitExponent v + k + 52 = unitExponent v + 52 + k by ring, zpow_add₀ two_ne_zero,
        zpow_natCast]
      gcongr
  have same : v * 2 ^ k / 2 ^ (unitExponent v + k) = v / 2 ^ unitExponent v := by
    rw [zpow_add₀ two_ne_zero, zpow_natCast]
    field_simp
  have first : nearest v = double (nearestNat (v / 2 ^ unitExponent v)) (unitExponent v) := rfl
  have second : nearest (v * 2 ^ k) =
      double (nearestNat (v / 2 ^ unitExponent v)) (unitExponent v + k) := by
    rw [← same, ← scaled]
    rfl
  have low := le_nearestNat pos (by omega)
  have high := nearestNat_le pos
  rw [first, second]
  generalize nearestNat (v / 2 ^ unitExponent v) = n at low high
  rcases high.lt_or_eq with less | rfl
  · exact double_step low less unit few digit
  · -- the carry comes before the step or after it
    have carry (e : ℤ) : double (2 ^ 53) e = double (2 ^ 52) (e + 1) := rfl
    rw [carry, carry, add_right_comm]
    exact double_step (le_refl _) (by decide) (by omega) few digit

end Large

/-- The value of digits in a radix. -/
def radixValue (r : Radix) (digits : List Char) : ℕ :=
  digits.foldl (fun n c => r.base * n + digitOf c) 0

/-- The value of digits in a radix, where those behind the first `2 ^ 53` count as zeros. -/
def keptValue (r : Radix) (digits : List Char) : ℕ :=
  digits.foldl (fun n c => if n < 2 ^ 53 then r.base * n + digitOf c else r.base * n) 0

theorem Radix.bits_le (r : Radix) : r.bits ≤ 4 := by cases r <;> decide

/-- One digit of a radix. -/
theorem radix_step (r : Radix) {d : ℕ} (digit : d < r.base) (n : ℕ) :
    nearest n * Float.ofNat r.base + Float.ofNat d =
      nearest (if n < 2 ^ 53 then r.base * n + d else r.base * n : ℕ) := by
  have few := r.bits_le
  have small : r.base ≤ 16 := r.base_le
  rw [ofNat_eq_nearest, ofNat_eq_nearest]
  split_ifs with exact
  · have shifted : ((n * r.base : ℕ) : ℚ) = n * 2 ^ (r.bits : ℤ) := by
      rw [Radix.base, zpow_natCast]
      push_cast
      rfl
    have product : Representable (n * r.base : ℕ) := by
      rw [shifted]
      exact representable_of_lt exact (by omega) (by omega)
    rw [nearest_mul (representable_natCast exact) (representable_natCast (by omega)), ← Nat.cast_mul,
      nearest_add product (representable_natCast (by omega)), mul_comm r.base]
    push_cast
    rfl
  · have large : (2 ^ 53 : ℚ) ≤ n := by exact_mod_cast not_lt.mp exact
    rw [Radix.base, nearest_step large few digit, mul_comm]
    push_cast
    rfl

/-- Digits of a radix give the double nearest to their value, where those behind the first `2 ^ 53`
count as zeros. -/
theorem radix_value (r : Radix) {digits : List Char} (h : ∀ c ∈ digits, digitOf c < r.base) :
    (Numeral.radix r.base (digits.map digitOf)).value = nearest (keptValue r digits) := by
  have start : (0 : Float) = nearest (0 : ℕ) := by
    rw [Nat.cast_zero, nearest, nearestUnpacked_zero]
    rfl
  simp only [Numeral.value, keptValue, start, List.foldl_map]
  generalize 0 = n
  induction digits generalizing n with
  | nil => rfl
  | cons c digits ih =>
      rw [List.foldl_cons, List.foldl_cons, radix_step r (h c List.mem_cons_self)]
      exact ih (fun c mem => h c (List.mem_cons_of_mem _ mem)) _

/-- Digits that count as zeros shift what stands before them. -/
theorem foldl_kept (r : Radix) (digits : List Char) {n : ℕ} (large : 2 ^ 53 ≤ n) :
    digits.foldl (fun n c => if n < 2 ^ 53 then r.base * n + digitOf c else r.base * n) n =
      n * r.base ^ digits.length := by
  induction digits generalizing n with
  | nil => simp
  | cons c digits ih =>
      have larger : 2 ^ 53 ≤ r.base * n := le_mul_of_one_le_of_le (Nat.one_le_two_pow) large
      rw [List.foldl_cons, if_neg (by omega), ih larger, List.length_cons, pow_succ]
      ring

/-- Digits add less than one unit of what stands before them. -/
theorem foldl_digits (r : Radix) {digits : List Char} (h : ∀ c ∈ digits, digitOf c < r.base) (n : ℕ) :
    ∃ t < r.base ^ digits.length, digits.foldl (fun n c => r.base * n + digitOf c) n =
      n * r.base ^ digits.length + t := by
  induction digits generalizing n with
  | nil => exact ⟨0, by simp, by simp⟩
  | cons c digits ih =>
      obtain ⟨t, less, same⟩ := ih (fun c mem => h c (List.mem_cons_of_mem _ mem))
        (r.base * n + digitOf c)
      have digit := h c List.mem_cons_self
      refine ⟨digitOf c * r.base ^ digits.length + t, ?_, ?_⟩
      · rw [List.length_cons, pow_succ, mul_comm (_ ^ _)]
        calc digitOf c * r.base ^ digits.length + t
            < (digitOf c + 1) * r.base ^ digits.length := by
              rw [add_mul, one_mul]
              omega
          _ ≤ r.base * r.base ^ digits.length := Nat.mul_le_mul_right _ digit
      · rw [List.foldl_cons, same, List.length_cons, pow_succ]
        ring

/-- A double that has bits enough before the unit has nothing behind it. -/
theorem eq_zero_of_representable {n j t : ℕ} (large : 2 ^ 53 ≤ n) (less : t < 2 ^ j)
    (h : Representable (n * 2 ^ j + t : ℕ)) : t = 0 := by
  obtain ⟨a, e, double, same⟩ := h
  have small : (a : ℚ) < 2 ^ (53 : ℤ) := by exact_mod_cast double.small
  have exponent : (j : ℤ) < e := by
    by_contra le
    have : ((n * 2 ^ j + t : ℕ) : ℚ) < 2 ^ (53 : ℤ) * 2 ^ (j : ℤ) :=
      calc ((n * 2 ^ j + t : ℕ) : ℚ) = a * 2 ^ e := same
        _ < 2 ^ (53 : ℤ) * 2 ^ e := by gcongr
        _ ≤ 2 ^ (53 : ℤ) * 2 ^ (j : ℤ) := by
          gcongr
          · exact one_le_two
          · omega
    have : n * 2 ^ j + t < 2 ^ 53 * 2 ^ j := by exact_mod_cast this
    have : 2 ^ 53 * 2 ^ j ≤ n * 2 ^ j := Nat.mul_le_mul_right _ large
    omega
  obtain ⟨i, rfl⟩ : ∃ i : ℕ, e = j + i := ⟨(e - j).toNat, by omega⟩
  have whole : n * 2 ^ j + t = a * 2 ^ i * 2 ^ j := by
    have : ((n * 2 ^ j + t : ℕ) : ℚ) = (a * 2 ^ i * 2 ^ j : ℕ) := by
      rw [same, zpow_add₀ two_ne_zero, zpow_natCast, zpow_natCast]
      push_cast
      ring
    exact_mod_cast this
  have divides : 2 ^ j ∣ t :=
    (Nat.dvd_add_right (Dvd.intro_left n rfl)).mp (whole ▸ Dvd.intro_left _ rfl)
  exact Nat.eq_zero_of_dvd_of_lt divides less

/-- A numeral of a radix that stands for a double keeps all of its value. -/
theorem keptValue_eq (r : Radix) {digits : List Char} (h : ∀ c ∈ digits, digitOf c < r.base)
    (exact : Representable (radixValue r digits)) : keptValue r digits = radixValue r digits := by
  rw [radixValue] at exact
  rw [keptValue, radixValue]
  generalize 0 = n at exact
  induction digits generalizing n with
  | nil => rfl
  | cons c digits ih =>
      by_cases small : n < 2 ^ 53
      · rw [List.foldl_cons, List.foldl_cons, if_pos small]
        exact ih (fun c mem => h c (List.mem_cons_of_mem _ mem)) _ exact
      · obtain ⟨t, less, same⟩ := foldl_digits r h n
        have power : r.base ^ (c :: digits).length = 2 ^ (r.bits * (c :: digits).length) :=
          (pow_mul 2 r.bits _).symm
        rw [foldl_kept r _ (not_lt.mp small), same]
        rw [same, power] at exact
        rw [power] at less
        rw [eq_zero_of_representable (not_lt.mp small) less exact, add_zero]

/-! ## Decimal numerals -/

theorem foldl_digitsValue (digits : List Char) (n : ℕ) :
    digits.foldl (fun value c => 10 * value + (c.toNat - '0'.toNat)) n =
      n * 10 ^ digits.length + digitsValue digits := by
  rw [digitsValue]
  induction digits generalizing n with
  | nil => simp
  | cons c digits ih =>
      rw [List.foldl_cons, List.foldl_cons, ih, ih (10 * 0 + _), List.length_cons, pow_succ]
      ring

theorem digitsValue_append (first second : List Char) :
    digitsValue (first ++ second) = digitsValue first * 10 ^ second.length + digitsValue second := by
  rw [digitsValue, List.foldl_append, foldl_digitsValue]
  rfl

theorem digitsValue_lt {digits : List Char} (h : AreDigits digits) :
    digitsValue digits < 10 ^ digits.length := by
  induction digits with
  | nil => decide
  | cons c digits ih =>
      have digit : c.toNat - '0'.toNat < 10 := by
        have bounds := toNat_of_isDigit (h c List.mem_cons_self)
        have zero : '0'.toNat = 48 := rfl
        omega
      have rest := ih fun c mem => h c (List.mem_cons_of_mem _ mem)
      have first : digitsValue [c] = c.toNat - '0'.toNat := by simp [digitsValue]
      rw [← List.singleton_append, digitsValue_append, first, List.length_append, pow_add]
      calc (c.toNat - '0'.toNat) * 10 ^ digits.length + digitsValue digits
          < (c.toNat - '0'.toNat + 1) * 10 ^ digits.length := by
            rw [add_mul, one_mul]
            omega
        _ ≤ 10 ^ [c].length * 10 ^ digits.length := Nat.mul_le_mul_right _ digit

/-- The size of a decimal numeral, where `size` says what the digits of the exponent stand for. -/
def decimalSize (size : List Char → ℕ) (whole : List Char) (fraction : Option (List Char))
    (exponent : Option ExponentPart) : ℚ :=
  (digitsValue whole + digitsValue (fraction.getD []) / 10 ^ (fraction.getD []).length) *
    10 ^ exponentOf size exponent

theorem decimalSize_nonneg (size : List Char → ℕ) (whole : List Char) (fraction : Option (List Char))
    (exponent : Option ExponentPart) : 0 ≤ decimalSize size whole fraction exponent := by
  rw [decimalSize]
  positivity

theorem decimalSize_eq (size : List Char → ℕ) (whole : List Char) (fraction : Option (List Char))
    (exponent : Option ExponentPart) : decimalSize size whole fraction exponent =
      Decimal.value ⟨digitsValue (whole ++ fraction.getD []),
        exponentOf size exponent - (fraction.getD []).length⟩ := by
  rw [decimalSize, Decimal.value, digitsValue_append, zpow_sub₀ (by norm_num), zpow_natCast]
  push_cast
  field_simp

/-- The digits of an exponent count as they should, unless they go past the limit. -/
theorem exponentSize_cases (digits : List Char) :
    Numeral.exponentSize digits = digitsValue digits ∨
      Numeral.exponentLimit ≤ Numeral.exponentSize digits ∧
        10 * Numeral.exponentLimit ≤ digitsValue digits := by
  have full (digits : List Char) {n : ℕ} (reached : ¬n < Numeral.exponentLimit) :
      digits.foldl (fun size c => if size < Numeral.exponentLimit then
        10 * size + (c.toNat - '0'.toNat) else size) n = n := by
    induction digits with
    | nil => rfl
    | cons c digits ih => rw [List.foldl_cons, if_neg reached, ih]
  rw [Numeral.exponentSize, digitsValue]
  generalize 0 = n
  induction digits generalizing n with
  | nil => exact .inl rfl
  | cons c digits ih =>
      rw [List.foldl_cons, List.foldl_cons]
      by_cases small : n < Numeral.exponentLimit
      · rw [if_pos small]
        exact ih _
      · right
        rw [if_neg small, full digits small, foldl_digitsValue]
        have : 1 ≤ 10 ^ digits.length := Nat.one_le_pow _ _ (by decide)
        constructor
        · omega
        · nlinarith

theorem nearest_of_ten_pow_le {v : ℚ} (large : 10 ^ (400 : ℤ) ≤ v) : nearest v = infinity := by
  refine nearest_of_large (le_trans ?_ ((two_pow_le_ten_pow 400).trans large))
  exact zpow_le_zpow_right₀ one_le_two (by decide)

theorem nearest_of_lt_ten_pow {v : ℚ} (nonneg : 0 ≤ v) (small : v < 10 ^ (-400 : ℤ)) :
    nearest v = 0 := by
  refine nearest_of_small nonneg (small.trans_le ?_)
  have bound := inv_anti₀ (by positivity) (two_pow_le_ten_pow 400)
  rw [← zpow_neg, ← zpow_neg] at bound
  exact bound.trans (zpow_le_zpow_right₀ one_le_two (by decide))

/-- An exponent that is far past the number of digits gives zero or infinity, whatever it is. -/
theorem nearest_far {d : ℕ} (some : d ≠ 0) {w f : ℕ} (short : d < 10 ^ (w + f)) {e : ℕ}
    (far : w + f + 400 ≤ e) :
    nearest (Decimal.value ⟨d, (e : ℤ) - f⟩) = infinity ∧
      nearest (Decimal.value ⟨d, -(e : ℤ) - f⟩) = 0 := by
  constructor
  · apply nearest_of_ten_pow_le
    have one : (1 : ℚ) ≤ d := by exact_mod_cast Nat.one_le_iff_ne_zero.mpr some
    calc (10 : ℚ) ^ (400 : ℤ) ≤ 10 ^ ((e : ℤ) - f) := zpow_le_zpow_right₀ (by norm_num) (by omega)
      _ ≤ d * 10 ^ ((e : ℤ) - f) := le_mul_of_one_le_left (by positivity) one
  · apply nearest_of_lt_ten_pow (by rw [Decimal.value]; positivity)
    have most : (d : ℚ) < 10 ^ ((w : ℤ) + f) := by exact_mod_cast short
    calc d * 10 ^ (-(e : ℤ) - f) < 10 ^ ((w : ℤ) + f) * (10 : ℚ) ^ (-(e : ℤ) - f) := by gcongr
      _ = 10 ^ ((w : ℤ) + f + (-(e : ℤ) - f)) := (zpow_add₀ (by norm_num) _ _).symm
      _ ≤ 10 ^ (-400 : ℤ) := zpow_le_zpow_right₀ (by norm_num) (by omega)

/-- The exponent of a numeral with at most 65000 digits is read as if all of its digits counted. -/
theorem nearest_decimalSize {whole : List Char} {fraction : Option (List Char)}
    {exponent : Option ExponentPart} (digits : AreDigits whole)
    (digits' : AreDigits (fraction.getD []))
    (regular : whole.length + (fraction.getD []).length ≤ 65000 ∨
      ∀ part ∈ exponent, digitsValue part.digits < 10 * Numeral.exponentLimit) :
    nearest (decimalSize Numeral.exponentSize whole fraction exponent) =
      nearest (decimalSize digitsValue whole fraction exponent) := by
  cases exponent with
  | none => rfl
  | some part =>
      rcases exponentSize_cases part.digits with same | ⟨limit, limit'⟩
      · rw [decimalSize, decimalSize, exponentOf, exponentOf, same]
      · have few : whole.length + (fraction.getD []).length ≤ 65000 := by
          refine regular.resolve_right fun small => ?_
          exact absurd (small part rfl) (by omega)
        have short := digitsValue_lt (digits.append digits')
        rw [List.length_append] at short
        rw [decimalSize_eq, decimalSize_eq, exponentOf, exponentOf]
        by_cases zero : digitsValue (whole ++ fraction.getD []) = 0
        · simp [Decimal.value, zero]
        · have limits : Numeral.exponentLimit = 65536 := rfl
          have read := nearest_far zero short (e := Numeral.exponentSize part.digits) (by omega)
          have spelled := nearest_far zero short (e := digitsValue part.digits) (by omega)
          split_ifs
          · rw [read.2, spelled.2]
          · rw [read.1, spelled.1]

/-! ## Texts -/

theorem isNaN_eq (x : Float) : x.isNaN = x.toModel.unpack.isNaN := rfl

theorem IsNearest.isNaN_eq_false {v : ℚ} {x : Float} (h : IsNearest v x) : x.isNaN = false := by
  obtain ⟨a, e, grid, rfl, -⟩ := h
  rcases grid with finite | ⟨rfl, rfl⟩
  · rcases Nat.eq_zero_or_pos a with rfl | pos
    · rw [double, carried, dif_neg (lt_irrefl 0)]
      rfl
    · rw [finite.double_eq pos, isNaN_eq, finite.unpack_nearest pos]
      rfl
  · rw [double_overflow (by decide) (le_refl _)]
    rfl

theorem isNaN_neg (x : Float) : (-x).isNaN = x.isNaN := by
  rw [isNaN_eq, isNaN_eq, unpack_neg]
  cases x.toModel.unpack <;> rfl

namespace Spelling

/-- The double a spelling stands for, where `whole` says what the digits of a radix stand for and
`size` what those of an exponent do. -/
def StandsFor (whole : Radix → List Char → ℕ) (size : List Char → ℕ) : Spelling → Float → Prop
  | .empty, x => x = 0
  | .infinity sign, x => x = if sign.isMinus then -ScriptTree.infinity else ScriptTree.infinity
  | .radix r _ digits, x => IsNearest (whole r digits) x
  | .decimal sign digits fraction exponent, x => ∃ y, x = (if sign.isMinus then -y else y) ∧
      IsNearest (decimalSize size digits fraction exponent) y

/-- Spellings that nothing is lost of: the number in a radix is a double, and a decimal numeral has
at most 65000 digits or its exponent stays below ten times the limit. -/
def Regular : Spelling → Prop
  | .empty | .infinity _ => True
  | .radix r _ digits => Representable (radixValue r digits)
  | .decimal _ whole fraction exponent => whole.length + (fraction.getD []).length ≤ 65000 ∨
      ∀ part ∈ exponent, digitsValue part.digits < 10 * Numeral.exponentLimit

theorem StandsFor.isNaN_eq_false {whole : Radix → List Char → ℕ} {size : List Char → ℕ}
    {sp : Spelling} {x : Float} (h : sp.StandsFor whole size x) : x.isNaN = false := by
  cases sp with
  | empty =>
      cases h
      rfl
  | infinity sign =>
      cases h
      cases sign <;> rfl
  | radix r letter digits => exact IsNearest.isNaN_eq_false h
  | decimal sign digits fraction exponent =>
      obtain ⟨y, rfl, nearest⟩ := h
      split_ifs
      · rw [isNaN_neg]
        exact nearest.isNaN_eq_false
      · exact nearest.isNaN_eq_false

variable {sp : Spelling} (formed : sp.WellFormed)
include formed

/-- The digits of a radix stop to count at `2 ^ 53`, and those of an exponent at the limit. -/
theorem standsFor_value : sp.StandsFor keptValue Numeral.exponentSize sp.numeral.value := by
  cases sp with
  | empty => rfl
  | infinity sign => cases sign <;> rfl
  | radix r letter digits =>
      obtain ⟨-, -, digits'⟩ := formed
      rw [numeral, radix_value r digits']
      exact isNearest_nearest (Nat.cast_nonneg _)
  | decimal sign whole fraction exponent =>
      refine ⟨_, rfl, ?_⟩
      rw [Decimal.toFloat_eq, Spelling.size, ← decimalSize_eq]
      exact isNearest_nearest (decimalSize_nonneg _ _ _ _)

theorem standsFor_of_regular (regular : sp.Regular) :
    sp.StandsFor radixValue digitsValue sp.numeral.value := by
  cases sp with
  | empty => rfl
  | infinity sign => cases sign <;> rfl
  | radix r letter digits =>
      obtain ⟨-, -, digits'⟩ := formed
      rw [numeral, radix_value r digits', keptValue_eq r digits' regular]
      exact isNearest_nearest (Nat.cast_nonneg _)
  | decimal sign whole fraction exponent =>
      obtain ⟨digits, digits', -, -⟩ := formed
      refine ⟨_, rfl, ?_⟩
      rw [Decimal.toFloat_eq, Spelling.size, ← decimalSize_eq,
        nearest_decimalSize digits digits' regular]
      exact isNearest_nearest (decimalSize_nonneg _ _ _ _)

theorem textNumber_eq {s : String} (trimmed : Trimmed s.toList sp.text) :
    textNumber s = sp.numeral.value := by
  rw [textNumber, trimmed.trimBlanks_eq, parse?_text formed]

end Spelling

/-- A text is a number exactly when it is spelled like one between white space.  It then stands for
the nearest double, but the digits of a radix stop to count at `2 ^ 53` and those of an exponent at
its limit.  On regular spellings all digits count. -/
theorem textNumber_grammar (s : String) :
    ∃ t, Trimmed s.toList t ∧
      ((textNumber s).isNaN = false ↔ ∃ sp : Spelling, sp.WellFormed ∧ sp.text = t) ∧
      ∀ sp : Spelling, sp.WellFormed → sp.text = t →
        sp.StandsFor keptValue Numeral.exponentSize (textNumber s) ∧
          (sp.Regular → sp.StandsFor radixValue digitsValue (textNumber s)) := by
  have read : ∀ sp : Spelling, sp.WellFormed → sp.text = trimBlanks s.toList →
      textNumber s = sp.numeral.value :=
    fun sp formed same => Spelling.textNumber_eq formed (same ▸ trimmed_trimBlanks s.toList)
  refine ⟨_, trimmed_trimBlanks s.toList, ⟨fun number => ?_, ?_⟩, fun sp formed same => ?_⟩
  · cases parsed : Numeral.parse? (trimBlanks s.toList) with
    | none =>
        have none : textNumber s = notANumber := by rw [textNumber, parsed]
        rw [none] at number
        cases number
    | some n =>
        obtain ⟨sp, formed, same, -⟩ := parse?_eq_some_iff.mp parsed
        exact ⟨sp, formed, same⟩
  · rintro ⟨sp, formed, same⟩
    rw [read sp formed same]
    exact (Spelling.standsFor_value formed).isNaN_eq_false
  · rw [read sp formed same]
    exact ⟨Spelling.standsFor_value formed, Spelling.standsFor_of_regular formed⟩

theorem textNumber_grammar_fraction :
    let sp : Spelling := .decimal .minus ['1'] (some ['2', '5']) (some ⟨'E', .plus, ['2']⟩)
    sp.WellFormed ∧ Trimmed "\t-1.25E+2\n".toList sp.text ∧ sp.Regular ∧
      sp.StandsFor radixValue digitsValue (textNumber "\t-1.25E+2\n") := by
  intro sp
  have formed : sp.WellFormed := by simp [sp, Spelling.WellFormed, AreDigits, ExponentPart.WellFormed]
  have trimmed : Trimmed "\t-1.25E+2\n".toList sp.text :=
    ⟨['\t'], ['\n'], by simp [sp, Spelling.text, Spelling.pointText, Spelling.exponentText,
      ExponentPart.text, SignMark.text], by simp [isBlank, blankRanges], by simp [isBlank, blankRanges],
      by rintro c ⟨⟩; rfl, by rintro c ⟨⟩; rfl⟩
  have regular : sp.Regular := .inl (by decide)
  obtain ⟨t, trimmed', -, values⟩ := textNumber_grammar "\t-1.25E+2\n"
  have same : sp.text = t := trimmed.trimBlanks_eq.symm.trans trimmed'.trimBlanks_eq
  exact ⟨formed, trimmed, regular, (values sp formed same).2 regular⟩

/-- The last digit is lost before the tie is broken. -/
theorem hexadecimal_rounded_twice :
    let sp : Spelling := .radix .hexadecimal 'x' "200000000000011".toList
    sp.WellFormed ∧ Trimmed "0x200000000000011".toList sp.text ∧
      ¬sp.StandsFor radixValue digitsValue (textNumber "0x200000000000011") := by
  intro sp
  have formed : sp.WellFormed := ⟨by decide, by simp, by simp; decide⟩
  have trimmed : Trimmed "0x200000000000011".toList sp.text :=
    ⟨[], [], by simp [sp, Spelling.text], by simp, by simp, by rintro c ⟨⟩; rfl,
      by simp [sp, Spelling.text]; rfl⟩
  have kept : keptValue .hexadecimal "200000000000011".toList = 2 ^ 57 + 16 := by decide +kernel
  have whole : radixValue .hexadecimal "200000000000011".toList = 2 ^ 57 + 17 := by decide +kernel
  have finite : IsDouble (2 ^ 52) 5 := ⟨by decide, by decide, by decide, by decide⟩
  have finite' : IsDouble (2 ^ 52 + 1) 5 := ⟨by decide, by decide, by decide, by decide⟩
  have tie : nearest (2 ^ 57 + 16 : ℕ) = double (2 ^ 52) 5 := by
    rw [nearest, nearestUnpacked_of_range finite (by decide) _ (by norm_num [reachBelow])
      (by norm_num) (.inl (by decide)), double, carried, dif_pos (by decide), if_pos finite.small]
  refine ⟨formed, trimmed, fun standsFor => ?_⟩
  rw [Spelling.textNumber_eq formed trimmed, Spelling.numeral, radix_value _ formed.2.2, kept, tie,
    Spelling.StandsFor, whole] at standsFor
  obtain ⟨a, e, grid, same, closest⟩ := standsFor
  have size : (a * 2 ^ e : ℚ) = 2 ^ 57 := by
    have value := exactValue?_double finite
    rw [same] at value
    rcases grid with finite' | ⟨rfl, rfl⟩
    · rw [exactValue?_double finite'] at value
      rw [Option.some.inj value]
      norm_num
    · rw [double_overflow (by decide) (le_refl _)] at value
      cases value
  have nearer := closest _ _ (.inl finite') (by rw [size]; norm_num)
  rw [size] at nearer
  norm_num at nearer

end ScriptTree
