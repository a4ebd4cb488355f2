import Mathlib
import ScriptTree.Number.Numeral

/-!
# The grammar of numerals

A `Spelling` is a numeral with its parts named, and `Spelling.text` puts the parts together.  The
reader of numerals accepts exactly the texts of the well-formed spellings, and takes them apart into
the parts they were put together from (`parse?_eq_some_iff`).  For decimal numerals it asks the
reader of floating-point numbers, which reads some words besides.  None of these has only characters
of a decimal numeral, so the two steps together read decimal numerals only (`decimal?_eq_some_iff`).
-/

namespace ScriptTree

/-! ## Spellings -/

/-- An optional sign. -/
inductive SignMark where
  | none
  | plus
  | minus
deriving DecidableEq

namespace SignMark

def text : SignMark → List Char
  | .none => []
  | .plus => ['+']
  | .minus => ['-']

def isMinus : SignMark → Bool
  | .minus => true
  | _ => false

end SignMark

/-- The radices that have a mark. -/
inductive Radix where
  | hexadecimal
  | octal
  | binary
deriving DecidableEq

namespace Radix

/-- The binary digits in one digit. -/
def bits : Radix → ℕ
  | .hexadecimal => 4
  | .octal => 3
  | .binary => 1

def base (r : Radix) : ℕ := 2 ^ r.bits

/-- What may follow the zero of the mark. -/
def letters : Radix → List Char
  | .hexadecimal => ['x', 'X']
  | .octal => ['o', 'O']
  | .binary => ['b', 'B']

end Radix

/-- The value of a digit of a radix up to 16, and 16 for other characters. -/
def digitOf (c : Char) : ℕ := "0123456789abcdef".toList.idxOf c.toLower

/-- An exponent: its letter, its sign and its digits. -/
structure ExponentPart where
  letter : Char
  sign : SignMark
  digits : List Char

/-- A text that stands for a number, in its parts. -/
inductive Spelling where
  | empty
  | infinity (sign : SignMark)
  | radix (r : Radix) (letter : Char) (digits : List Char)
  /-- The fraction is what stands behind a point, if there is one. -/
  | decimal (sign : SignMark) (whole : List Char) (fraction : Option (List Char))
      (exponent : Option ExponentPart)

/-- The characters are decimal digits. -/
def AreDigits (cs : List Char) : Prop := ∀ c ∈ cs, c.isDigit

def ExponentPart.text (part : ExponentPart) : List Char :=
  part.letter :: (part.sign.text ++ part.digits)

/-- An `e` or `E`, an optional sign and at least one digit. -/
def ExponentPart.WellFormed (part : ExponentPart) : Prop :=
  part.letter ∈ ['e', 'E'] ∧ part.digits ≠ [] ∧ AreDigits part.digits

/-- The exponent, where `size` says what the digits stand for. -/
def exponentOf (size : List Char → ℕ) : Option ExponentPart → ℤ
  | none => 0
  | some part => if part.sign.isMinus then -(size part.digits) else size part.digits

namespace Spelling

/-- A point and the digits behind it. -/
def pointText : Option (List Char) → List Char
  | none => []
  | some digits => '.' :: digits

def exponentText : Option ExponentPart → List Char
  | none => []
  | some part => part.text

def text : Spelling → List Char
  | .empty => []
  | .infinity sign => sign.text ++ "Infinity".toList
  | .radix _ letter digits => '0' :: letter :: digits
  | .decimal sign whole fraction exponent =>
      sign.text ++ (whole ++ (pointText fraction ++ exponentText exponent))

/-- There is a digit before the point or behind it, and one at least in a radix numeral and in an
exponent. -/
def WellFormed : Spelling → Prop
  | .empty | .infinity _ => True
  | .radix r letter digits => letter ∈ r.letters ∧ digits ≠ [] ∧ ∀ c ∈ digits, digitOf c < r.base
  | .decimal _ whole fraction exponent =>
      AreDigits whole ∧ AreDigits (fraction.getD []) ∧ (whole ≠ [] ∨ fraction.getD [] ≠ []) ∧
        ∀ part ∈ exponent, part.WellFormed

/-- The number that the digits of a decimal spelling stand for. -/
def size (whole : List Char) (fraction : Option (List Char)) (exponent : Option ExponentPart) :
    Decimal :=
  ⟨digitsValue (whole ++ fraction.getD []),
    exponentOf Numeral.exponentSize exponent - (fraction.getD []).length⟩

/-- What the reader makes of a spelling. -/
def numeral : Spelling → Numeral
  | .empty => .empty
  | .infinity sign => .infinity sign.isMinus
  | .radix r _ digits => .radix r.base (digits.map digitOf)
  | .decimal sign whole fraction exponent => .decimal sign.isMinus (size whole fraction exponent)

end Spelling

/-! ## Digits of a radix -/

theorem Radix.base_le (r : Radix) : r.base ≤ 16 := by cases r <;> decide

theorem digitValue?_ascii (r : Radix) : ∀ n < 128, Numeral.digitValue? r.base (Char.ofNat n) =
    if digitOf (Char.ofNat n) < r.base then some (digitOf (Char.ofNat n)) else none := by
  cases r <;> decide +kernel

/-- The reader knows the digits of a radix. -/
theorem digitValue?_eq (r : Radix) (c : Char) :
    Numeral.digitValue? r.base c = if digitOf c < r.base then some (digitOf c) else none := by
  by_cases ascii : c.toNat < 128
  · have := digitValue?_ascii r c.toNat ascii
    rwa [Char.ofNat_toNat] at this
  · have above (d : Char) (small : d.toNat < 128) : ¬c ≤ d := by
      rw [Char.le_def, UInt32.le_iff_toNat_le]
      show ¬c.toNat ≤ d.toNat
      omega
    have lower : c.toLower = c := by
      rw [Char.toLower, dif_neg]
      exact fun h => above 'Z' (by decide) h.2
    have missing : c ∉ "0123456789abcdef".toList := by
      intro mem
      have small : ∀ d ∈ "0123456789abcdef".toList, d.toNat < 128 := by simp
      exact ascii (small c mem)
    have other : digitOf c = 16 := by
      rw [digitOf, lower, List.idxOf_eq_length missing]
      decide
    have bound := r.base_le
    simp only [Numeral.digitValue?, above '9' (by decide), above 'z' (by decide),
      above 'Z' (by decide), and_false, if_false, other]
    rw [if_neg (by omega), if_neg (by omega)]

theorem mapM_digitValue?_eq_some_iff (r : Radix) (cs : List Char) (ds : List ℕ) :
    cs.mapM (Numeral.digitValue? r.base) = some ds ↔
      (∀ c ∈ cs, digitOf c < r.base) ∧ cs.map digitOf = ds := by
  induction cs generalizing ds with
  | nil => simp
  | cons c cs ih =>
      rw [List.mapM_cons, digitValue?_eq]
      by_cases digit : digitOf c < r.base
      · cases ds with
        | nil => simp [digit, Option.bind_eq_some_iff]
        | cons d ds => simp [digit, Option.bind_eq_some_iff, ih, and_assoc, and_left_comm]
      · simp [digit]

theorem radix?_eq_some_iff (r : Radix) (cs : List Char) (n : Numeral) :
    Numeral.radix? r.base cs = some n ↔
      cs ≠ [] ∧ (∀ c ∈ cs, digitOf c < r.base) ∧ .radix r.base (cs.map digitOf) = n := by
  rw [Numeral.radix?]
  split_ifs with none
  · simp [none]
  · simp [none, Option.map_eq_some_iff, mapM_digitValue?_eq_some_iff, and_assoc]

/-! ## Signs and exponents -/

theorem signed_text (sign : SignMark) {cs : List Char}
    (unsigned : ∀ c ∈ cs.head?, c ≠ '+' ∧ c ≠ '-') :
    Numeral.signed (sign.text ++ cs) = (sign.isMinus, cs) := by
  cases sign with
  | plus | minus => rfl
  | none =>
      rw [SignMark.text, List.nil_append]
      fun_cases Numeral.signed cs with
      | case1 => exact absurd rfl (unsigned '-' rfl).2
      | case2 => exact absurd rfl (unsigned '+' rfl).1
      | case3 => rfl

theorem exists_signMark (cs : List Char) :
    ∃ sign : SignMark, cs = sign.text ++ (Numeral.signed cs).2 ∧
      (Numeral.signed cs).1 = sign.isMinus := by
  fun_cases Numeral.signed cs with
  | case1 cs => exact ⟨.minus, rfl, rfl⟩
  | case2 cs => exact ⟨.plus, rfl, rfl⟩
  | case3 => exact ⟨.none, rfl, rfl⟩

theorem AreDigits.append {first second : List Char} (h : AreDigits first) (h' : AreDigits second) :
    AreDigits (first ++ second) := by
  intro c mem
  exact (List.mem_append.mp mem).elim (h c) (h' c)

theorem toNat_of_isDigit {c : Char} (digit : c.isDigit = true) : 48 ≤ c.toNat ∧ c.toNat ≤ 57 := by
  simp only [Char.isDigit, Bool.and_eq_true, decide_eq_true_eq, ge_iff_le,
    UInt32.le_iff_toNat_le] at digit
  exact digit

/-- A digit is no sign. -/
theorem AreDigits.unsigned {cs : List Char} (digits : AreDigits cs) :
    ∀ c ∈ cs.head?, c ≠ '+' ∧ c ≠ '-' := by
  intro c mem
  have digit := digits c (List.mem_of_mem_head? mem)
  constructor <;> rintro rfl <;> exact absurd digit (by decide)

theorem exponent?_eq_some_iff (size : List Char → ℕ) (cs : List Char) (e : ℤ) :
    Numeral.exponent? size cs = some e ↔ ∃ exponent : Option ExponentPart,
      (∀ part ∈ exponent, part.WellFormed) ∧ Spelling.exponentText exponent = cs ∧
        exponentOf size exponent = e := by
  constructor
  · intro read
    cases cs with
    | nil =>
        cases read
        exact ⟨none, by simp, rfl, rfl⟩
    | cons c cs =>
        obtain ⟨sign, same, negative⟩ := exists_signMark cs
        simp only [Numeral.exponent?, negative] at read
        split at read
        next form =>
          obtain ⟨letter, some, digits⟩ := form
          refine ⟨.some ⟨c, sign, (Numeral.signed cs).2⟩, ?_, ?_, Option.some.inj read⟩
          · rintro part ⟨⟩
            exact ⟨by simpa using letter, some, by simpa [AreDigits] using digits⟩
          · exact congrArg (c :: ·) same.symm
        next => cases read
  · rintro ⟨exponent, formed, rfl, rfl⟩
    cases exponent with
    | none => rfl
    | some part =>
        obtain ⟨letter, some, digits⟩ := formed part rfl
        have split := signed_text part.sign digits.unsigned
        simp only [List.mem_cons, List.not_mem_nil, or_false] at letter
        have all : part.digits.all Char.isDigit = true := by simpa [AreDigits] using digits
        simp only [Spelling.exponentText, ExponentPart.text, Numeral.exponent?, split]
        rw [if_pos ⟨letter, some, all⟩]
        rfl

/-! ## Decimal numerals -/

/-- What follows the digits of a numeral is no digit. -/
theorem not_isDigit_of_exponentText {exponent : Option ExponentPart}
    (formed : ∀ part ∈ exponent, part.WellFormed) :
    (Spelling.exponentText exponent).head?.all (fun c => !c.isDigit && c != '.') = true := by
  cases exponent with
  | none => rfl
  | some part =>
      obtain ⟨letter, -⟩ := formed part rfl
      simp only [List.mem_cons, List.not_mem_nil, or_false] at letter
      rcases letter with letter | letter <;>
        simp [Spelling.exponentText, ExponentPart.text, letter]

theorem span_digits {digits rest : List Char} (h : AreDigits digits)
    (stop : rest.head?.all (!·.isDigit) = true) :
    (digits ++ rest).takeWhile Char.isDigit = digits ∧
      (digits ++ rest).dropWhile Char.isDigit = rest := by
  have stopped : rest.takeWhile Char.isDigit = [] ∧ rest.dropWhile Char.isDigit = rest := by
    cases rest with
    | nil => exact ⟨rfl, rfl⟩
    | cons c rest =>
        have : c.isDigit = false := by simpa using stop
        simp [this]
  rw [List.takeWhile_append_of_pos h, List.dropWhile_append_of_pos h, stopped.1, stopped.2]
  simp

/-- What stands behind the whole digits begins with a point or with an exponent. -/
theorem not_isDigit_of_pointText (fraction : Option (List Char)) {exponent : Option ExponentPart}
    (formed : ∀ part ∈ exponent, part.WellFormed) :
    (Spelling.pointText fraction ++ Spelling.exponentText exponent).head?.all (!·.isDigit) = true := by
  cases fraction with
  | none =>
      have stop := not_isDigit_of_exponentText formed
      cases text : Spelling.exponentText exponent with
      | nil => rfl
      | cons c cs =>
          rw [text] at stop
          simp only [List.head?_cons, Option.all_some, Bool.and_eq_true] at stop
          exact stop.1
  | some digits => rfl

theorem size?_text {sign : SignMark} {whole : List Char} {fraction : Option (List Char)}
    {exponent : Option ExponentPart}
    (formed : (Spelling.decimal sign whole fraction exponent).WellFormed) :
    Numeral.size? (whole ++ (Spelling.pointText fraction ++ Spelling.exponentText exponent)) =
      some (Spelling.size whole fraction exponent) := by
  obtain ⟨digits, digits', some, formed⟩ := formed
  obtain ⟨taken, dropped⟩ := span_digits digits (not_isDigit_of_pointText fraction formed)
  have read := (exponent?_eq_some_iff Numeral.exponentSize _ _).mpr ⟨exponent, formed, rfl, rfl⟩
  simp only [Spelling.size, Numeral.size?, taken, dropped]
  cases fraction with
  | none =>
      have stop := not_isDigit_of_exponentText formed
      have noPoint : (Spelling.exponentText exponent).head? ≠ .some '.' := by
        intro point
        rw [point] at stop
        exact absurd stop (by decide)
      have whole : whole ≠ [] := by simpa using some
      simp [Spelling.pointText, noPoint, whole, read]
  | some ds =>
      have stop := not_isDigit_of_pointText none formed
      obtain ⟨taken, dropped⟩ := span_digits digits' stop
      simp only [Spelling.pointText, Option.getD_some, List.nil_append] at taken dropped
      have something : ¬(whole = [] ∧ ds = []) := by
        simp only [Option.getD_some] at some
        tauto
      simp [Spelling.pointText, taken, dropped, something, read]

theorem exists_of_size? {cs : List Char} {size : Decimal} (read : Numeral.size? cs = some size) :
    ∃ whole fraction exponent, (∀ sign, (Spelling.decimal sign whole fraction exponent).WellFormed) ∧
      whole ++ (Spelling.pointText fraction ++ Spelling.exponentText exponent) = cs ∧
        Spelling.size whole fraction exponent = size := by
  simp only [Numeral.size?] at read
  have whole := List.takeWhile_append_dropWhile (p := Char.isDigit) (l := cs)
  have digits : AreDigits (cs.takeWhile Char.isDigit) := fun c mem => List.mem_takeWhile_imp mem
  generalize cs.takeWhile Char.isDigit = taken at whole digits read
  generalize cs.dropWhile Char.isDigit = rest at whole read
  subst whole
  by_cases point : rest.head? = some '.'
  · obtain ⟨rest, rfl⟩ : ∃ tail, rest = '.' :: tail := by
      cases rest with
      | nil => cases point
      | cons c tail =>
          cases point
          exact ⟨tail, rfl⟩
    have fraction := List.takeWhile_append_dropWhile (p := Char.isDigit) (l := rest)
    have digits' : AreDigits (rest.takeWhile Char.isDigit) := fun c mem => List.mem_takeWhile_imp mem
    simp only [List.head?_cons, if_true, List.drop_succ_cons, List.drop_zero] at read
    generalize rest.takeWhile Char.isDigit = taken' at fraction digits' read
    generalize rest.dropWhile Char.isDigit = rest' at fraction read
    subst fraction
    split_ifs at read with none
    obtain ⟨e, tail, rfl⟩ := Option.map_eq_some_iff.mp read
    obtain ⟨exponent, formed, rfl, rfl⟩ := (exponent?_eq_some_iff _ _ _).mp tail
    exact ⟨taken, some taken', exponent, fun _ => ⟨digits, digits', not_and_or.mp none, formed⟩, rfl,
      rfl⟩
  · simp only [point, if_false, and_true, List.append_nil] at read
    split_ifs at read with none
    obtain ⟨e, tail, rfl⟩ := Option.map_eq_some_iff.mp read
    obtain ⟨exponent, formed, rfl, rfl⟩ := (exponent?_eq_some_iff _ _ _).mp tail
    refine ⟨taken, .none, exponent, fun _ => ⟨digits, by simp [AreDigits], .inl none, formed⟩, rfl, ?_⟩
    simp [Spelling.size]

/-- The characters a decimal numeral is made of. -/
def IsDecimalChar (c : Char) : Prop := c.isDigit = true ∨ c ∈ ['+', '-', '.', 'e', 'E']

instance : DecidablePred IsDecimalChar := fun c =>
  inferInstanceAs (Decidable (c.isDigit = true ∨ c ∈ ['+', '-', '.', 'e', 'E']))

theorem SignMark.isDecimalChar (sign : SignMark) : ∀ c ∈ sign.text, IsDecimalChar c := by
  cases sign <;> simp [text, IsDecimalChar]

theorem isDecimalChar_of_text {sign : SignMark} {whole : List Char} {fraction : Option (List Char)}
    {exponent : Option ExponentPart}
    (formed : (Spelling.decimal sign whole fraction exponent).WellFormed) :
    ∀ c ∈ (Spelling.decimal sign whole fraction exponent).text, IsDecimalChar c := by
  obtain ⟨digits, digits', -, formed⟩ := formed
  intro c mem
  simp only [Spelling.text, List.mem_append] at mem
  rcases mem with mem | mem | mem | mem
  · exact sign.isDecimalChar c mem
  · exact .inl (digits c mem)
  · cases fraction with
    | none => cases mem
    | some ds =>
        rcases List.mem_cons.mp mem with rfl | mem
        · exact .inr (by decide)
        · exact .inl (digits' c mem)
  · cases exponent with
    | none => cases mem
    | some part =>
        obtain ⟨letter, -, digits⟩ := formed part rfl
        rcases List.mem_cons.mp mem with rfl | mem
        · exact .inr (by simp only [List.mem_cons] at letter ⊢; tauto)
        · rcases List.mem_append.mp mem with mem | mem
          · exact part.sign.isDecimalChar c mem
          · exact .inl (digits c mem)

theorem isDecimalChar_iff {c : Char} : Numeral.isDecimalChar c = true ↔ IsDecimalChar c := by
  simp only [Numeral.isDecimalChar, IsDecimalChar, Bool.or_eq_true, decide_eq_true_eq,
    List.mem_cons, List.not_mem_nil, or_false]
  tauto

/-- No character of a decimal numeral begins a word. -/
theorem IsDecimalChar.toLower_ne {c : Char} (h : IsDecimalChar c) : c.toLower ≠ 'i' := by
  rcases h with digit | mark
  · have bounds := toNat_of_isDigit digit
    have lower : c.toLower = c := by
      rw [Char.toLower, dif_neg]
      intro upper
      have := UInt32.le_iff_toNat_le.mp upper.1
      have least : c.toNat ≥ 65 := this
      omega
    rw [lower]
    rintro rfl
    exact absurd digit (by decide)
  · simp only [List.mem_cons, List.not_mem_nil, or_false] at mark
    rcases mark with rfl | rfl | rfl | rfl | rfl <;> decide

/-- The reader of floating-point numbers reads the text of a decimal spelling as its number. -/
theorem ofText?_text {sign : SignMark} {whole : List Char} {fraction : Option (List Char)}
    {exponent : Option ExponentPart}
    (formed : (Spelling.decimal sign whole fraction exponent).WellFormed) :
    FloatReading.ofText? (Spelling.decimal sign whole fraction exponent).text =
      some (.finite sign.isMinus (Spelling.size whole fraction exponent)) := by
  have unsigned : ∀ c ∈ (whole ++ (Spelling.pointText fraction ++
      Spelling.exponentText exponent)).head?, c ≠ '+' ∧ c ≠ '-' := by
    obtain ⟨digits, -, some, -⟩ := formed
    cases whole with
    | cons c cs => exact digits.unsigned
    | nil =>
        cases fraction with
        | none => simp at some
        | some ds =>
            rintro c ⟨⟩
            decide
  have split := signed_text sign unsigned
  simp only [FloatReading.ofText?, Spelling.text, split, size?_text formed]

/-- It reads nothing else as a finite number. -/
theorem exists_of_finite {cs : List Char} {negative : Bool} {size : Decimal}
    (read : FloatReading.ofText? cs = some (.finite negative size)) :
    ∃ sign whole fraction exponent, (Spelling.decimal sign whole fraction exponent).WellFormed ∧
      (Spelling.decimal sign whole fraction exponent).text = cs ∧
        (Spelling.decimal sign whole fraction exponent).numeral = .decimal negative size := by
  obtain ⟨sign, same, minus⟩ := exists_signMark cs
  simp only [FloatReading.ofText?, minus] at read
  cases body : Numeral.size? (Numeral.signed cs).2 with
  | none =>
      simp only [body] at read
      split_ifs at read <;> cases read
  | some size' =>
      simp only [body] at read
      cases read
      obtain ⟨whole, fraction, exponent, formed, text, rfl⟩ := exists_of_size? body
      refine ⟨sign, whole, fraction, exponent, formed sign, ?_, rfl⟩
      rw [same, ← text]
      rfl

/-- A text that is read as infinity has a character that no decimal numeral has. -/
theorem exists_of_infinity {cs : List Char} {negative : Bool}
    (read : FloatReading.ofText? cs = some (.infinity negative)) : ∃ c ∈ cs, ¬IsDecimalChar c := by
  obtain ⟨sign, same, minus⟩ := exists_signMark cs
  simp only [FloatReading.ofText?] at read
  cases body : Numeral.size? (Numeral.signed cs).2 with
  | some size =>
      simp only [body] at read
      cases read
  | none =>
      simp only [body] at read
      split_ifs at read with word nan
      · have first : ((Numeral.signed cs).2.map Char.toLower).head? = some 'i' := by
          rcases word with word | word <;> rw [word] <;> rfl
        cases letters : (Numeral.signed cs).2 with
        | nil =>
            rw [letters] at first
            cases first
        | cons c rest =>
            rw [letters] at first same
            refine ⟨c, by rw [same]; simp, fun decimal => decimal.toLower_ne ?_⟩
            simpa using first
      · cases read

/-- The characters that pass leave the reader the decimal numerals and nothing else: its words for
infinity and for what is not a number do not get that far. -/
theorem decimal?_eq_some_iff {cs : List Char} {n : Numeral} :
    Numeral.decimal? cs = some n ↔ ∃ sign whole fraction exponent,
      (Spelling.decimal sign whole fraction exponent).WellFormed ∧
        (Spelling.decimal sign whole fraction exponent).text = cs ∧
          (Spelling.decimal sign whole fraction exponent).numeral = n := by
  have passes : cs.all Numeral.isDecimalChar = true ↔ ∀ c ∈ cs, IsDecimalChar c := by
    simp only [List.all_eq_true, isDecimalChar_iff]
  constructor
  · intro read
    rw [Numeral.decimal?] at read
    split_ifs at read with pass
    cases reading : FloatReading.ofText? cs with
    | none =>
        simp only [reading] at read
        cases read
    | some r =>
        cases r with
        | notANumber =>
            simp only [reading] at read
            cases read
        | infinity negative =>
            obtain ⟨c, mem, other⟩ := exists_of_infinity reading
            exact absurd (passes.mp pass c mem) other
        | finite negative size =>
            simp only [reading] at read
            cases read
            exact exists_of_finite reading
  · rintro ⟨sign, whole, fraction, exponent, formed, rfl, rfl⟩
    rw [Numeral.decimal?, if_pos (passes.mpr (isDecimalChar_of_text formed)), ofText?_text formed]
    rfl

/-- The reader itself reads words. -/
example : FloatReading.ofText? "-Inf".toList = some (.infinity true) ∧
    Numeral.decimal? "-Inf".toList = none := by decide

/-! ## All numerals -/

/-- The reader tries nothing but a decimal numeral where no other character stands. -/
theorem parse?_of_isDecimalChar {cs : List Char} (some : cs ≠ [])
    (decimal : ∀ c ∈ cs, IsDecimalChar c) : Numeral.parse? cs = Numeral.decimal? cs := by
  have other (c : Char) (h : ¬IsDecimalChar c) : c ∉ cs := fun mem => h (decimal c mem)
  have finite (cs' : List Char) (infinite : 'I' ∈ cs') : cs ≠ cs' := by
    rintro rfl
    exact other 'I' (by decide) infinite
  unfold Numeral.parse?
  rw [if_neg some, if_neg, if_neg (finite _ (by simp))]
  · split
    · exact absurd (by simp) (other 'x' (by decide))
    · exact absurd (by simp) (other 'X' (by decide))
    · exact absurd (by simp) (other 'o' (by decide))
    · exact absurd (by simp) (other 'O' (by decide))
    · exact absurd (by simp) (other 'b' (by decide))
    · exact absurd (by simp) (other 'B' (by decide))
    · rfl
  · exact not_or.mpr ⟨finite _ (by simp), finite _ (by simp)⟩

/-- After its mark a numeral is read in the radix. -/
theorem parse?_mark {r : Radix} {letter : Char} (mark : letter ∈ r.letters) (digits : List Char) :
    Numeral.parse? ('0' :: letter :: digits) = Numeral.radix? r.base digits := by
  cases r <;> simp only [Radix.letters, List.mem_cons, List.not_mem_nil, or_false] at mark <;>
    rcases mark with rfl | rfl <;> unfold Numeral.parse? <;> simp <;> rfl

theorem parse?_text {sp : Spelling} (formed : sp.WellFormed) :
    Numeral.parse? sp.text = some sp.numeral := by
  cases sp with
  | empty => rfl
  | infinity sign => cases sign <;> rfl
  | radix r letter digits =>
      obtain ⟨mark, some, digits'⟩ := formed
      rw [Spelling.text, parse?_mark mark]
      exact (radix?_eq_some_iff r digits _).mpr ⟨some, digits', rfl⟩
  | decimal sign whole fraction exponent =>
      have some : (Spelling.decimal sign whole fraction exponent).text ≠ [] := by
        obtain ⟨-, -, some, -⟩ := formed
        cases fraction with
        | none => simp_all [Spelling.text]
        | some ds => simp [Spelling.text, Spelling.pointText]
      rw [parse?_of_isDecimalChar some (isDecimalChar_of_text formed)]
      exact decimal?_eq_some_iff.mpr ⟨sign, whole, fraction, exponent, formed, rfl, rfl⟩

theorem exists_of_radix? {r : Radix} {letter : Char} (mark : letter ∈ r.letters) {digits : List Char}
    {n : Numeral} (read : Numeral.radix? r.base digits = some n) :
    ∃ sp : Spelling, sp.WellFormed ∧ sp.text = '0' :: letter :: digits ∧ sp.numeral = n := by
  obtain ⟨some, digits', rfl⟩ := (radix?_eq_some_iff r digits n).mp read
  exact ⟨.radix r letter digits, ⟨mark, some, digits'⟩, rfl, rfl⟩

theorem exists_of_parse? {cs : List Char} {n : Numeral} (read : Numeral.parse? cs = some n) :
    ∃ sp : Spelling, sp.WellFormed ∧ sp.text = cs ∧ sp.numeral = n := by
  unfold Numeral.parse? at read
  split_ifs at read with empty infinite negative
  · exact ⟨.empty, trivial, empty.symm, Option.some.inj read⟩
  · rcases infinite with rfl | rfl
    · exact ⟨.infinity .none, trivial, rfl, Option.some.inj read⟩
    · exact ⟨.infinity .plus, trivial, rfl, Option.some.inj read⟩
  · exact ⟨.infinity .minus, trivial, negative.symm, Option.some.inj read⟩
  · split at read
    · exact exists_of_radix? (r := .hexadecimal) (by decide) read
    · exact exists_of_radix? (r := .hexadecimal) (by decide) read
    · exact exists_of_radix? (r := .octal) (by decide) read
    · exact exists_of_radix? (r := .octal) (by decide) read
    · exact exists_of_radix? (r := .binary) (by decide) read
    · exact exists_of_radix? (r := .binary) (by decide) read
    · obtain ⟨sign, whole, fraction, exponent, spelled⟩ := decimal?_eq_some_iff.mp read
      exact ⟨_, spelled⟩

/-- The reader accepts the texts of well-formed spellings and no others. -/
theorem parse?_eq_some_iff {cs : List Char} {n : Numeral} :
    Numeral.parse? cs = some n ↔ ∃ sp : Spelling, sp.WellFormed ∧ sp.text = cs ∧ sp.numeral = n := by
  constructor
  · exact exists_of_parse?
  · rintro ⟨sp, formed, rfl, rfl⟩
    exact parse?_text formed

end ScriptTree
