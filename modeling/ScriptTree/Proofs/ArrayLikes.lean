import ScriptTree.Conversion
import ScriptTree.Proofs.Discipline
import ScriptTree.Proofs.Integers

/-!
# Array-likes and their elements

A value is spread by its `length` and by the texts of its indices.  If these reads give the parts of
a list and leave the machine as it is, the elements are that list (`Runner.arrayLike_of_reads`).
The length goes through a double on the way, which is exact for fewer than `2 ^ 53` elements.

A text has one element for each of its code units (`spread_text`).  A character of the Basic
Multilingual Plane is one unit and is its own element.  The others are two units, and a half of a
character is shown as the replacement character.
-/

namespace ScriptTree

/-! ## Index keys -/

theorem digitsValue_toDigits (n : Nat) : digitsValue (Nat.toDigits 10 n) = n := by
  rw [digitsValue, ← Nat.ofDigitChars_eq_foldl, Nat.ofDigitChars_ten_toDigits]

/-- Only zero itself is written with a leading zero. -/
theorem head?_toDigits_ne_zero {n : Nat} (pos : 0 < n) : (Nat.toDigits 10 n).head? ≠ some '0' := by
  induction n using Nat.strongRecOn with
  | ind n ih =>
      by_cases small : n < 10
      · have digits : ∀ d : Fin 10, 0 < d.val → [Nat.digitChar d].head? ≠ some '0' := by decide
        rw [Nat.toDigits_of_lt_base small]
        exact digits ⟨n, small⟩ pos
      · have large : 10 ≤ n := Nat.le_of_not_lt small
        have first := ih (n / 10) (Nat.div_lt_self pos (by decide)) (by omega)
        rw [Nat.toDigits_of_base_le (by decide) large, List.head?_append]
        cases leading : (Nat.toDigits 10 (n / 10)).head? with
        | none => exact absurd (List.head?_eq_none_iff.mp leading) Nat.toDigits_ne_nil
        | some c =>
            rw [leading] at first
            exact first

theorem toList_indexText (i : Nat) : (indexText i).toList = Nat.toDigits 10 i :=
  String.toList_ofList

theorem indexText_inj {i j : Nat} : indexText i = indexText j ↔ i = j := by
  constructor
  · intro same
    have digits := congrArg (fun text => digitsValue text.toList) same
    simpa only [toList_indexText, digitsValue_toDigits] using digits
  · intro same
    rw [same]

theorem indexText_ne_length (i : Nat) : indexText i ≠ "length" := by
  intro same
  have digit : 'l' ∈ Nat.toDigits 10 i := by
    rw [← toList_indexText, same]
    decide
  have : 'l'.isDigit = true := Nat.isDigit_of_mem_toDigits (by decide) (by decide) digit
  cases this

/-- The text of an index is read as that index. -/
theorem arrayIndex?_indexText {i : Nat} (h : i < UInt64.size) :
    arrayIndex? (indexText i) = some i := by
  have digits : (Nat.toDigits 10 i).all Char.isDigit = true := by
    rw [List.all_eq_true]
    intro c hc
    exact Nat.isDigit_of_mem_toDigits (by decide) (by decide) hc
  have plain : ¬(Nat.toDigits 10 i = [] ∨
      ((Nat.toDigits 10 i).head? = some '0' ∧ 1 < (Nat.toDigits 10 i).length)) := by
    rintro (none | ⟨zero, long⟩)
    · exact Nat.toDigits_ne_nil none
    · rcases Nat.eq_zero_or_pos i with rfl | pos
      · exact absurd long (by decide)
      · exact head?_toDigits_ne_zero pos zero
  simp only [arrayIndex?, toList_indexText, digitsValue_toDigits]
  rw [if_neg plain, if_pos ⟨digits, h⟩]

/-! ## Reading elements -/

namespace Runner

/-- A length below `2 ^ 53` asks for as many elements. -/
theorem elementCount_ofNat {n : Nat} (few : n < 2 ^ 53) :
    arrayLike.elementCount (Float.ofNat n) = n := by
  obtain ⟨b, exact, sign, size⟩ := Binary.ofFloat?_ofNat few
  simp only [arrayLike.elementCount, exact, sign, size]
  rfl

variable {r : Runner} {v : Value} {m : Machine}

/-- The elements are read one after the other, in order. -/
theorem elementsFrom_of_reads {values : List Value} (index : Nat)
    (reads : ∀ i x, values[i]? = some x →
      r.getProperty v (indexText (index + i)) m = .value x m) (done : List Value) :
    r.elementsFrom v index values.length done m = .value (done.reverse ++ values) m := by
  induction values generalizing index done with
  | nil =>
      rw [List.append_nil]
      rfl
  | cons x values ih =>
      have first : r.getProperty v (indexText index) m = .value x m := reads 0 x rfl
      have later (i : Nat) (y : Value) (hy : values[i]? = some y) :
          r.getProperty v (indexText (index + 1 + i)) m = .value y m := by
        rw [Nat.add_assoc, Nat.add_comm 1 i]
        exact reads (i + 1) y hy
      rw [List.length_cons, elementsFrom, Eval.bind_of_value first, ih (index + 1) later]
      simp

/-- A value is spread to a list when its length and its indices give the parts of the list and
leave the machine as it is. -/
theorem arrayLike_of_reads {values : List Value} (few : values.length < 2 ^ 53)
    (length : r.getProperty v "length" m = .value (.number (Float.ofNat values.length)) m)
    (reads : ∀ i x, values[i]? = some x → r.getProperty v (indexText i) m = .value x m) :
    r.arrayLike v m = .value values m := by
  have converted : r.toNumber (.number (Float.ofNat values.length)) m =
      .value (Float.ofNat values.length) m := rfl
  have elements := elementsFrom_of_reads 0 (by simpa using reads) []
  rw [arrayLike, Eval.bind_of_value length, Eval.bind_of_value converted, elementCount_ofNat few,
    elements]
  rfl

end Runner

/-! ## Texts -/

/-- The elements of a character: itself, or one replacement character for each half of it. -/
def charElements (c : Char) : List String :=
  if c.toNat < 0x10000 then [String.singleton c] else ["\uFFFD", "\uFFFD"]

/-- The elements of a text, character by character. -/
def textElements (s : String) : List String := s.toList.flatMap charElements

theorem map_unitText_charUnits (c : Char) : (charUnits c).map unitText = charElements c := by
  have valid := c.valid
  rw [charUnits, charElements]
  split
  next plane =>
    have whole : ¬(0xD800 ≤ c.toNat ∧ c.toNat < 0xE000) := by
      intro half
      rcases valid with low | ⟨high, _⟩
      · exact absurd low (Nat.not_lt.mpr half.1)
      · exact absurd half.2 (Nat.not_lt.mpr high)
    simp only [List.map_cons, List.map_nil, unitText, whole, if_false, Char.ofNat_toNat]
  next beyond =>
    have bound : c.toNat < 0x110000 := by
      rcases valid with low | ⟨_, high⟩
      · exact Nat.lt_trans low (by decide)
      · exact high
    have first : 0xD800 ≤ 0xD800 + (c.toNat - 0x10000) / 0x400 ∧
        0xD800 + (c.toNat - 0x10000) / 0x400 < 0xE000 := by omega
    have second : 0xD800 ≤ 0xDC00 + (c.toNat - 0x10000) % 0x400 ∧
        0xDC00 + (c.toNat - 0x10000) % 0x400 < 0xE000 := by omega
    simp only [List.map_cons, List.map_nil, unitText, first, second, and_self, if_true]

theorem map_unitText_textUnits (s : String) : (textUnits s).map unitText = textElements s := by
  rw [textUnits, textElements, List.map_flatMap]
  simp only [map_unitText_charUnits]

theorem length_textElements (s : String) : (textElements s).length = unitLength s := by
  rw [← map_unitText_textUnits, List.length_map, unitLength]

theorem unitAt?_eq (s : String) (i : Nat) : unitAt? s i = (textElements s)[i]? := by
  rw [← map_unitText_textUnits, List.getElem?_map, unitAt?]

theorem join_textElements {s : String} (plane : ∀ c ∈ s.toList, c.toNat < 0x10000) :
    String.join (textElements s) = s := by
  have singles : textElements s = s.toList.map String.singleton := by
    rw [textElements, List.map_eq_flatMap]
    exact List.flatMap_congr fun c hc => if_pos (plane c hc)
  rw [singles]
  apply String.toList_injective
  simp [String.toList_join, List.flatMap_map]

/-- A text has the elements under their indices as properties of its own. -/
theorem textProperty?_indexText {s : String} {i : Nat} {e : String} (h : i < UInt64.size)
    (element : (textElements s)[i]? = some e) :
    textProperty? s (indexText i) = some (.readOnly (.string e)) := by
  simp only [textProperty?, indexText_ne_length, if_false, arrayIndex?_indexText h, unitAt?_eq,
    element, Option.bind_eq_bind, Option.bind_some]
  rfl

theorem Runner.getProperty_text (r : Runner) {s key : String} {v : Value} (m : Machine)
    (own : textProperty? s key = some (.readOnly v)) :
    r.getProperty (.string s) key m = .value v m := by
  simp only [getProperty, Primitive.prototype?, Primitive.property?, own]
  rfl

/-- Spreading a text gives the elements of its characters in order, runs no script and changes
nothing.  There are as many elements as code units, each of them is what the text has under the text
of its index, and together they are the text again if all its characters are of the Basic
Multilingual Plane. -/
theorem spread_text (s : String) (few : unitLength s < 2 ^ 53) (r : Runner) (m : Machine) :
    r.arrayLike (.string s) m = .value ((textElements s).map .string) m ∧
    (textElements s).length = unitLength s ∧
    (∀ i, i < unitLength s → ∃ e, (textElements s)[i]? = some e ∧
      r.getProperty (.string s) (indexText i) m = .value (.string e) m) ∧
    ((∀ c ∈ s.toList, c.toNat < 0x10000) → String.join (textElements s) = s) := by
  have count := length_textElements s
  have reads (i : Nat) (e : String) (element : (textElements s)[i]? = some e) :
      r.getProperty (.string s) (indexText i) m = .value (.string e) m := by
    have inside : i < (textElements s).length := (List.getElem?_eq_some_iff.mp element).1
    have word : i < UInt64.size := by
      show i < 2 ^ 64
      omega
    exact r.getProperty_text m (textProperty?_indexText word element)
  refine ⟨?_, count, ?_, join_textElements⟩
  · apply Runner.arrayLike_of_reads
    · rw [List.length_map, count]
      exact few
    · rw [List.length_map, count]
      exact r.getProperty_text m (if_pos rfl)
    · intro i x element
      rw [List.getElem?_map] at element
      obtain ⟨e, found, rfl⟩ := Option.map_eq_some_iff.mp element
      exact reads i e found
  · intro i inside
    rw [← count] at inside
    exact ⟨_, List.getElem?_eq_getElem inside, reads i _ (List.getElem?_eq_getElem inside)⟩

/-- A runner that runs nothing is enough: `a` is one element and the face is two halves.  Without
the face, the elements make up the text. -/
theorem spread_text_face :
    (unitLength "a😀" < 2 ^ 53 ∧
      (Runner.mk .standard 0 fun _ => Eval.exhausted).arrayLike (.string "a😀") .empty =
        .value [.string "a", .string "\uFFFD", .string "\uFFFD"] .empty) ∧
    (∀ c ∈ "né".toList, c.toNat < 0x10000) ∧ String.join (textElements "né") = "né" := by
  have few : unitLength "a😀" < 2 ^ 53 := by decide
  have plane : ∀ c ∈ "né".toList, c.toNat < 0x10000 := by simp
  obtain ⟨elements, _⟩ := spread_text "a😀" few (.mk .standard 0 fun _ => Eval.exhausted) .empty
  obtain ⟨_, _, _, joined⟩ :=
    spread_text "né" (by decide) (.mk .standard 0 fun _ => Eval.exhausted) .empty
  exact ⟨⟨few, elements⟩, plane, joined plane⟩

end ScriptTree
