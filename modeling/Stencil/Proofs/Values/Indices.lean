import Mathlib
import Stencil.Proofs.Lexing.Characters
import Stencil.Proofs.Numbers.Wholes
import Stencil.Value.Property
/-!
# Elements under their indices

An array and a string have their elements under the decimal spellings of their indices and under
no other key, but that a plus sign may stand before the digits (`Signed`): a key is read as a
machine word is, and the sign is part of what can be read.
-/

set_option autoImplicit false

namespace Stencil.Value

/-! ## Keys that are digits -/

theorem digitChar_of_isDigit {c : Char} (digit : Text.isDigit c = true) :
    ∃ d < 10, Nat.digitChar d = c := by
  have table : ∀ c ∈ "0123456789".toList, ∃ d < 10, Nat.digitChar d = c := by decide
  exact table c (Lexing.mem_digits digit)

/-- A number is spelt with digits. -/
theorem isDigit_of_mem_toDigits {i : Nat} {c : Char} (mem : c ∈ Nat.toDigits 10 i) :
    Text.isDigit c = true := by
  have digit : c.isDigit = true := Nat.isDigit_of_mem_toDigits (by decide) (by decide) mem
  simpa [Text.isDigit, Char.isDigit, Char.le_def] using digit

/-- The spelling of a positive number does not begin with a zero. -/
theorem head_toDigits {i : Nat} (positive : 0 < i) : (Nat.toDigits 10 i).head? ≠ some '0' := by
  induction i using Nat.strongRecOn with
  | ind i ih =>
    rcases Nat.lt_or_ge i 10 with small | large
    · rw [Nat.toDigits_of_lt_base small]
      simp
      omega
    · rw [Nat.toDigits_of_base_le (by decide) large, List.head?_append_of_ne_nil _ Nat.toDigits_ne_nil]
      exact ih (i / 10) (by omega) (by omega)

theorem digitsValue?_eq_some {digits : List Char} {i : Nat} :
    digitsValue? digits = some i ↔
      digits ≠ [] ∧ (∀ c ∈ digits, Text.isDigit c = true) ∧ Nat.ofDigitChars 10 digits 0 = i := by
  have value : digits.foldl (fun total c => total * 10 + (c.toNat - '0'.toNat)) 0 =
      Nat.ofDigitChars 10 digits 0 := by
    simp only [Nat.ofDigitChars_eq_foldl, Nat.mul_comm]
  rw [digitsValue?, value]
  cases digits with
  | nil => simp
  | cons c digits => simp

/-- Digits that do not begin with a zero spell a positive number, and are what it is spelt. -/
theorem toDigits_ofDigitChars {digits : List Char} (some_ : digits ≠ [])
    (all : ∀ c ∈ digits, Text.isDigit c = true) (lead : digits.head? ≠ some '0') :
    0 < Nat.ofDigitChars 10 digits 0 ∧ Nat.toDigits 10 (Nat.ofDigitChars 10 digits 0) = digits := by
  induction digits using List.reverseRecOn with
  | nil => exact absurd rfl some_
  | append_singleton front c ih =>
    obtain ⟨d, small, rfl⟩ := digitChar_of_isDigit (all c (by simp))
    rw [Nat.ofDigitChars_append, Nat.ofDigitChars_cons_digitChar_of_lt_ten small, Nat.ofDigitChars_nil]
    cases front with
    | nil =>
      have positive : d ≠ 0 := by
        rintro rfl
        exact lead rfl
      simp [Nat.toDigits_of_lt_base small, Nat.pos_of_ne_zero positive]
    | cons b front =>
      obtain ⟨positive, same⟩ := ih (List.cons_ne_nil _ _)
        (fun c mem => all c (List.mem_append_left _ mem)) (by simpa using lead)
      refine ⟨by omega, ?_⟩
      rw [← Nat.toDigits_append_toDigits (by decide) positive small, same,
        Nat.toDigits_of_lt_base small]

/-- The key is digits behind a plus sign. -/
def Signed (key : List Char) : Prop :=
  ∃ digits, key = '+' :: digits ∧ digits ≠ [] ∧ ∀ c ∈ digits, Text.isDigit c = true

/-- A key that is no digits behind a plus sign names an index exactly when it is the decimal spelling
of the index. -/
theorem index?_eq_some {key : List Char} (unsigned : ¬ Signed key) {i : Nat} :
    index? key = some i ↔ key = Nat.toDigits 10 i := by
  unfold index?
  split
  · rename_i digits
    constructor
    · intro spelt
      obtain ⟨some_, all, -⟩ := digitsValue?_eq_some.mp spelt
      exact absurd ⟨digits, rfl, some_, all⟩ unsigned
    · intro spelt
      have sign : Text.isDigit '+' = true := isDigit_of_mem_toDigits (spelt ▸ List.mem_cons_self)
      exact absurd sign (by decide)
  · constructor
    · rintro ⟨⟩
      rfl
    · intro spelt
      have back := Nat.ofDigitChars_ten_toDigits (n := i)
      rw [← spelt] at back
      exact congrArg some back
  · rename_i tail needless
    constructor
    · rintro ⟨⟩
    · intro spelt
      rcases Nat.eq_zero_or_pos i with rfl | positive
      · cases spelt
        exact (needless rfl).elim
      · exact absurd (congrArg List.head? spelt).symm (head_toDigits positive)
  · rename_i noSign notZero noZero
    rw [digitsValue?_eq_some]
    constructor
    · rintro ⟨some_, all, rfl⟩
      refine (toDigits_ofDigitChars some_ all fun lead => ?_).2.symm
      obtain ⟨tail, rfl⟩ := List.head?_eq_some_iff.mp lead
      exact noZero tail rfl
    · rintro rfl
      exact ⟨Nat.toDigits_ne_nil, fun _ => isDigit_of_mem_toDigits, Nat.ofDigitChars_ten_toDigits⟩

/-! ## Elements -/

theorem isDigit_of_mem_toString {i : Nat} {c : Char} (mem : c ∈ (toString i).toList) :
    Text.isDigit c = true := by
  rw [Nat.toString_eq_ofList_toDigits, String.toList_ofList] at mem
  exact isDigit_of_mem_toDigits mem

/-- No number is spelt with a character that is not a digit. -/
theorem ne_toString {key : String} {c : Char} (mem : c ∈ key.toList)
    (other : Text.isDigit c = false) (i : Nat) : key ≠ toString i := by
  rintro rfl
  exact Bool.noConfusion (other.symm.trans (isDigit_of_mem_toString mem))

theorem index?_toList_eq_some {key : String} (unsigned : ¬ Signed key.toList) {i : Nat} :
    index? key.toList = some i ↔ key = toString i := by
  rw [index?_eq_some unsigned, Nat.toString_eq_ofList_toDigits, ← String.toList_inj,
    String.toList_ofList]

/-- What is found under a key among elements that have a length and are reached by index. -/
theorem element_iff {key : String} (unsigned : ¬ Signed key.toList) (length : Value)
    (element? : Nat → Option Value) (value : Value) :
    (if key = "length" then some length else (index? key.toList).bind element?) = some value ↔
      (key = "length" ∧ value = length) ∨ ∃ i, key = toString i ∧ element? i = some value := by
  by_cases named : key = "length"
  · subst named
    have word : ∀ i : Nat, "length" ≠ toString i := ne_toString (by decide : 'l' ∈ _) (by decide)
    rw [if_pos rfl, Option.some.injEq]
    constructor
    · rintro rfl
      exact .inl ⟨rfl, rfl⟩
    · rintro (⟨-, rfl⟩ | ⟨i, spelt, -⟩)
      · rfl
      · exact absurd spelt (word i)
  · simp [named, Option.bind_eq_some_iff, index?_toList_eq_some unsigned]

/-- Under a key that is no digits behind a plus sign, an array and a string have their length if
the key is `length`, the element at the index that the key spells in decimal, if there is one,
and nothing otherwise. The spelling is the one that the number of the index has as a text. -/
theorem elements_by_index {key : String} (unsigned : ¬ Signed key.toList) :
    (∀ identity items value, own? (array identity items) key = some value ↔
      (key = "length" ∧ value = number items.length.toFloat) ∨
        ∃ i : Nat, key = toString i ∧ items[i]? = some value) ∧
    (∀ text value, own? (string text) key = some value ↔
      (key = "length" ∧ value = number text.length.toFloat) ∨
        ∃ i : Nat, key = toString i ∧
          text.toList[i]?.map (fun c => string (String.singleton c)) = some value) ∧
    ∀ i < 2 ^ 53, Number.toText i.toFloat = toString i :=
  ⟨fun _ items value => element_iff unsigned _ (items[·]?) value,
    fun text value => element_iff unsigned _ (fun i => text.toList[i]?.map _) value,
    fun _ small => Number.toText_toFloat small⟩

theorem elements_by_index_pair :
    ¬ Signed "1".toList ∧
      own? (array 0 [string "a", string "b"]) "1" = some (string "b") ∧
      own? (string "ab") "1" = some (string "b") ∧ Number.toText (Nat.toFloat 1) = "1" := by
  have unsigned : ¬ Signed "1".toList := by
    rintro ⟨digits, same, -⟩
    cases same
  have found := @elements_by_index "1" unsigned
  exact ⟨unsigned, (found.1 _ _ _).mpr (.inr ⟨1, rfl, rfl⟩), (found.2.1 _ _).mpr (.inr ⟨1, rfl, rfl⟩),
    found.2.2 1 (by decide)⟩

/-- A plus sign before the digits is read as part of the index, though no number is spelt so. -/
theorem signed_index_read :
    own? (array 0 [string "a", string "b"]) "+1" = some (string "b") ∧
      ∀ i : Nat, "+1" ≠ toString i := by
  exact ⟨rfl, ne_toString (by decide : '+' ∈ _) (by decide)⟩

end Stencil.Value
