import Stencil.Text.CharClass
import Stencil.Text.Lines
/-!
# Classes of characters

Which classes a character cannot be in at the same time. For the characters below U+00AA the two
tables of letters and joiners come down to their first two ranges, so that facts about plain
characters are read off a short table.
-/

set_option autoImplicit false

namespace Stencil.Lexing

open Stencil.Text

/-! ## Plain characters -/

/-- Of ranges that begin at a bound or later, none holds a character below the bound. -/
theorem has_append_of_lt (front : List CodeRange) {back : List CodeRange} {bound : Nat} {c : Char}
    (later : ∀ range ∈ back, bound ≤ range.1) (below : c.toNat < bound) :
    CodeRange.has (front ++ back) c = CodeRange.has front c := by
  unfold CodeRange.has
  rw [List.any_append]
  have none_ : back.any (fun range => range.1 ≤ c.toNat && c.toNat ≤ range.2) = false := by
    rw [List.any_eq_false]
    intro range listed
    have := later range listed
    simp only [Bool.and_eq_true, decide_eq_true_eq]
    omega
  rw [none_, Bool.or_false]

/-- Below U+00AA the letters are those of the two plain alphabets. -/
theorem isLetter_plain {c : Char} (below : c.toNat < 0xaa) :
    isLetter c = CodeRange.has [(0x41, 0x5a), (0x61, 0x7a)] c := by
  have later : ∀ range ∈ letterRanges.drop 2, 0xaa ≤ range.1 := by decide +kernel
  exact has_append_of_lt (letterRanges.take 2) later below

/-- Below U+00AA a word goes on with letters, digits and the underscore. -/
theorem isWordChar_plain {c : Char} (below : c.toNat < 0xaa) :
    isWordChar c
      = CodeRange.has [(0x41, 0x5a), (0x61, 0x7a), (0x30, 0x39), (0x5f, 0x5f)] c := by
  have later : ∀ range ∈ joinerRanges.drop 2, 0xaa ≤ range.1 := by decide +kernel
  have joiners : CodeRange.has joinerRanges c = CodeRange.has [(0x30, 0x39), (0x5f, 0x5f)] c :=
    has_append_of_lt (joinerRanges.take 2) later below
  rw [isWordChar, isLetter_plain below, joiners]
  simp only [CodeRange.has, List.any_cons, List.any_nil, Bool.or_false, Bool.or_assoc]

/-- Below U+00AA a name goes on with a dollar sign, letters, digits and the underscore. -/
theorem isNamePart_plain {c : Char} (below : c.toNat < 0xaa) :
    isNamePart c = (c = '$' ||
      CodeRange.has [(0x41, 0x5a), (0x61, 0x7a), (0x30, 0x39), (0x5f, 0x5f)] c) := by
  have joiner : c ≠ '\u200c' ∧ c ≠ '\u200d' := by
    refine ⟨?_, ?_⟩ <;> rintro rfl <;> exact absurd below (by decide)
  simp [isNamePart, isWordChar_plain below, joiner]

/-- A statement about the characters below a bound is read off a table. -/
theorem plain_table {p : Char → Prop} {bound : Nat} (table : ∀ n < bound, p (Char.ofNat n))
    {c : Char} (below : c.toNat < bound) : p c := by
  have entry := table c.toNat below
  rwa [Char.ofNat_toNat] at entry

/-! ## Names against other tokens -/

/-- The characters with which tokens other than names begin. -/
def otherStarts : List Char := "\"'./\\+-*&%=<>!?|~^[]\x7b\x7d(),;:0123456789".toList

/-- What begins a name begins no other token. -/
theorem nameStart_other {c : Char} (start : isNameStart c = true) : c ∉ otherStarts := by
  intro listed
  have below : c.toNat < 0xaa := (by decide : ∀ d ∈ otherStarts, d.toNat < 0xaa) c listed
  have table : ∀ d ∈ otherStarts, d ≠ '$' ∧ d ≠ '_' ∧
      CodeRange.has [(0x41, 0x5a), (0x61, 0x7a)] d = false := by
    decide
  obtain ⟨dollar, underscore, letter⟩ := table c listed
  simp [isNameStart, dollar, underscore, isLetter_plain below, letter] at start

/-- A digit is one of ten. -/
theorem mem_digits {c : Char} (digit : isDigit c = true) : c ∈ "0123456789".toList := by
  simp only [isDigit, Bool.and_eq_true, decide_eq_true_eq] at digit
  have least : 48 ≤ c.toNat := digit.1
  have greatest : c.toNat ≤ 57 := digit.2
  have table : ∀ n < 58, 48 ≤ (Char.ofNat n).toNat → Char.ofNat n ∈ "0123456789".toList := by decide
  exact plain_table (p := fun c => 48 ≤ c.toNat → c ∈ "0123456789".toList) table (by omega) least

/-- An octal digit is a decimal digit. -/
theorem isDigit_of_octal {c : Char} (octal : (octalValue? c).isSome = true) :
    isDigit c = true := by
  unfold octalValue? at octal
  split at octal
  · rename_i digit
    simp only [Bool.and_eq_true, decide_eq_true_eq] at digit
    simp only [isDigit, Bool.and_eq_true, decide_eq_true_eq]
    exact ⟨digit.1, Char.le_trans digit.2 (by decide)⟩
  · simp at octal

/-! ## Blanks -/

/-- The blanks, each by its number. -/
def blankNumbers : List Nat :=
  [0x20, 0xa0, 0x0a, 0x0d, 0x09, 0x0c, 0x0b, 0x200b, 0x180e, 0x2000, 0x2001, 0x2002, 0x2003,
    0x2004, 0x2005, 0x2006, 0x2007, 0x2008, 0x2009, 0x200a, 0x202f, 0x205f, 0x3000]

/-- A blank is one of the list. -/
theorem mem_blankNumbers {c : Char} (blank : isBlank c = true) : c.toNat ∈ blankNumbers := by
  simp only [isBlank, Bool.or_eq_true, Bool.and_eq_true, decide_eq_true_eq] at blank
  by_cases range : '\u2000' ≤ c ∧ c ≤ '\u200a'
  · have least : 0x2000 ≤ c.toNat := range.1
    have greatest : c.toNat ≤ 0x200a := range.2
    simp only [blankNumbers, List.mem_cons]
    omega
  · simp only [range, or_false] at blank
    rcases blank with (((((((((((rfl | rfl) | rfl) | rfl) | rfl) | rfl) | rfl) | rfl) | rfl) | rfl) |
      rfl) | rfl) <;> decide

/-- A number beyond every range of a table is in none. -/
theorem isNamePart_blank {c : Char} (blank : isBlank c = true) : isNamePart c = false := by
  have table : ∀ n ∈ blankNumbers, isNamePart (Char.ofNat n) = false := by decide +kernel
  have entry := table c.toNat (mem_blankNumbers blank)
  rwa [Char.ofNat_toNat] at entry

/-- A blank is no digit and no letter. -/
theorem isAlphanumeric_blank {c : Char} (blank : isBlank c = true) : isAlphanumeric c = false := by
  have digit : isDigit c = false := by
    have table : ∀ n ∈ blankNumbers, isDigit (Char.ofNat n) = false := by decide
    have entry := table c.toNat (mem_blankNumbers blank)
    rwa [Char.ofNat_toNat] at entry
  have letter : isLetter c = false := by
    rw [← Bool.not_eq_true]
    intro letter
    have part := isNamePart_blank blank
    simp [isNamePart, isWordChar_of_isLetter letter] at part
  rw [isAlphanumeric, digit, letter]
  rfl

/-- A blank begins no token. -/
theorem blank_other {c : Char} (blank : isBlank c = true) : c ∉ otherStarts := by
  have table : ∀ d ∈ otherStarts, isBlank d = false := by decide
  intro listed
  rw [table c listed] at blank
  exact absurd blank (by decide)

/-- The foreign line breaks and the byte order mark continue no name. -/
theorem isNamePart_foreign {c : Char} (foreign : isForeignBreak c = true ∨ c = '\ufeff') :
    isNamePart c = false := by
  have table : ∀ d ∈ ['\r', '\u2028', '\u2029', '\ufeff'], isNamePart d = false := by
    decide +kernel
  apply table
  simp only [isForeignBreak, Bool.or_eq_true, decide_eq_true_eq] at foreign
  simpa [or_assoc] using foreign

end Stencil.Lexing
