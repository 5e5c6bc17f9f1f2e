import Stencil.Proofs.Lexing.Seams
/-!
# Escapes of string literals

The grammar of what may stand behind a backslash in a string literal, with the characters that it
stands for (`Escape`). Several escapes may stand at one place: octal digits may be taken or left to the
text behind, and the halves of a surrogate pair may be taken together or apart. It is always the
longest that counts (`Longest`).

The reader of escapes finds the longest escape (`stringEscape_of_longest`), and what it finds is an
escape (`Escape.of_found`). That it is the longest one (`longest_of_found`) needs no further look into
the reader: where any escape stands there is a longest one, and the reader finds that.
-/

set_option autoImplicit false

namespace Stencil.StringLiteral

open Stencil.Lexing
open Stencil.Text

/-! ## The grammar -/

/-- The digits denote the number in the base, the first of them counting most. -/
def Numeral (digit? : Char → Option Nat) (base : Nat) (digits : List Char) (number : Nat) : Prop :=
  ∃ values : List Nat, digits.map digit? = values.map some ∧
    values.foldl (fun total digit => total * base + digit) 0 = number

/-- The hexadecimal digits denote the number. -/
abbrev HexNumeral (digits : List Char) (number : Nat) : Prop := Numeral hexValue? 16 digits number

/-- The letters that stand for a character of their own behind a backslash, with that character. -/
def letters : List (Char × Char) :=
  [('n', '\n'), ('r', '\r'), ('t', '\t'), ('b', '\u0008'), ('v', '\u000b'), ('f', '\u000c')]

/-- What may stand behind a backslash, and the characters that it stands for with the backslash. The
code point of a lone surrogate, or a number that is no code point at all, stands for the replacement
character (`charOfCode`). -/
inductive Escape : List Char → List Char → Prop where
  | letter {name value : Char} (known : (name, value) ∈ letters) : Escape [name] [value]
  | byte {digits : List Char} {code : Nat} (two : digits.length = 2)
    (denotes : HexNumeral digits code) : Escape ('x' :: digits) [charOfCode code]
  | unit {digits : List Char} {code : Nat} (four : digits.length = 4)
    (denotes : HexNumeral digits code) : Escape ('u' :: digits) [charOfCode code]
  | pair {digits digits' : List Char} {high low : Nat} (four : digits.length = 4)
    (four' : digits'.length = 4) (denotes : HexNumeral digits high)
    (denotes' : HexNumeral digits' low) (isHigh : 0xD800 ≤ high ∧ high < 0xDC00)
    (isLow : 0xDC00 ≤ low ∧ low < 0xE000) :
    Escape ('u' :: (digits ++ '\\' :: 'u' :: digits'))
      [charOfCode (0x10000 + (high - 0xD800) * 1024 + (low - 0xDC00))]
  | braced {digits : List Char} {code : Nat} (filled : digits ≠ [])
    (denotes : HexNumeral digits code) (fits : code < 0x100000000) :
    Escape ('u' :: '\x7b' :: (digits ++ ['\x7d'])) [charOfCode code]
  -- three digits are at most 0o377 when the first is at most 3
  | octal {first : Char} {digits : List Char} {code : Nat}
    (denotes : Numeral octalValue? 8 (first :: digits) code)
    (short : digits.length ≤ if first ≤ '3' then 2 else 1) :
    Escape (first :: digits) [charOfCode code]
  | lineBreak : Escape ['\n'] []
  | itself {c : Char} (other : c ∉ "nrtbvfxu01234567\n".toList) : Escape [c] [c]

/-- No longer escape stands where the escape does, with the text behind it. -/
def Longest (escape behind : List Char) : Prop :=
  ∀ other value, Escape other value → other <+: escape ++ behind → other.length ≤ escape.length

/-- What stands behind a backslash is an escape in braces, but for a plus sign before its digits. -/
def SignedEscape (text : List Char) : Prop :=
  ∃ digits behind, digits ≠ [] ∧ (∀ c ∈ digits, (hexValue? c).isSome = true) ∧
    text = 'u' :: '\x7b' :: '+' :: (digits ++ '\x7d' :: behind)

/-! ## Numerals -/

/-- What is given for all the characters of a list. -/
theorem map_eq_filterMap {f : Char → Option Nat} {cs : List Char}
    (all : ∀ c ∈ cs, (f c).isSome = true) : cs.map f = (cs.filterMap f).map some := by
  induction cs with
  | nil => rfl
  | cons c cs ih =>
    obtain ⟨value, known⟩ := Option.isSome_iff_exists.1 (all c List.mem_cons_self)
    rw [List.map_cons, List.filterMap_cons_some known, List.map_cons, known,
      ih fun c listed => all c (List.mem_cons_of_mem _ listed)]

theorem filterMap_of_map {f : Char → Option Nat} {cs : List Char} {values : List Nat}
    (known : cs.map f = values.map some) : cs.filterMap f = values := by
  have same := congrArg (List.filterMap id) known
  simpa [List.filterMap_map] using same

namespace Numeral

variable {digit? : Char → Option Nat} {base number : Nat} {digits : List Char}

theorem isSome (denotes : Numeral digit? base digits number) {c : Char} (listed : c ∈ digits) :
    (digit? c).isSome = true := by
  obtain ⟨values, known, -⟩ := denotes
  have held : digit? c ∈ values.map some := known ▸ List.mem_map_of_mem listed
  obtain ⟨value, -, same⟩ := List.mem_map.1 held
  rw [← same]
  rfl

/-- Digits denote the number that they are added up to. -/
theorem of_all (all : ∀ c ∈ digits, (digit? c).isSome = true) :
    Numeral digit? base digits
      ((digits.filterMap digit?).foldl (fun total digit => total * base + digit) 0) :=
  ⟨_, map_eq_filterMap all, rfl⟩

theorem sum (denotes : Numeral digit? base digits number) :
    (digits.filterMap digit?).foldl (fun total digit => total * base + digit) 0 = number := by
  obtain ⟨values, known, sum⟩ := denotes
  rwa [filterMap_of_map known]

/-- The digits of a numeral are read. -/
theorem hexRun (denotes : HexNumeral digits number) (behind : List Char) :
    hexRun digits.length 0 (digits ++ behind) = .found number digits.length := by
  obtain ⟨values, known, sum⟩ := denotes
  rw [hexRun_digits known, sum]

end Numeral

/-- The digits that are read are a numeral, behind the number of those read before. -/
theorem hexRun_values {count code number width : Nat} {text : List Char}
    (found : hexRun count code text = .found number width) :
    ∃ values : List Nat, (text.take count).map hexValue? = values.map some ∧
      values.foldl (fun total digit => total * 16 + digit) code = number := by
  induction count generalizing code text width with
  | zero =>
    cases found
    exact ⟨[], rfl, rfl⟩
  | succ count ih =>
    cases text with
    | nil => cases found
    | cons c text =>
      unfold hexRun at found
      split at found
      · next digit known =>
        obtain ⟨taken, inner, -⟩ := Scan.behind_eq_found.1 found
        obtain ⟨values, others, sum⟩ := ih inner
        exact ⟨digit :: values, by simp [known, others], sum⟩
      · cases found

theorem numeral_of_hexRun {count number width : Nat} {text : List Char}
    (found : hexRun count 0 text = .found number width) :
    width = count ∧ (text.take count).length = count ∧ HexNumeral (text.take count) number := by
  have width := hexRun_width found
  obtain ⟨bound, -⟩ := hexRun_found found
  exact ⟨width, by rw [List.length_take]; omega, hexRun_values found⟩

/-- The low half of a surrogate pair that stands there. -/
theorem lowSurrogate?_eq_some {text : List Char} {low : Nat} :
    lowSurrogate? text = some low ↔
      (0xDC00 ≤ low ∧ low < 0xE000) ∧ ∃ digits behind, digits.length = 4 ∧ HexNumeral digits low ∧
        text = '\\' :: 'u' :: (digits ++ behind) := by
  constructor
  · intro found
    unfold lowSurrogate? at found
    split at found
    · next rest =>
      cases read : hexRun 4 0 rest with
      | mk outcome width =>
        rw [read] at found
        cases outcome with
        | error cause => cases found
        | ok code =>
          obtain ⟨-, four, denotes⟩ := numeral_of_hexRun read
          dsimp only at found
          split_ifs at found with isLow
          cases found
          exact ⟨isLow, _, _, four, denotes, by rw [List.take_append_drop]⟩
    · cases found
  · rintro ⟨isLow, digits, behind, four, denotes, rfl⟩
    have read := denotes.hexRun behind
    rw [four] at read
    simp only [lowSurrogate?, read]
    exact if_pos isLow

/-! ## Escapes -/

theorem hexValue?_of_octal {c : Char} (octal : (octalValue? c).isSome = true) :
    (hexValue? c).isSome = true := by
  rw [hexValue?, if_pos (isDigit_of_octal octal)]
  rfl

namespace Escape

variable {escape value : List Char}

theorem ne_nil (known : Escape escape value) : escape ≠ [] := by
  cases known <;> simp

/-- Behind the first character of an escape stand digits, braces and the beginning of another one. -/
theorem tail (known : Escape escape value) {c : Char} (listed : c ∈ escape.tail) :
    (hexValue? c).isSome = true ∨ c ∈ "\\u\x7b\x7d".toList := by
  cases known with
  | letter | lineBreak | itself => simp at listed
  | byte _ denotes => exact .inl (denotes.isSome listed)
  | unit _ denotes => exact .inl (denotes.isSome listed)
  | pair _ _ denotes denotes' =>
    simp only [List.tail_cons, List.mem_append, List.mem_cons] at listed
    rcases listed with listed | rfl | rfl | listed
    · exact .inl (denotes.isSome listed)
    · exact .inr (by decide)
    · exact .inr (by decide)
    · exact .inl (denotes'.isSome listed)
  | braced _ denotes =>
    simp only [List.tail_cons, List.mem_append, List.mem_cons, List.not_mem_nil, or_false] at listed
    rcases listed with rfl | listed | rfl
    · exact .inr (by decide)
    · exact .inl (denotes.isSome listed)
    · exact .inr (by decide)
  | octal denotes =>
    exact .inl (hexValue?_of_octal (denotes.isSome (List.mem_cons_of_mem _ listed)))

/-- Where an escape stands, there is a longest one. By induction on the text behind the escape. -/
theorem exists_longest (known : Escape escape value) (behind : List Char) :
    ∃ longer value' behind', escape ++ behind = longer ++ behind' ∧ Escape longer value' ∧
      Longest longer behind' ∧ escape.length ≤ longer.length := by
  induction h : behind.length using Nat.strong_induction_on
    generalizing escape value behind with
  | _ room ih =>
    by_cases longest : Longest escape behind
    · exact ⟨escape, value, behind, rfl, known, longest, Nat.le_refl _⟩
    · simp only [Longest, not_forall, Nat.not_le] at longest
      obtain ⟨other, value', known', ⟨behind', same⟩, longer⟩ := longest
      have shorter : behind'.length < room := by
        have lengths := congrArg List.length same
        simp only [List.length_append] at lengths
        omega
      obtain ⟨last, value'', behind'', same', known'', longest, further⟩ :=
        ih _ shorter known' behind' rfl
      exact ⟨last, value'', behind'', same.symm.trans same', known'', longest, by omega⟩

end Escape

/-- The text behind the longest escape may be cut short. -/
theorem Longest.of_append {escape behind more : List Char}
    (longest : Longest escape (behind ++ more)) : Longest escape behind := by
  intro other value known within
  refine longest other value known (within.trans ?_)
  rw [← List.append_assoc]
  exact List.prefix_append _ _

/-- A character that stands in no escape but at its beginning may follow the text behind the longest
escape. -/
theorem Longest.concat {escape value behind : List Char} (longest : Longest escape behind)
    (known : Escape escape value) {c : Char} (digit : hexValue? c = none)
    (other : c ∉ "\\u\x7b\x7d".toList) : Longest escape (behind ++ [c]) := by
  intro longer value' known' within
  rw [← List.append_assoc, List.prefix_concat_iff] at within
  rcases within with same | within
  · obtain ⟨first, rest, rfl⟩ := List.exists_cons_of_ne_nil known.ne_nil
    have listed : c ∈ longer.tail := by
      rw [same]
      simp
    rcases known'.tail listed with hex | mark
    · rw [digit] at hex
      cases hex
    · exact absurd mark other
  · exact longest longer value' known' within

/-! ## Reading the longest escape -/

/-- Octal digits are read up to the length that the first allows, or up to another character. -/
theorem octalRun_append {first : Char} {digits behind : List Char}
    (octal : ∀ c ∈ first :: digits, (octalValue? c).isSome = true)
    (short : digits.length ≤ if first ≤ '3' then 2 else 1)
    (ends : (digits.length < if first ≤ '3' then 2 else 1) →
      ∀ c ∈ behind.head?, octalValue? c = none) :
    octalRun (first :: digits ++ behind) = first :: digits := by
  have all : ∀ c ∈ digits, (octalValue? c).isSome = true :=
    fun c listed => octal c (List.mem_cons_of_mem _ listed)
  have stops : (behind.take ((if first ≤ '3' then 2 else 1) - digits.length)).takeWhile
      (fun c => (octalValue? c).isSome) = [] := by
    rcases Nat.lt_or_ge digits.length (if first ≤ '3' then 2 else 1) with room | full
    · cases behind with
      | nil => simp
      | cons c behind =>
        have other := ends room c rfl
        obtain ⟨left, same⟩ := Nat.exists_eq_succ_of_ne_zero (Nat.sub_ne_zero_of_lt room)
        rw [same, List.take_succ_cons, List.takeWhile_cons_of_neg (by simp [other])]
    · rw [Nat.sub_eq_zero_of_le full, List.take_zero, List.takeWhile_nil]
  rw [List.cons_append, octalRun, if_pos (octal first List.mem_cons_self)]
  dsimp only
  rw [List.take_append, List.take_of_length_le short, List.takeWhile_append_of_pos all, stops,
    List.append_nil]

/-- Behind the longest octal escape stands no digit that could belong to it. -/
theorem octal_ends {first : Char} {digits behind : List Char} {code : Nat}
    (denotes : Numeral octalValue? 8 (first :: digits) code)
    (longest : Longest (first :: digits) behind)
    (room : digits.length < if first ≤ '3' then 2 else 1) :
    ∀ c ∈ behind.head?, octalValue? c = none := by
  intro c begins
  obtain ⟨rest, rfl⟩ := List.head?_eq_some_iff.1 begins
  refine Option.not_isSome_iff_eq_none.1 fun octal => ?_
  have all : ∀ d ∈ first :: (digits ++ [c]), (octalValue? d).isSome = true := by
    intro d listed
    rw [← List.cons_append] at listed
    rcases List.mem_append.1 listed with listed | same
    · exact denotes.isSome listed
    · exact List.mem_singleton.1 same ▸ octal
  have longer : Escape (first :: (digits ++ [c])) _ :=
    .octal (.of_all all) (by rw [List.length_append]; exact room)
  have bound := longest _ _ longer ⟨rest, by simp⟩
  simp only [List.length_cons, List.length_append, List.length_nil] at bound
  omega

/-- Behind the longest escape of the high half of a surrogate pair stands no low half. -/
theorem high_alone {digits behind : List Char} {high : Nat} (four : digits.length = 4)
    (denotes : HexNumeral digits high) (isHigh : 0xD800 ≤ high ∧ high < 0xDC00)
    (longest : Longest ('u' :: digits) behind) : lowSurrogate? behind = none := by
  refine Option.eq_none_iff_forall_ne_some.2 fun low found => ?_
  obtain ⟨isLow, digits', rest, four', denotes', rfl⟩ := lowSurrogate?_eq_some.1 found
  have bound := longest _ _ (.pair four four' denotes denotes' isHigh isLow) ⟨rest, by simp⟩
  simp only [List.length_cons, List.length_append] at bound
  omega

/-- Hexadecimal digits begin with no brace. -/
theorem ne_brace {digits : List Char} {code : Nat} (denotes : HexNumeral digits code) {c : Char}
    (listed : c ∈ digits) : c ≠ '\x7b' ∧ c ≠ '\x7d' ∧ c ≠ '+' := by
  have digit := denotes.isSome listed
  refine ⟨?_, ?_, ?_⟩
  all_goals
    rintro rfl
    exact absurd digit (by decide)

theorem unicodeEscape_digitEscape {digits : List Char} {code : Nat} (four : digits.length = 4)
    (denotes : HexNumeral digits code) (behind : List Char) :
    unicodeEscape (digits ++ behind) = digitEscape (digits ++ behind) := by
  cases digits with
  | nil => cases four
  | cons c digits => exact unicodeEscape_digits_eq (ne_brace denotes List.mem_cons_self).1 _

/-- The closing brace stands behind the digits. -/
theorem findPattern_brace {digits : List Char} (other : ∀ c ∈ digits, c ≠ '\x7d')
    (behind : List Char) :
    findPattern ['\x7d'] (digits ++ '\x7d' :: behind) = some digits.length := by
  induction digits with
  | nil => simp [findPattern]
  | cons c digits ih =>
    have apart : ('\x7d' == c) = false := beq_false_of_ne (other c List.mem_cons_self).symm
    rw [List.cons_append, findPattern, List.isPrefixOf, apart, Bool.false_and,
      if_neg Bool.false_ne_true, ih fun c listed => other c (List.mem_cons_of_mem _ listed)]
    rfl

/-- The code point of a numeral between braces. -/
theorem bracedCode?_of_numeral {digits : List Char} {code : Nat} (filled : digits ≠ [])
    (denotes : HexNumeral digits code) (fits : code < 0x100000000) : bracedCode? digits = some code := by
  have all : digits.all (fun c => (hexValue? c).isSome) = true :=
    List.all_eq_true.2 fun c => denotes.isSome
  have room : code < Nat.pow 2 32 := fits
  unfold bracedCode?
  split
  · exact absurd rfl (ne_brace denotes List.mem_cons_self).2.2
  · simp [filled, all, denotes.sum, room]

/-- A code point between braces is that of a numeral, or has a plus sign before its digits. -/
theorem numeral_of_bracedCode? {digits : List Char} {code : Nat}
    (found : bracedCode? digits = some code) :
    (digits ≠ [] ∧ HexNumeral digits code ∧ code < 0x100000000) ∨
      ∃ body, digits = '+' :: body ∧ body ≠ [] ∧ ∀ c ∈ body, (hexValue? c).isSome = true := by
  unfold bracedCode? at found
  split at found
  · next body =>
    dsimp only at found
    split_ifs at found with none_
    simp only [Bool.or_eq_true, List.isEmpty_iff, Bool.not_eq_true', not_or,
      Bool.not_eq_false] at none_
    exact .inr ⟨body, rfl, none_.1, List.all_eq_true.1 none_.2⟩
  · dsimp only at found
    split_ifs at found with none_ fits
    simp only [Bool.or_eq_true, List.isEmpty_iff, Bool.not_eq_true', not_or,
      Bool.not_eq_false] at none_
    cases found
    exact .inl ⟨none_.1, .of_all (List.all_eq_true.1 none_.2), fits⟩

/-- A character that stands for itself is no octal digit. -/
theorem octalValue?_of_other {c : Char} (other : c ∉ "01234567".toList) : octalValue? c = none := by
  refine Option.not_isSome_iff_eq_none.1 fun octal => other ?_
  have cut : "0123456789".toList = "01234567".toList ++ ['8', '9'] := by decide
  have listed := mem_digits (isDigit_of_octal octal)
  rw [cut, List.mem_append] at listed
  refine listed.resolve_right fun high => ?_
  rcases List.mem_pair.1 high with rfl | rfl
  · exact absurd octal (by decide)
  · exact absurd octal (by decide)

/-- Behind a `u` the escape of a code point is read. -/
theorem stringEscape_u (text : List Char) :
    stringEscape ('u' :: text) = ((unicodeEscape text).map fun char => [char]).behind 1 := by
  simp [stringEscape, octalRun, octalValue?]

/-- Four digits are read alone, unless they are the high half of a surrogate pair before a low one. -/
theorem digitEscape_alone {digits behind : List Char} {code : Nat} (four : digits.length = 4)
    (denotes : HexNumeral digits code)
    (alone : 0xD800 ≤ code ∧ code < 0xDC00 → lowSurrogate? behind = none) :
    digitEscape (digits ++ behind) = .found (charOfCode code) 4 := by
  have read := denotes.hexRun behind
  rw [four] at read
  rw [digitEscape, read, andThen_found, ← four, List.drop_left]
  split_ifs with isHigh
  · rw [alone isHigh]
    rfl
  · rfl

/-- The two halves of a surrogate pair are read together. -/
theorem digitEscape_pair {digits behind : List Char} {high low : Nat} (four : digits.length = 4)
    (denotes : HexNumeral digits high) (isHigh : 0xD800 ≤ high ∧ high < 0xDC00)
    (found : lowSurrogate? behind = some low) :
    digitEscape (digits ++ behind)
      = .found (charOfCode (0x10000 + (high - 0xD800) * 1024 + (low - 0xDC00))) 10 := by
  have read := denotes.hexRun behind
  rw [four] at read
  rw [digitEscape, read, andThen_found, ← four, List.drop_left, if_pos isHigh, found, four]
  rfl

/-- The longest escape is read. -/
theorem stringEscape_of_longest {escape value behind : List Char} (known : Escape escape value)
    (longest : Longest escape behind) :
    stringEscape (escape ++ behind) = .found value escape.length := by
  cases known with
  | letter known =>
    have listed : letters ⊆ [('"', '"'), ('\\', '\\'), ('n', '\n'), ('r', '\r'), ('t', '\t'),
        ('b', '\u0008'), ('f', '\u000c'), ('v', '\u000b')] := by decide
    exact stringEscape_letter _ _ (listed known) behind
  | byte two denotes =>
    have read := denotes.hexRun behind
    rw [two] at read
    simp [stringEscape, octalRun, octalValue?, read, two]
  | unit four denotes =>
    rw [List.cons_append, stringEscape_u, unicodeEscape_digitEscape four denotes,
      digitEscape_alone four denotes fun isHigh => high_alone four denotes isHigh longest]
    simp [four]
  | pair four four' denotes denotes' isHigh isLow =>
    have low := lowSurrogate?_eq_some.2 ⟨isLow, _, behind, four', denotes', rfl⟩
    rw [List.cons_append, List.append_assoc, stringEscape_u, unicodeEscape_digitEscape four denotes,
      List.cons_append, List.cons_append, digitEscape_pair four denotes isHigh low]
    simp [four, four']
  | braced filled denotes fits =>
    have closed := findPattern_brace (fun c listed => (ne_brace denotes listed).2.1) behind
    have read := bracedCode?_of_numeral filled denotes fits
    rw [List.cons_append, stringEscape_u]
    simp [unicodeEscape, closed, read]
    exact congrArg _ (by omega)
  | octal denotes short =>
    have run := octalRun_append (fun c => denotes.isSome) short (octal_ends denotes longest)
    simp only [stringEscape, run, denotes.sum]
    rfl
  | lineBreak => simp [stringEscape, octalRun, octalValue?]
  | itself other =>
    have octal := octalValue?_of_other fun listed => other (List.mem_append_right "nrtbvfxu".toList
      (List.mem_append_left ['\n'] listed))
    simp at other
    simp [stringEscape, octalRun, octal, other]

/-! ## What is read is an escape -/

theorem found_inj {α : Type} {result result' : α} {width width' : Nat} :
    Scan.found result width = .found result' width' ↔ result = result' ∧ width = width' := by
  simp [Scan.found]

/-- The octal digits that are read are those of an escape. -/
theorem octal_of_octalRun {text : List Char} (some_ : octalRun text ≠ []) :
    ∃ first digits behind, text = first :: (digits ++ behind) ∧ octalRun text = first :: digits ∧
      (∀ c ∈ first :: digits, (octalValue? c).isSome = true) ∧
      digits.length ≤ if first ≤ '3' then 2 else 1 := by
  cases text with
  | nil => exact absurd rfl some_
  | cons first rest =>
    by_cases octal : (octalValue? first).isSome = true
    · rw [octalRun, if_pos octal]
      dsimp only
      generalize limited : (if first ≤ '3' then 2 else 1) = limit
      have leads : (rest.take limit).takeWhile (fun c => (octalValue? c).isSome) <+: rest :=
        (List.takeWhile_prefix _).trans (List.take_prefix _ _)
      obtain ⟨behind, same⟩ := leads
      refine ⟨first, _, behind, by rw [same], rfl, ?_, ?_⟩
      · intro c listed
        rcases List.mem_cons.1 listed with rfl | listed
        · exact octal
        · exact List.all_eq_true.1 List.all_takeWhile c listed
      · rw [limited]
        exact (List.takeWhile_prefix _).length_le.trans (List.length_take_le _ _)
    · exact absurd (by rw [octalRun, if_neg octal]) some_

/-- The escape of a code point that is read, behind its `u`, is one in the grammar. -/
theorem Escape.of_unicodeEscape {text : List Char} {char : Char} {width : Nat}
    (found : unicodeEscape text = .found char width) (unsigned : ¬ SignedEscape ('u' :: text)) :
    Escape ('u' :: text.take width) [char] := by
  cases text with
  | nil => cases found
  | cons c text =>
    by_cases brace : c = '\x7b'
    · subst brace
      simp only [unicodeEscape] at found
      split at found
      · cases found
      · next length closed =>
        obtain ⟨digits, behind, rfl, rfl⟩ := findPattern_some closed
        rw [List.take_left] at found
        split at found
        · next code braced =>
          cases found
          have taken : ('\x7b' :: (digits ++ (['\x7d'] ++ behind))).take (digits.length + 2)
              = '\x7b' :: (digits ++ ['\x7d']) := by
            simp [List.take_append]
          rw [taken]
          obtain numeral | signed := numeral_of_bracedCode? braced
          · exact .braced numeral.1 numeral.2.1 numeral.2.2
          · obtain ⟨body, rfl, filled, all⟩ := signed
            exact absurd ⟨body, behind, filled, all, rfl⟩ unsigned
        · cases found
    · rw [unicodeEscape_digits_eq brace] at found
      generalize c :: text = text at found
      obtain ⟨unit, taken, more, read, later, rfl⟩ := Scan.andThen_eq_found.1 found
      obtain ⟨rfl, four, denotes⟩ := numeral_of_hexRun read
      have alone (later : Scan.found (charOfCode unit) 0 = .found char more) :
          Escape ('u' :: text.take (4 + more)) [char] := by
        cases later
        exact .unit four denotes
      split_ifs at later with isHigh
      · cases low : lowSurrogate? (text.drop 4) with
        | none =>
          rw [low] at later
          exact alone later
        | some value =>
          rw [low] at later
          obtain ⟨rfl, rfl⟩ := found_inj.1 later
          obtain ⟨isLow, digits, behind, four', denotes', same⟩ := lowSurrogate?_eq_some.1 low
          have taken : (text.drop 4).take 6 = '\\' :: 'u' :: digits := by
            rw [same]
            simp [← four']
          rw [List.take_add, taken]
          exact .pair four four' denotes denotes' isHigh isLow
      · exact alone later

/-- A character that begins no escape by number is an escape by itself. -/
theorem Escape.of_escapedChar {c : Char} (digit : (octalValue? c).isSome = false) (x : c ≠ 'x')
    (u : c ≠ 'u') : Escape [c] (escapedChar c) := by
  have letter {name value : Char} (same : c = name) (known : (name, value) ∈ letters) :
      Escape [c] [value] :=
    same ▸ .letter known
  unfold escapedChar
  split_ifs with n r t b v f newline
  · exact letter n (by decide)
  · exact letter r (by decide)
  · exact letter t (by decide)
  · exact letter b (by decide)
  · exact letter v (by decide)
  · exact letter f (by decide)
  · exact newline ▸ .lineBreak
  · refine .itself fun listed => ?_
    simp [n, r, t, b, v, f, x, u, newline] at listed
    rcases listed with rfl | rfl | rfl | rfl | rfl | rfl | rfl | rfl
    all_goals exact absurd digit (by decide)

/-- What is read behind a backslash is an escape, unless it has a plus sign between braces. -/
theorem Escape.of_found {text value : List Char} {width : Nat}
    (found : stringEscape text = .found value width) (unsigned : ¬ SignedEscape text) :
    Escape (text.take width) value := by
  by_cases none_ : octalRun text = []
  · cases text with
    | nil => exact nomatch congrArg Scan.outcome found
    | cons c rest =>
      rw [stringEscape_cons] at found
      dsimp only at found
      rw [if_pos (List.isEmpty_iff.2 none_)] at found
      split_ifs at found with x u
      · subst x
        obtain ⟨taken, inner, rfl⟩ := Scan.behind_eq_found.1 found
        obtain ⟨code, read, rfl⟩ := Scan.map_eq_found.1 inner
        obtain ⟨rfl, two, denotes⟩ := numeral_of_hexRun read
        rw [Nat.add_comm, List.take_succ_cons]
        exact .byte two denotes
      · subst u
        obtain ⟨taken, inner, rfl⟩ := Scan.behind_eq_found.1 found
        obtain ⟨char, read, rfl⟩ := Scan.map_eq_found.1 inner
        rw [Nat.add_comm, List.take_succ_cons]
        exact .of_unicodeEscape read unsigned
      · obtain ⟨rfl, rfl⟩ := found_inj.1 found
        refine .of_escapedChar ?_ x u
        by_contra digit
        simp [octalRun, digit] at none_
  · obtain ⟨first, digits, behind, rfl, run, all, short⟩ := octal_of_octalRun none_
    simp only [stringEscape, run, List.isEmpty_cons] at found
    obtain ⟨rfl, rfl⟩ := found_inj.1 found
    have taken : (first :: (digits ++ behind)).take (first :: digits).length = first :: digits := by
      simp
    rw [taken]
    exact .octal (.of_all all) short

/-- What is read behind a backslash is the longest escape there. -/
theorem longest_of_found {text value : List Char} {width : Nat}
    (found : stringEscape text = .found value width) (within : width ≤ text.length) :
    Longest (text.take width) (text.drop width) := by
  intro other value' known begins
  rw [List.take_append_drop] at begins
  obtain ⟨behind, rfl⟩ := begins
  obtain ⟨longer, _, behind', same, known', longest, further⟩ := known.exists_longest behind
  rw [same, stringEscape_of_longest known' longest] at found
  obtain ⟨-, rfl⟩ := found_inj.1 found
  rw [List.length_take]
  omega

end Stencil.StringLiteral
