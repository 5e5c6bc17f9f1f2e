import Stencil.Proofs.Lexing.Streams
/-!
# Line breaks in spelt texts

No token is spelt with a line terminator other than the line feed. So unifying the line breaks of a
text changes only its blanks, and the tokens it spells stay the same (`Spells.unify`).

Normalizing a text twice is normalizing it once, unless it begins with two byte order marks: each
time the first character is dropped if it is a mark. So a normalized text is read as the text is
(`normalized_read_alike`).
-/

set_option autoImplicit false

namespace Stencil.Lexing

open Stencil.Number
open Stencil.Text
open Stencil.Text.Quoted (hexDigits4 literalChar)

/-! ## Characters of words -/

/-- The line terminators other than the line feed. -/
def foreignBreaks : List Char := ['\r', '\u2028', '\u2029']

/-- A foreign line break is one of the list. -/
theorem mem_foreignBreaks {c : Char} (foreign : isForeignBreak c = true) : c ∈ foreignBreaks := by
  simp only [isForeignBreak, Bool.or_eq_true, decide_eq_true_eq] at foreign
  simpa [foreignBreaks, or_assoc] using foreign

/-- No character of a list is a foreign line break, if none of the breaks is in the list. -/
theorem unbroken_of_list {cs : List Char} (apart : ∀ c ∈ foreignBreaks, c ∉ cs) {c : Char}
    (listed : c ∈ cs) : isForeignBreak c = false := by
  rw [← Bool.not_eq_true]
  intro foreign
  exact apart c (mem_foreignBreaks foreign) listed

/-- A blank other than the carriage return is no foreign line break. -/
theorem unbroken_blank {c : Char} (blank : isBlank c = true) (other : c ≠ '\r') :
    isForeignBreak c = false := by
  have table : ∀ n ∈ blankNumbers, Char.ofNat n ≠ '\r' →
      isForeignBreak (Char.ofNat n) = false := by
    decide
  have entry := table c.toNat (mem_blankNumbers blank)
  rw [Char.ofNat_toNat] at entry
  exact entry other

/-- A character of names is no foreign line break. -/
theorem unbroken_namePart {c : Char} (part : isNamePart c = true) : isForeignBreak c = false := by
  rw [← Bool.not_eq_true]
  intro foreign
  rw [isNamePart_foreign (.inl foreign)] at part
  exact absurd part (by decide)

/-- A number holds no foreign line break. -/
theorem unbroken_number {text : List Char} :
    ∀ {state last : NumberState}, statesThrough state text = some last →
      ∀ c ∈ text, isForeignBreak c = false := by
  have table : ∀ c ∈ foreignBreaks, c ≠ 'x' ∧ c ≠ 'X' ∧ c ≠ 'e' ∧ c ≠ 'E' ∧ c ≠ '-' ∧ c ≠ '+' ∧
      c ≠ '.' ∧ isDigit c = false := by
    decide
  induction text with
  | nil => simp
  | cons d text ih =>
    intro state last through c listed
    obtain ⟨next, step, rest⟩ := Option.bind_eq_some_iff.1 through
    rcases List.mem_cons.1 listed with rfl | listed
    · rw [← Bool.not_eq_true]
      intro foreign
      obtain ⟨x, X, e, E, minus, plus, point, digit⟩ := table c (mem_foreignBreaks foreign)
      have letter : isLetter c = false := by
        rw [← Bool.not_eq_true]
        intro letter
        have part : isNamePart c = true := by simp [isNamePart, isWordChar_of_isLetter letter]
        rw [unbroken_namePart part] at foreign
        exact absurd foreign (by decide)
      simp [NumberState.next?, x, X, e, E, minus, plus, point, isAlphanumeric, digit, letter] at step
    · exact ih rest c listed

/-- Hexadecimal digits are no foreign line breaks. -/
theorem unbroken_hexDigits4 (values : List Nat) {cs : List Char}
    (known : cs.map hexValue? = values.map some) : ∀ c ∈ cs, isForeignBreak c = false := by
  intro c listed
  rw [← Bool.not_eq_true]
  intro foreign
  have table : ∀ c ∈ foreignBreaks, hexValue? c = none := by decide
  have absent : none ∈ values.map some := by
    rw [← known, ← table c (mem_foreignBreaks foreign)]
    exact List.mem_map_of_mem listed
  simp at absent

/-- A string literal holds no foreign line break. -/
theorem unbroken_literalChar (d : Char) : ∀ c ∈ literalChar d, isForeignBreak c = false := by
  intro c listed
  unfold literalChar at listed
  have plain {cs : List Char} (apart : ∀ c ∈ foreignBreaks, c ∉ cs) (listed : c ∈ cs) :=
    unbroken_of_list apart listed
  repeat' split at listed
  · exact plain (by decide) listed
  · exact plain (by decide) listed
  · exact plain (by decide) listed
  · exact plain (by decide) listed
  · exact plain (by decide) listed
  · exact plain (by decide) listed
  · exact plain (by decide) listed
  · exact plain (by decide) listed
  · rename_i escaped
    simp only [Bool.or_eq_true, decide_eq_true_eq] at escaped
    rcases List.mem_cons.1 listed with rfl | listed
    · rfl
    rcases List.mem_cons.1 listed with rfl | listed
    · rfl
    rcases escaped with ((rfl | rfl) | rfl) | control
    · exact unbroken_hexDigits4 [2, 0, 2, 8] (by decide) c listed
    · exact unbroken_hexDigits4 [2, 0, 2, 9] (by decide) c listed
    · exact unbroken_hexDigits4 [15, 14, 15, 15] (by decide) c listed
    · exact unbroken_hexDigits4 _ (hexDigits4_values d.toNat (toNat_lt_of_isControl control)).2 c
        listed
  · rename_i other
    obtain rfl := List.mem_singleton.1 listed
    rw [← Bool.not_eq_true]
    intro foreign
    have table : ∀ c ∈ foreignBreaks, c = '\r' ∨ c = '\u2028' ∨ c = '\u2029' := by decide
    rcases table c (mem_foreignBreaks foreign) with rfl | rfl | rfl <;> simp_all

/-- The spelling of a name holds no foreign line break. -/
theorem unbroken_spelling {cs : List Char} (spelling : IsSpelling cs) :
    ∀ c ∈ cs, isForeignBreak c = false := by
  intro c listed
  rcases spelling with parts | ⟨word, reserved, rfl⟩
  · exact unbroken_namePart (List.all_eq_true.1 parts c listed)
  · have known := reservedWords_chars _ (mem_reservedWords reserved)
    rw [String.toList_ofList] at known
    obtain ⟨-, parts, small⟩ := known
    cases word with
    | nil => exact absurd listed List.not_mem_nil
    | cons first rest =>
      rw [respell, List.mem_append, List.mem_cons, List.mem_cons] at listed
      rcases listed with (rfl | rfl | digit) | listed
      · rfl
      · rfl
      · exact unbroken_hexDigits4 _ (hexDigits4_upper_values _ (small first (by simp))).2 c digit
      · exact unbroken_namePart (List.all_eq_true.1 parts c (List.mem_cons_of_mem _ listed))

/-- A word holds no foreign line break. -/
theorem Word.unbroken {regexp : Bool} {kind : TokenKind} {word : List Char}
    (spelt : Word regexp kind word) : ∀ c ∈ word, isForeignBreak c = false := by
  cases spelt with
  | number known =>
    obtain ⟨-, last, through, -⟩ := statesThrough_value? known
    exact unbroken_number through
  | string text =>
    intro c listed
    rw [Quoted.literal, String.toList_ofList, List.mem_cons, List.mem_append, List.mem_flatMap,
      List.mem_singleton] at listed
    rcases listed with rfl | ⟨d, -, listed⟩ | rfl
    · rfl
    · exact unbroken_literalChar d c listed
    · rfl
  | name spelt => exact unbroken_spelling spelt.begins.1
  | symbol known =>
    have table : ∀ symbol ∈ symbolOperators, ∀ c ∈ symbol.toList, isForeignBreak c = false := by
      decide
    exact table _ known
  | punctuation known =>
    have table : ∀ c ∈ "[]\x7b\x7d(),;:".toList, isForeignBreak c = false := by decide
    simpa using table _ (List.contains_iff_mem.1 known)
  | point => simp [isForeignBreak]
  | regexp proper nonempty star spelling unbroken =>
    intro c listed
    rw [List.mem_cons, List.mem_append, List.mem_cons] at listed
    rcases listed with rfl | listed | rfl | listed
    · rfl
    · exact unbroken c listed
    · rfl
    · exact unbroken_spelling spelling c listed

/-! ## Unifying line breaks -/

/-- A character that is no foreign line break stays. -/
theorem unifyBreaks_cons {c : Char} (own : isForeignBreak c = false) (rest : List Char) :
    unifyBreaks (c :: rest) = c :: unifyBreaks rest := by
  have return_ : c ≠ '\r' := by
    rintro rfl
    exact absurd own (by decide)
  rw [unifyBreaks, own]
  · rfl
  · intro more same
    exact absurd same return_

/-- A run without foreign line breaks stays. -/
theorem unifyBreaks_append {cs : List Char} (own : ∀ c ∈ cs, isForeignBreak c = false)
    (rest : List Char) : unifyBreaks (cs ++ rest) = cs ++ unifyBreaks rest := by
  induction cs with
  | nil => rfl
  | cons c cs ih =>
    rw [List.cons_append, unifyBreaks_cons (own c (by simp)),
      ih fun d listed => own d (List.mem_cons_of_mem _ listed)]
    rfl

/-- A text without foreign line breaks stays. -/
theorem unifyBreaks_of_unbroken {cs : List Char} (own : ∀ c ∈ cs, isForeignBreak c = false) :
    unifyBreaks cs = cs := by
  have same := unifyBreaks_append own []
  rwa [List.append_nil, unifyBreaks, List.append_nil] at same

namespace Spells

variable {s s' : Phase} {faces : List Face} {text : List Char}

/-- A text of blanks and words holds no foreign line break, where carriage returns are not
allowed. -/
theorem unbroken (spelt : Spells s faces text s') (barred : s.returns = false) :
    ∀ c ∈ text, isForeignBreak c = false := by
  induction spelt with
  | nil => simp
  | @blank s s' d faces text blank broken rest ih =>
    intro c listed
    rcases List.mem_cons.1 listed with rfl | listed
    · apply unbroken_blank blank
      intro same
      rw [(broken same).1] at barred
      exact absurd barred (by decide)
    · exact ih barred c listed
  | word spelt admitted held joined unplaced rest ih =>
    intro c listed
    rcases List.mem_append.1 listed with listed | listed
    · exact spelt.unbroken c listed
    · exact ih barred c listed

/-- The text spells the same tokens when its line breaks are unified. -/
theorem unify (spelt : Spells s faces text s') : Spells s faces (unifyBreaks text) s' := by
  induction spelt with
  | nil => exact .nil
  | @blank s s' c faces text blank broken rest ih =>
    by_cases return_ : c = '\r'
    · subst return_
      obtain ⟨allowed, broke, fresh⟩ := broken rfl
      -- Behind a line break further ones change nothing.
      have same : ∀ d, s.past d = s := by
        intro d
        cases s
        simp_all [Phase.past]
      rw [same] at ih
      by_cases feed : ∃ tail, text = '\n' :: tail
      · obtain ⟨tail, rfl⟩ := feed
        exact ih
      · rw [unifyBreaks]
        · refine .blank (by decide) (by simp [isForeignBreak]) ?_
          rw [same]
          exact ih
        · rintro tail - rfl
          exact feed ⟨tail, rfl⟩
    · rw [unifyBreaks_cons (unbroken_blank blank return_)]
      exact .blank blank broken ih
  | word spelt admitted held joined unplaced rest ih =>
    rw [unifyBreaks_append spelt.unbroken]
    exact .word spelt admitted held joined unplaced ih

end Spells

end Stencil.Lexing

namespace Stencil

open Stencil.Lexing (unifyBreaks_of_unbroken)

namespace Text

/-! ## Normalized texts -/

variable {text : List Char}

/-- Only a byte order mark at the start is dropped. -/
theorem normalize_unmarked (unmarked : text.head? ≠ some '\ufeff') :
    normalize text = unifyBreaks text := by
  unfold normalize
  split
  · exact absurd rfl unmarked
  · rfl

/-- A text without foreign line breaks and without a mark at its start stays. -/
theorem normalize_of_unbroken (own : ∀ c ∈ text, isForeignBreak c = false)
    (unmarked : text.head? ≠ some '\ufeff') : normalize text = text := by
  rw [normalize_unmarked unmarked, unifyBreaks_of_unbroken own]

/-- A word is its own normalized text. -/
theorem normalize_word {regexp : Bool} {kind : TokenKind} (spelt : Lexing.Word regexp kind text) :
    normalize text = text := by
  refine normalize_of_unbroken spelt.unbroken fun marked => ?_
  obtain ⟨c, tail, rfl, -, apart, -⟩ := spelt.begins
  exact apart (Option.some.inj marked)

/-- Unifying line breaks brings no mark to the start of a text. -/
theorem head?_unifyBreaks (unmarked : text.head? ≠ some '\ufeff') :
    (unifyBreaks text).head? ≠ some '\ufeff' := by
  fun_cases unifyBreaks text with
  | case1 => simp
  | case2 rest => simp
  | case3 c rest =>
    rw [List.head?_cons] at unmarked ⊢
    split
    · decide
    · exact unmarked

/-- The text begins with as many byte order marks. -/
def Marked (count : Nat) (text : List Char) : Prop :=
  List.replicate count '\ufeff' <+: text

instance (count : Nat) (text : List Char) : Decidable (Marked count text) :=
  inferInstanceAs (Decidable (List.replicate count '\ufeff' <+: text))

/-- Of two marks at the start of a text, normalizing leaves the second. -/
theorem normalize_marked (rest : List Char) :
    normalize ('\ufeff' :: '\ufeff' :: rest) = '\ufeff' :: unifyBreaks rest := by
  rfl

/-- A normalized text is normalized to itself, unless the text began with two marks. -/
theorem normalize_normalize (once : ¬ Marked 2 text) : normalize (normalize text) = normalize text := by
  refine normalize_of_unbroken (fun _ => normalize_free) ?_
  by_cases marked : text.head? = some '\ufeff'
  · obtain ⟨rest, rfl⟩ := List.head?_eq_some_iff.1 marked
    refine head?_unifyBreaks fun second => once ?_
    obtain ⟨rest, rfl⟩ := List.head?_eq_some_iff.1 second
    exact ⟨rest, rfl⟩
  · rw [normalize_unmarked marked]
    exact head?_unifyBreaks marked

end Text

open Stencil.Text

/-! ## Reading normalized texts -/

/-- A lexer of a script stops at a byte order mark at the start of its text. -/
theorem Lexer.next_mark (rest : List Char) :
    (Lexer.ofText false ('\ufeff' :: rest)).next.1
      = .error (.ofFault (.strayCharacter "\ufeff") (.point .origin)) := by
  have plain : isBlank '\ufeff' = false ∧ isDigit '\ufeff' = false ∧
      isOperatorChar '\ufeff' = false ∧ isPunctuation '\ufeff' = false ∧
      isNameStart '\ufeff' = false := by
    decide +kernel
  have code : (Lexer.ofText false ('\ufeff' :: rest)).mode ≠ .text := by simp [Lexer.ofText]
  have begun : (Lexer.ofText false ('\ufeff' :: rest)).rest = [] ++ '\ufeff' :: rest := rfl
  have stands : (Lexer.ofText false ('\ufeff' :: rest)).mark = Lexer.ofText false ('\ufeff' :: rest) :=
    rfl
  rw [Lexing.next_of_blanks code begun rfl (by simp [plain])
    (Lexing.beginsNoComment_of_head (by simp)), Lexing.settled_nil, stands, Lexer.readToken]
  simp [Lexer.readCode, Lexer.ofText, Lexer.countsBraces, plain, Lexer.fault, Lexer.span, Span.point]

/-- A script that begins with a mark, behind one that is dropped, has no tokens. -/
theorem tokenize_marked (rest : List Char) :
    tokenize false ('\ufeff' :: '\ufeff' :: rest)
      = .error (.ofFault (.strayCharacter "\ufeff") (.point .origin)) := by
  have stops := Lexer.next_mark (unifyBreaks rest)
  rw [tokenize, Lexer.ofSource, normalize_marked, Lexer.tokensWithin]
  split
  · next read =>
    rw [read] at stops
    exact congrArg Except.error (Except.error.inj stops)
  · next read =>
    rw [read] at stops
    cases stops

/-- A normalized text holds no carriage return, line separator or paragraph separator. It is read as
the source is: to the same tokens at the same places, or to the same error. For a source that begins
with two byte order marks this holds only if it is a script with a third mark, where the reader stops;
else the normalized source, of which the second mark is dropped in turn, is read as the source without
its first mark. -/
theorem normalized_read_alike (template : Bool) (source : List Char) :
    (∀ c ∈ normalize source, c ≠ '\r' ∧ c ≠ '\u2028' ∧ c ≠ '\u2029') ∧
      (¬ Marked 2 source ∨ template = false ∧ Marked 3 source →
        tokenize template (normalize source) = tokenize template source) ∧
      ∀ rest, source = '\ufeff' :: '\ufeff' :: rest →
        tokenize template (normalize source) = tokenize template ('\ufeff' :: rest) := by
  refine ⟨?_, ?_, ?_⟩
  · intro c listed
    simpa [isForeignBreak, and_assoc] using normalize_free listed
  · rintro (once | ⟨rfl, rest, rfl⟩)
    · unfold tokenize Lexer.ofSource
      rw [normalize_normalize once]
    · exact (tokenize_marked _).trans (tokenize_marked _).symm
  · rintro rest rfl
    have same : normalize ('\ufeff' :: unifyBreaks rest) = normalize ('\ufeff' :: rest) :=
      unifyBreaks_of_unbroken fun _ => isForeignBreak_of_mem_unifyBreaks
    unfold tokenize Lexer.ofSource
    rw [normalize_marked, same]

/-- A mark at the start, and each of the line terminators. -/
theorem normalized_read_alike_breaks :
    normalize "\ufeffa\r\nb\rc\u2028d".toList = "a\nb\nc\nd".toList ∧
      tokenize false "a\nb\nc\nd".toList = tokenize false "\ufeffa\r\nb\rc\u2028d".toList :=
  ⟨by decide, (normalized_read_alike false "\ufeffa\r\nb\rc\u2028d".toList).2.1 (.inl (by decide))⟩

/-- Of two marks at the start of a template, one belongs to its text; at the start of a script it is in
the way of the name behind it. Once the source is normalized, it is dropped in turn. -/
theorem second_mark_dropped :
    tokenize true (normalize ['\ufeff', '\ufeff', 'a']) ≠ tokenize true ['\ufeff', '\ufeff', 'a'] ∧
      tokenize false (normalize ['\ufeff', '\ufeff', 'a'])
        ≠ tokenize false ['\ufeff', '\ufeff', 'a'] := by
  refine ⟨fun same => ?_, fun same => ?_⟩
  · have once : ((tokenize true ['\ufeff', '\ufeff', 'a']).toOption.bind List.head?).map
        (·.span.stop.byte) = some 4 := by
      decide +kernel
    have twice : ((tokenize true (normalize ['\ufeff', '\ufeff', 'a'])).toOption.bind List.head?).map
        (·.span.stop.byte) = some 1 := by
      decide +kernel
    rw [same, once] at twice
    exact absurd twice (by decide)
  · have read : (tokenize false (normalize ['\ufeff', '\ufeff', 'a'])).toOption.isSome = true := by
      decide +kernel
    rw [same, tokenize_marked] at read
    cases read

end Stencil
