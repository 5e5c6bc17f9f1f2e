import Stencil.Proofs.Lexing.Modes
import Stencil.Proofs.Lexing.ReadingEnds
/-!
# Reading an excerpt

A token does not depend on what stands behind it in the text. A scan that stays within the beginning
of a text finds the same in that beginning alone (`Confined`), so a lexer before a whole text and one
before its beginning read the same tokens as long as these end within the beginning
(`Lexer.Cut.next`). The second lexer reads a script; the first may be anywhere in code, so the braces
that it counts make no difference either, unless one of them ends the code.
-/

set_option autoImplicit false

namespace Stencil

open Stencil.Error (Fault)
open Stencil.Text

/-! ## Runs and patterns -/

/-- A run that ends within the beginning of a text is a run of that beginning. -/
theorem takeWhile_within {α : Type} {p : α → Bool} {text tail : List α}
    (within : ((text ++ tail).takeWhile p).length ≤ text.length) :
    (text ++ tail).takeWhile p = text.takeWhile p := by
  rw [List.takeWhile_append] at within ⊢
  split_ifs at within ⊢ with whole
  · have none_ : tail.takeWhile p = [] := by
      rw [List.length_append] at within
      exact List.eq_nil_of_length_eq_zero (by omega)
    rw [none_, List.append_nil]
    exact ((List.takeWhile_prefix p).eq_of_length whole).symm
  · rfl

/-- A pattern that is found within the beginning of a text is found there. By induction on the
beginning. -/
theorem findPattern_within {pattern text tail : List Char} {length : Nat}
    (found : findPattern pattern (text ++ tail) = some length)
    (within : length + pattern.length ≤ text.length) : findPattern pattern text = some length := by
  induction text generalizing length with
  | nil =>
    obtain ⟨rfl, none_⟩ : length = 0 ∧ pattern.length = 0 := by
      rw [List.length_nil] at within
      omega
    simp [findPattern, List.eq_nil_of_length_eq_zero none_]
  | cons c text ih =>
    rw [List.cons_append] at found
    unfold findPattern at found ⊢
    have begins (fits : pattern.length ≤ (c :: text).length) :
        pattern.isPrefixOf (c :: (text ++ tail)) = pattern.isPrefixOf (c :: text) := by
      rw [Bool.eq_iff_iff, List.isPrefixOf_iff_prefix, List.isPrefixOf_iff_prefix]
      exact ⟨fun begun => List.prefix_of_prefix_length_le begun (List.prefix_append _ tail) fits,
        fun begun => begun.trans (List.prefix_append _ tail)⟩
    rw [begins (by omega)] at found
    split_ifs at found ⊢
    · exact found
    · obtain ⟨later, sought, rfl⟩ := Option.map_eq_some_iff.1 found
      rw [ih sought (by rw [List.length_cons] at within; omega)]
      rfl

/-! ## Scans -/

namespace Scan

variable {α β : Type} {scan : Scan α} {result : β} {width : Nat}

theorem map_eq_found {f : α → β} :
    scan.map f = .found result width ↔ ∃ a, scan = .found a width ∧ f a = result := by
  obtain ⟨outcome, taken⟩ := scan
  cases outcome <;> simp [Scan.map, Scan.found, Except.map, and_comm]

theorem behind_eq_found {scan : Scan β} {more : Nat} :
    scan.behind more = .found result width ↔
      ∃ taken, scan = .found result taken ∧ width = more + taken := by
  obtain ⟨outcome, taken⟩ := scan
  simp [Scan.behind, Scan.found, eq_comm]

theorem andThen_eq_found {text : List Char} {next : α → List Char → Scan β} :
    scan.andThen text next = .found result width ↔
      ∃ a taken more, scan = .found a taken ∧ next a (text.drop taken) = .found result more ∧
        width = taken + more := by
  obtain ⟨outcome, taken⟩ := scan
  cases outcome with
  | error cause => simp [Scan.andThen, Scan.found, Scan.failed]
  | ok a =>
    simp only [Scan.andThen, behind_eq_found]
    constructor
    · rintro ⟨more, found, rfl⟩
      exact ⟨a, taken, more, rfl, found, rfl⟩
    · rintro ⟨_, _, more, same, found, rfl⟩
      cases same
      exact ⟨more, found, rfl⟩

end Scan

/-- A reader finds within the beginning of a text what it finds in that beginning alone. -/
structure Confined {α : Type} (read : List Char → Scan α) : Prop where
  within : ∀ {text tail : List Char} {result : α} {width : Nat},
    read (text ++ tail) = .found result width → width ≤ text.length →
      read text = .found result width

section Confined

variable {α β : Type}

theorem Confined.map {read : List Char → Scan α} (confined : Confined read) (f : α → β) :
    Confined fun text => (read text).map f := by
  constructor
  intro text tail result width found within
  obtain ⟨a, inner, rfl⟩ := Scan.map_eq_found.1 found
  exact Scan.map_eq_found.2 ⟨a, confined.within inner within, rfl⟩

theorem Confined.andThen {read : List Char → Scan α} {next : α → List Char → Scan β}
    (first : Confined read) (second : ∀ a, Confined (next a)) :
    Confined fun text => (read text).andThen text next := by
  constructor
  intro text tail result width found within
  obtain ⟨a, taken, more, inner, later, rfl⟩ := Scan.andThen_eq_found.1 found
  rw [List.drop_append_of_le_length (by omega)] at later
  refine Scan.andThen_eq_found.2 ⟨a, taken, more, first.within inner (by omega), ?_, rfl⟩
  exact (second a).within later (by rw [List.length_drop]; omega)

/-- What is found behind a character that is there. -/
theorem Confined.behind {read : List Char → Scan α} (confined : Confined read) {c : Char}
    {text tail : List Char} {result : α} {width : Nat}
    (found : (read (text ++ tail)).behind 1 = .found result width)
    (within : width ≤ (c :: text).length) : (read text).behind 1 = .found result width := by
  obtain ⟨taken, inner, rfl⟩ := Scan.behind_eq_found.1 found
  rw [List.length_cons] at within
  exact Scan.behind_eq_found.2 ⟨taken, confined.within inner (by omega), rfl⟩

theorem not_behind_zero {scan : Scan α} {result : α} (found : scan.behind 1 = .found result 0) :
    False := by
  obtain ⟨taken, -, width⟩ := Scan.behind_eq_found.1 found
  omega

end Confined

/-! ### Escapes -/

theorem hexRun_width {count code : Nat} {text : List Char} {result width : Nat}
    (found : hexRun count code text = .found result width) : width = count := by
  induction count generalizing code text width with
  | zero =>
    cases found
    rfl
  | succ count ih =>
    cases text with
    | nil => cases found
    | cons c text =>
      unfold hexRun at found
      split at found
      · obtain ⟨taken, inner, rfl⟩ := Scan.behind_eq_found.1 found
        rw [ih inner, Nat.add_comm]
      · cases found

theorem confined_hexRun (count code : Nat) : Confined (hexRun count code) := by
  constructor
  intro text tail result width found within
  induction count generalizing code text width with
  | zero => exact found
  | succ count ih =>
    cases text with
    | nil =>
      have width := hexRun_width found
      simp at within
      omega
    | cons c text =>
      rw [List.cons_append] at found
      unfold hexRun at found ⊢
      split at found
      · obtain ⟨taken, inner, rfl⟩ := Scan.behind_eq_found.1 found
        rw [List.length_cons] at within
        exact Scan.behind_eq_found.2 ⟨taken, ih _ inner (by omega), rfl⟩
      · cases found

/-- Digits that are read are read with more text behind them. -/
theorem hexRun_append {count code : Nat} {text : List Char} (tail : List Char) {result width : Nat}
    (found : hexRun count code text = .found result width) :
    hexRun count code (text ++ tail) = .found result width := by
  induction count generalizing code text width with
  | zero => exact found
  | succ count ih =>
    cases text with
    | nil => cases found
    | cons c text =>
      rw [List.cons_append]
      unfold hexRun at found ⊢
      split at found
      · obtain ⟨taken, inner, rfl⟩ := Scan.behind_eq_found.1 found
        exact Scan.behind_eq_found.2 ⟨taken, ih inner, rfl⟩
      · cases found

/-- The low half of a surrogate pair is there with more text behind it. -/
theorem lowSurrogate?_append {text : List Char} (tail : List Char) {low : Nat}
    (found : lowSurrogate? text = some low) : lowSurrogate? (text ++ tail) = some low := by
  unfold lowSurrogate? at found
  split at found
  · next rest =>
    unfold lowSurrogate?
    simp only [List.cons_append]
    cases read : hexRun 4 0 rest with
    | mk outcome width =>
      rw [read] at found
      cases outcome with
      | error cause => cases found
      | ok code =>
        rw [hexRun_append tail read]
        exact found
  · cases found

/-- The low half of a surrogate pair that is found within the beginning of a text. -/
theorem lowSurrogate?_within {text tail : List Char} {low : Nat}
    (found : lowSurrogate? (text ++ tail) = some low) (within : 6 ≤ text.length) :
    lowSurrogate? text = some low := by
  obtain ⟨a, b, rest, rfl⟩ : ∃ a b rest, text = a :: b :: rest := by
    match text with
    | a :: b :: rest => exact ⟨a, b, rest, rfl⟩
    | [] | [_] => simp at within
  simp only [List.length_cons] at within
  unfold lowSurrogate? at found ⊢
  simp only [List.cons_append] at found
  split at found
  · next same =>
    simp only [List.cons.injEq] at same
    obtain ⟨rfl, rfl, rfl⟩ := same
    cases read : hexRun 4 0 (rest ++ tail) with
    | mk outcome width =>
      rw [read] at found
      cases outcome with
      | error cause => cases found
      | ok code =>
        have same := hexRun_width read
        simp only [(confined_hexRun 4 0).within read (by omega)]
        exact found
  · cases found

/-- Reads an escape without braces, behind its `\u`: four digits, or two such escapes that form a
surrogate pair. -/
def digitEscape (text : List Char) : Scan Char :=
  (hexRun 4 0 text).andThen text fun unit rest =>
    if 0xD800 ≤ unit ∧ unit < 0xDC00 then
      match lowSurrogate? rest with
      | some low => .found (charOfCode (0x10000 + (unit - 0xD800) * 1024 + (low - 0xDC00))) 6
      | none => .found (charOfCode unit) 0
    else .found (charOfCode unit) 0

theorem unicodeEscape_digits_eq {c : Char} (brace : c ≠ '\x7b') (rest : List Char) :
    unicodeEscape (c :: rest) = digitEscape (c :: rest) := by
  unfold unicodeEscape digitEscape
  split
  · next same => exact absurd (List.cons.inj same).1 brace
  · rfl

theorem confined_digitEscape : Confined digitEscape := by
  unfold digitEscape
  refine (confined_hexRun 4 0).andThen fun unit => ⟨?_⟩
  intro text tail result width found within
  split_ifs at found ⊢ with high
  · cases low : lowSurrogate? (text ++ tail) with
    | some value =>
      simp only [low] at found
      have wide : 6 = width := congrArg Scan.width found
      rw [lowSurrogate?_within low (by omega)]
      exact found
    | none =>
      simp only [low] at found
      cases other : lowSurrogate? text with
      | none => exact found
      | some value =>
        rw [lowSurrogate?_append tail other] at low
        cases low
  · exact found

/-- An escape takes a character. -/
theorem unicodeEscape_width {text : List Char} {result : Char} {width : Nat}
    (found : unicodeEscape text = .found result width) : 0 < width := by
  unfold unicodeEscape at found
  split at found
  · split at found
    · cases found
    · split at found
      · have wide := congrArg Scan.width found
        simp only [Scan.found] at wide
        omega
      · cases found
  · obtain ⟨a, taken, more, read, -, rfl⟩ := Scan.andThen_eq_found.1 found
    have wide := hexRun_width read
    omega

theorem confined_unicodeEscape : Confined unicodeEscape := by
  constructor
  intro text tail result width found within
  cases text with
  | nil =>
    have wide := unicodeEscape_width found
    rw [List.length_nil] at within
    omega
  | cons c text =>
    by_cases brace : c = '\x7b'
    · subst brace
      simp only [List.cons_append, unicodeEscape] at found ⊢
      split at found
      · cases found
      · next length closed =>
        split at found
        · next code braced =>
          cases found
          rw [List.length_cons] at within
          have inside : length + 1 ≤ text.length := by omega
          rw [findPattern_within closed inside]
          rw [List.take_append_of_le_length (by omega)] at braced
          simp only [braced]
        · cases found
    · rw [List.cons_append, unicodeEscape_digits_eq brace] at found
      rw [unicodeEscape_digits_eq brace]
      exact confined_digitEscape.within found within

/-! ### Strings and names -/

theorem octalRun_within {text tail : List Char}
    (within : (octalRun (text ++ tail)).length ≤ text.length) :
    octalRun (text ++ tail) = octalRun text := by
  cases text with
  | nil =>
    rw [List.nil_append] at within ⊢
    exact List.eq_nil_of_length_eq_zero (Nat.le_zero.1 within)
  | cons c text =>
    rw [List.cons_append] at within ⊢
    have run (more : Nat)
        (within : ((((text ++ tail).take more)).takeWhile fun c => (octalValue? c).isSome).length ≤
          text.length) :
        ((text ++ tail).take more).takeWhile (fun c => (octalValue? c).isSome) =
          (text.take more).takeWhile fun c => (octalValue? c).isSome := by
      rw [List.take_append] at within ⊢
      refine takeWhile_within ?_
      have taken := (List.takeWhile_prefix (l := (text ++ tail).take more)
        fun c => (octalValue? c).isSome).length_le
      rw [List.take_append] at taken
      simp only [List.length_append, List.length_take] at taken ⊢
      omega
    unfold octalRun at within ⊢
    dsimp only at within ⊢
    by_cases octal : (octalValue? c).isSome = true
    · rw [if_pos octal] at within ⊢
      rw [if_pos octal, run _ (by simpa using within)]
    · rw [if_neg octal, if_neg octal]

/-- An escape takes a character. -/
theorem stringEscape_width {text : List Char} {result : List Char} {width : Nat}
    (found : stringEscape text = .found result width) : 0 < width := by
  cases text with
  | nil => cases found
  | cons c text =>
    rw [Lexing.stringEscape_cons] at found
    dsimp only at found
    split_ifs at found with none_
    · obtain ⟨taken, -, rfl⟩ := Scan.behind_eq_found.1 found
      omega
    · obtain ⟨taken, -, rfl⟩ := Scan.behind_eq_found.1 found
      omega
    · cases found
      exact Nat.one_pos
    · cases found
      rw [List.isEmpty_iff, ← List.length_eq_zero_iff] at none_
      omega

theorem confined_stringEscape : Confined stringEscape := by
  constructor
  intro text tail result width found within
  cases text with
  | nil =>
    have wide := stringEscape_width found
    simp at within
    omega
  | cons c text =>
    have octal : octalRun (c :: text ++ tail) = octalRun (c :: text) := by
      refine octalRun_within ?_
      by_cases none_ : (octalRun (c :: text ++ tail)).isEmpty = true
      · rw [List.isEmpty_iff.1 none_]
        exact Nat.zero_le _
      · rw [List.cons_append] at found none_
        rw [Lexing.stringEscape_cons] at found
        dsimp only at found
        rw [if_neg none_] at found
        cases found
        exact within
    rw [Lexing.stringEscape_cons]
    rw [List.cons_append] at octal found
    rw [Lexing.stringEscape_cons, octal] at found
    dsimp only at found ⊢
    split_ifs at found ⊢
    · exact ((confined_hexRun 2 0).map _).behind found within
    · exact (confined_unicodeEscape.map _).behind found within
    · exact found
    · exact found

theorem confined_stringBody (quote : Char) (n : Nat) : Confined (stringBody quote n) := by
  constructor
  intro text tail result width found within
  induction n generalizing text tail result width with
  | zero => cases found
  | succ n ih =>
    cases text with
    | nil =>
      obtain rfl : width = 0 := by simpa using within
      rw [List.nil_append] at found
      unfold stringBody at found
      split at found
      · next impossible => cases impossible
      · cases found
      · split_ifs at found
        · cases found
        · exact (not_behind_zero found).elim
        · exact (not_behind_zero found).elim
    | cons c text =>
      rw [List.cons_append] at found
      unfold stringBody at found ⊢
      have later : Confined (stringBody quote n) := ⟨fun found within => ih found within⟩
      split_ifs at found ⊢
      · exact found
      · exact (confined_stringEscape.andThen fun value => later.map (value ++ ·)).behind found within
      · exact (later.map (c :: ·)).behind found within

theorem confined_stringRest (quote : Char) : Confined (stringRest quote) := by
  constructor
  intro text tail result width found within
  unfold stringRest at found ⊢
  have read := (confined_stringBody quote _).within found within
  rw [List.length_append] at read
  rwa [stringBody_stable quote (Nat.lt_succ_self _)
    (Nat.lt_succ_of_le (Nat.le_add_right text.length tail.length))]

theorem confined_nameEscape : Confined nameEscape := by
  constructor
  intro text tail result width found within
  cases text with
  | nil =>
    obtain rfl : width = 0 := by simpa using within
    rw [List.nil_append] at found
    unfold nameEscape at found
    split at found
    · cases found
    · exact (not_behind_zero found).elim
    · cases found
  | cons c text =>
    by_cases unicode : c = 'u'
    · subst unicode
      rw [List.cons_append] at found
      unfold nameEscape at found ⊢
      refine (confined_unicodeEscape.andThen fun char => ?_).behind found within
      exact ⟨fun found _ => found⟩
    · rw [List.cons_append] at found
      unfold nameEscape at found
      split at found
      · cases found
      · next same => exact absurd (List.cons.inj same).1 unicode
      · cases found

theorem confined_nameBody (n : Nat) : Confined (nameBody n) := by
  constructor
  intro text tail result width found within
  induction n generalizing text tail result width with
  | zero => exact found
  | succ n ih =>
    cases text with
    | nil =>
      obtain rfl : width = 0 := by simpa using within
      rw [List.nil_append] at found
      unfold nameBody at found ⊢
      split at found
      · next impossible => cases impossible
      · exact found
      · split_ifs at found
        · exact (not_behind_zero found).elim
        · exact (not_behind_zero found).elim
        · exact found
    | cons c text =>
      rw [List.cons_append] at found
      unfold nameBody at found ⊢
      have later : Confined (nameBody n) := ⟨fun found within => ih found within⟩
      split_ifs at found ⊢
      · exact (confined_nameEscape.andThen fun char => later.map _).behind found within
      · exact (later.map _).behind found within
      · exact found

theorem confined_nameText : Confined nameText := by
  constructor
  intro text tail result width found within
  unfold nameText at found ⊢
  have read := ((confined_nameBody _).map _).within found within
  rw [List.length_append] at read
  rwa [nameBody_stable (Nat.lt_succ_self _)
    (Nat.lt_succ_of_le (Nat.le_add_right text.length tail.length))]

/-! ### Regular expressions, numbers and operators -/

theorem confined_regexpBody (inClass afterBackslash : Bool) :
    Confined (regexpBody inClass afterBackslash) := by
  constructor
  intro text tail result width found within
  induction text generalizing inClass afterBackslash result width with
  | nil =>
    obtain rfl : width = 0 := by simpa using within
    rw [List.nil_append] at found
    unfold regexpBody at found
    split at found
    · cases found
    · exact (not_behind_zero found).elim
    · split_ifs at found
      any_goals exact (not_behind_zero found).elim
      cases found
  | cons c text ih =>
    rw [List.cons_append] at found
    rw [List.length_cons] at within
    have later {f : List Char → List Char} {inClass afterBackslash : Bool} {result : List Char}
        (found : ((regexpBody inClass afterBackslash (text ++ tail)).map f).behind 1 =
          .found result width) :
        ((regexpBody inClass afterBackslash text).map f).behind 1 = .found result width := by
      obtain ⟨taken, inner, rfl⟩ := Scan.behind_eq_found.1 found
      obtain ⟨body, read, rfl⟩ := Scan.map_eq_found.1 inner
      exact Scan.behind_eq_found.2
        ⟨taken, Scan.map_eq_found.2 ⟨body, ih _ _ read (by omega), rfl⟩, rfl⟩
    cases afterBackslash with
    | true =>
      unfold regexpBody at found ⊢
      exact later found
    | false =>
      unfold regexpBody at found ⊢
      split_ifs at found ⊢
      · exact later found
      · exact later found
      · exact found
      · obtain ⟨taken, inner, rfl⟩ := Scan.behind_eq_found.1 found
        exact Scan.behind_eq_found.2 ⟨taken, ih _ _ inner (by omega), rfl⟩
      · exact later found

theorem confined_regexpRest : Confined regexpRest :=
  (confined_regexpBody false false).andThen fun _ => confined_nameText.map _

theorem numberRun_within {state : NumberState} {text tail : List Char}
    (within : (numberRun state (text ++ tail)).length ≤ text.length) :
    numberRun state (text ++ tail) = numberRun state text := by
  induction text generalizing state with
  | nil =>
    rw [List.nil_append] at within ⊢
    exact List.eq_nil_of_length_eq_zero (Nat.le_zero.1 within)
  | cons c text ih =>
    rw [List.cons_append] at within ⊢
    unfold numberRun at within ⊢
    split
    · next next_ =>
      rw [next_] at within
      rw [ih (by simpa using within)]
    · rfl

theorem operatorRun_within {operator text tail : List Char}
    (within : (operatorRun operator (text ++ tail)).length ≤ operator.length + text.length) :
    operatorRun operator (text ++ tail) = operatorRun operator text := by
  induction text generalizing operator with
  | nil =>
    rw [List.nil_append] at within ⊢
    cases tail with
    | nil => rfl
    | cons c tail =>
      unfold operatorRun at within ⊢
      split_ifs at within ⊢
      · have grown := Lexer.length_operatorRun (operator ++ [c]) tail
        rw [List.length_append, List.length_singleton] at grown
        simp only [List.length_nil] at within
        omega
      · rfl
  | cons c text ih =>
    rw [List.cons_append] at within ⊢
    unfold operatorRun at within ⊢
    split_ifs at within ⊢
    · refine ih ?_
      rw [List.length_append, List.length_singleton]
      rw [List.length_cons] at within
      omega
    · rfl

/-! ## The lexer -/

namespace Lexer

variable {tail : List Char} {l l' m : Lexer} {token : Token}

/-- Two lexers in code stand before one text, the second without its end. -/
structure Shortens (tail : List Char) (l m : Lexer) : Prop where
  rest : l.rest = m.rest ++ tail
  broke : m.sawBreak = l.sawBreak
  code : l.mode ≠ .text
  script : m.mode = .script

namespace Shortens

theorem length (short : Shortens tail l m) : l.rest.length = m.rest.length + tail.length := by
  rw [short.rest, List.length_append]

theorem cross (short : Shortens tail l m) {count : Nat} (within : count ≤ m.rest.length) :
    Shortens tail (l.cross count) (m.cross count) := by
  refine ⟨?_, short.broke, short.code, short.script⟩
  show l.rest.drop count = m.rest.drop count ++ tail
  rw [short.rest, List.drop_append_of_le_length within]

theorem skip (short : Shortens tail l m) {count : Nat} (within : count ≤ m.rest.length) :
    Shortens tail (l.skip count) (m.skip count) := by
  refine ⟨(short.cross within).rest, ?_, short.code, short.script⟩
  show (m.sawBreak || (m.rest.take count).contains '\n') =
    (l.sawBreak || (l.rest.take count).contains '\n')
  rw [short.rest, List.take_append_of_le_length within, short.broke]

theorem mark (short : Shortens tail l m) : Shortens tail l.mark m.mark := { short with }

theorem addComment (short : Shortens tail l m) (kind : CommentKind) (text text' : List Char) :
    Shortens tail (l.addComment kind text) (m.addComment kind text') := { short with }

/-- Blanks that end within the beginning. -/
theorem skipBlanks (short : Shortens tail l m)
    (within : tail.length ≤ l.skipBlanks.rest.length) :
    Shortens tail l.skipBlanks m.skipBlanks := by
  have length := short.length
  have left : l.skipBlanks.rest.length = l.rest.length - (l.rest.takeWhile isBlank).length :=
    List.length_drop
  have taken := (List.takeWhile_prefix (l := l.rest) isBlank).length_le
  have inside : (l.rest.takeWhile isBlank).length ≤ m.rest.length := by omega
  have same : l.rest.takeWhile isBlank = m.rest.takeWhile isBlank := by
    rw [short.rest] at inside ⊢
    exact takeWhile_within inside
  unfold Lexer.skipBlanks
  rw [← same]
  exact short.skip inside

/-- Where the whole text has no comment its beginning has none. -/
theorem comment?_none (short : Shortens tail l m) (none_ : l.comment? = none) :
    m.comment? = none := by
  unfold Lexer.comment? at none_ ⊢
  rw [if_neg short.code, short.rest] at none_
  rw [if_neg (by simp [short.script])]
  split
  · next same =>
    rw [same] at none_
    exact nomatch none_
  · next same =>
    rw [same] at none_
    simp only [List.cons_append] at none_
    split at none_ <;> cases none_
  · rfl

/-- A comment that ends within the beginning. -/
theorem comment?_some (short : Shortens tail l m) (read : l.comment? = some (.ok (), l'))
    (within : tail.length ≤ l'.rest.length) :
    ∃ m', m.comment? = some (.ok (), m') ∧ Shortens tail l' m' ∧
      l'.regexpAllowed = l.regexpAllowed ∧ m'.regexpAllowed = m.regexpAllowed := by
  have length := short.length
  have shorter := comment?_lt read
  unfold Lexer.comment? at read ⊢
  rw [if_neg short.code] at read
  rw [if_neg (by simp [short.script])]
  -- the opening of a comment takes two characters of the beginning
  have opening {a b : Char} {rest : List Char} (same : l.rest = a :: b :: rest)
      (left : l'.rest.length ≤ rest.length) :
      ∃ inside, m.rest = a :: b :: inside ∧ rest = inside ++ tail := by
    rw [same, List.length_cons, List.length_cons] at length
    have given := short.rest
    rw [same] at given
    match found : m.rest with
    | [] => simp [found] at length; omega
    | [_] => simp [found] at length; omega
    | c :: d :: inside =>
      rw [found] at given
      simp only [List.cons_append, List.cons.injEq] at given
      obtain ⟨rfl, rfl, rfl⟩ := given
      exact ⟨inside, rfl, rfl⟩
  split at read
  · next rest same =>
    cases read
    have left : ((l.skip 2).skip ((l.skip 2).rest.takeWhile (· ≠ '\n')).length).rest.length ≤
        rest.length := by
      simp [Lexer.skip, Lexer.cross, same]
    obtain ⟨inside, found, rfl⟩ := opening same left
    rw [found]
    have opened : Shortens tail (l.skip 2) (m.skip 2) := short.skip (by simp [found])
    have rests : (m.skip 2).rest = inside := by simp [Lexer.skip, Lexer.cross, found]
    have run : ((l.skip 2).rest.takeWhile (· ≠ '\n')).length ≤ (m.skip 2).rest.length := by
      have counted := opened.length
      have dropped : ((l.skip 2).skip ((l.skip 2).rest.takeWhile (· ≠ '\n')).length).rest.length =
          (l.skip 2).rest.length - ((l.skip 2).rest.takeWhile (· ≠ '\n')).length :=
        List.length_drop
      have bounded := (List.takeWhile_prefix (l := (l.skip 2).rest) (· ≠ '\n')).length_le
      change tail.length ≤ ((l.skip 2).skip _).rest.length at within
      omega
    have same_ : (l.skip 2).rest.takeWhile (· ≠ '\n') = (m.skip 2).rest.takeWhile (· ≠ '\n') := by
      rw [opened.rest] at run ⊢
      exact takeWhile_within run
    refine ⟨_, rfl, ?_, rfl, rfl⟩
    rw [← same_]
    exact (opened.skip run).addComment _ _ _
  · next rest same =>
    dsimp only at read
    split at read
    · cases read
    · next length_ closed =>
      cases read
      have left : ((l.skip 2).skip (length_ + 2)).rest.length ≤ rest.length := by
        simp [Lexer.skip, Lexer.cross, same]
      obtain ⟨inside, found, rfl⟩ := opening same left
      rw [found]
      have opened : Shortens tail (l.skip 2) (m.skip 2) := short.skip (by simp [found])
      have run : length_ + 2 ≤ (m.skip 2).rest.length := by
        have counted := opened.length
        have dropped : ((l.skip 2).skip (length_ + 2)).rest.length =
            (l.skip 2).rest.length - (length_ + 2) := List.length_drop
        obtain ⟨before, behind, rfl, whole⟩ := findPattern_some closed
        have bounded := congrArg List.length whole
        simp only [List.length_append, List.length_cons, List.length_nil] at bounded
        change tail.length ≤ ((l.skip 2).skip _).rest.length at within
        omega
      rw [opened.rest] at closed
      dsimp only
      rw [findPattern_within closed run]
      exact ⟨_, rfl, (opened.skip run).addComment _ _ _, rfl, rfl⟩
  · cases read

end Shortens

/-- The way to a token that ends within the beginning. By induction on the bound. -/
theorem Shortens.skipTriviaWithin (short : Shortens tail l m) {n : Nat}
    (moved : l.skipTriviaWithin n = (.ok (), l')) (within : tail.length ≤ l'.rest.length) :
    ∃ m', m.skipTriviaWithin n = (.ok (), m') ∧ Shortens tail l' m' ∧
      l'.regexpAllowed = l.regexpAllowed ∧ m'.regexpAllowed = m.regexpAllowed := by
  induction n generalizing l m with
  | zero =>
    cases moved
    exact ⟨_, rfl, short.mark, rfl, rfl⟩
  | succ n ih =>
    unfold Lexer.skipTriviaWithin at moved ⊢
    rw [if_neg short.code] at moved
    rw [if_neg (show m.mode ≠ .text by simp [short.script])]
    dsimp only at moved ⊢
    split at moved
    · next behind read =>
      have left := (skipTriviaWithin_le moved).1
      have shorter := comment?_lt read
      change behind.rest.length < l.skipBlanks.rest.length at shorter
      have blanks := (short.skipBlanks (by omega)).mark
      obtain ⟨other, read, short', regexp, regexp'⟩ := blanks.comment?_some read (by omega)
      obtain ⟨m', moved', short', regexp_, regexp_'⟩ := ih short' moved
      rw [read]
      exact ⟨m', moved', short', regexp_.trans regexp, regexp_'.trans regexp'⟩
    · cases moved
    · next none_ =>
      cases moved
      have blanks := (short.skipBlanks within).mark
      rw [blanks.comment?_none none_]
      exact ⟨_, rfl, blanks, rfl, rfl⟩

theorem Shortens.skipTrivia (short : Shortens tail l m) (moved : l.skipTrivia = (.ok (), l'))
    (within : tail.length ≤ l'.rest.length) :
    ∃ m', m.skipTrivia = (.ok (), m') ∧ Shortens tail l' m' ∧
      l'.regexpAllowed = l.regexpAllowed ∧ m'.regexpAllowed = m.regexpAllowed := by
  have length := short.length
  obtain ⟨m', moved, rest⟩ := short.skipTriviaWithin moved within
  rw [skipTriviaWithin_stable (m := m.rest.length + 1) (by omega) (by omega)] at moved
  exact ⟨m', moved, rest⟩

/-- The number at the beginning of a text; a point may have been read before it. -/
def numberScan (point : Bool) (text : List Char) : Scan Float :=
  let run := numberRun ⟨false, false, false, point⟩ text
  let whole := if point then '.' :: run else run
  match Number.Literal.value? whole with
  | some value => .found value run.length
  | none => .failed (.badNumber (String.ofList whole)) run.length

/-- The operator that begins with the character and goes on with the text. -/
def operatorScan (c : Char) (text : List Char) : Scan String :=
  let operator := operatorRun [c] text
  if isOperator (String.ofList operator) then .found (String.ofList operator) operator.length
  else .failed (.strayCharacter (String.ofList operator)) operator.length

/-- Two lexers in code stand before one text, the second without its end, and read alike as long as
they stay within the beginning. -/
structure Cut (tail : List Char) (l m : Lexer) : Prop extends Shortens tail l m where
  regexp : m.regexpAllowed = l.regexpAllowed

/-- A step of the second lexer gives the same token, and the lexers read alike behind it. -/
def Followed (tail : List Char) (token : Token) (l : Lexer) (step : Step) : Prop :=
  ∃ token' m, step = (.ok token', m) ∧ token'.kind = token.kind ∧
    token'.afterBreak = token.afterBreak ∧ Cut tail l m

namespace Shortens

theorem ends {kind : TokenKind} (short : Shortens tail l m)
    (read : l.token kind = (.ok token, l')) : Followed tail token l' (m.token kind) := by
  cases read
  exact ⟨_, _, rfl, rfl, short.broke, ⟨⟨short.rest, rfl, short.code, short.script⟩, rfl⟩⟩

/-- What a confined scan is accepted for. -/
theorem accept {α : Type} (scan : List Char → Scan α) {kind : α → TokenKind} {text : List Char}
    (short : Shortens tail l m)
    (confined : ∀ {result width}, scan (text ++ tail) = .found result width →
      width ≤ m.rest.length → scan text = .found result width)
    (read : l.accept (scan (text ++ tail)) kind = (.ok token, l'))
    (within : tail.length ≤ l'.rest.length) : Followed tail token l' (m.accept (scan text) kind) := by
  obtain ⟨result, ok, ended⟩ := accept_ok read
  have found : scan (text ++ tail) = .found result (scan (text ++ tail)).width := by
    rw [Scan.found, ← ok]
  have left : l'.rest.length = l.rest.length - (scan (text ++ tail)).width := by
    cases ended
    exact List.length_drop
  have length := short.length
  have taken (found : scan text = .found result (scan (text ++ tail)).width)
      (crossed : Shortens tail (l.cross (scan (text ++ tail)).width)
        (m.cross (scan (text ++ tail)).width)) :
      Followed tail token l' (m.accept (scan text) kind) := by
    unfold Lexer.accept
    rw [found]
    exact crossed.ends ended
  by_cases inside : (scan (text ++ tail)).width ≤ m.rest.length
  · exact taken (confined found inside) (short.cross inside)
  · obtain rfl : tail = [] := List.eq_nil_of_length_eq_zero (by omega)
    have same : text ++ [] = text := List.append_nil text
    refine taken (by rwa [same] at found ⊢) ⟨?_, short.broke, short.code, short.script⟩
    show l.rest.drop _ = m.rest.drop _ ++ []
    simp only [short.rest, List.append_nil]

theorem readRegexp (short : Shortens tail l m) {lead : List Char}
    (read : l.readRegexp lead = (.ok token, l')) (within : tail.length ≤ l'.rest.length) :
    Followed tail token l' (m.readRegexp lead) := by
  unfold Lexer.readRegexp at read ⊢
  rw [short.rest] at read
  exact short.accept _ (fun found => confined_regexpRest.within found) read within

theorem readWord (short : Shortens tail l m) (read : l.readWord = (.ok token, l'))
    (within : tail.length ≤ l'.rest.length) : Followed tail token l' m.readWord := by
  unfold Lexer.readWord at read ⊢
  rw [short.rest] at read
  exact short.accept _ (fun found => confined_nameText.within found) read within

theorem readNumber (short : Shortens tail l m) {point : Bool}
    (read : l.readNumber point = (.ok token, l')) (within : tail.length ≤ l'.rest.length) :
    Followed tail token l' (m.readNumber point) := by
  change l.accept (numberScan point l.rest) .num = _ at read
  show Followed tail token l' (m.accept (numberScan point m.rest) .num)
  rw [short.rest] at read
  refine short.accept (numberScan point) ?_ read within
  intro result width found inside
  unfold numberScan at found ⊢
  dsimp only at found ⊢
  have wide : (numberRun ⟨false, false, false, point⟩ (m.rest ++ tail)).length = width := by
    split at found
    · exact congrArg Scan.width found
    · cases found
  rwa [numberRun_within (by omega)] at found

theorem readOperator (short : Shortens tail l m) {c : Char} {following : List Char}
    (rest : m.rest = c :: following)
    (read : l.readOperator c (following ++ tail) = (.ok token, l'))
    (within : tail.length ≤ l'.rest.length) :
    Followed tail token l' (m.readOperator c following) := by
  refine short.accept (operatorScan c) ?_ read within
  intro result width found inside
  unfold operatorScan at found ⊢
  dsimp only at found ⊢
  have wide : (operatorRun [c] (following ++ tail)).length = width := by
    split at found
    · exact congrArg Scan.width found
    · cases found
  rw [rest, List.length_cons] at inside
  rwa [operatorRun_within (by rw [List.length_singleton]; omega)] at found

end Shortens

/-- A token of code that begins with a character of the beginning. -/
theorem Cut.readCode (cut : Cut tail l m) {c : Char} {following : List Char}
    (rest : m.rest = c :: following) (read : l.readCode c (following ++ tail) = (.ok token, l'))
    (within : tail.length ≤ l'.rest.length) : Followed tail token l' (m.readCode c following) := by
  have short := cut.toShortens
  have first : Shortens tail (l.cross 1) (m.cross 1) := short.cross (by simp [rest])
  unfold Lexer.readCode at read ⊢
  dsimp only at read ⊢
  rw [cut.regexp]
  split_ifs at read with quote point number slash regexp escape digit operator punctuation name
  · rw [if_pos quote]
    refine short.accept (fun text => (stringRest c text).behind 1) ?_ read within
    intro result width found inside
    exact (confined_stringRest c).behind found (rest ▸ inside)
  · rw [if_neg quote, if_pos point]
    cases following with
    | nil =>
      -- the digits would stand behind the beginning
      exfalso
      obtain ⟨d, digits, rfl⟩ : ∃ d digits, tail = d :: digits := by
        cases tail with
        | nil => simp at number
        | cons d digits => exact ⟨d, digits, rfl⟩
      have digit : isDigit d = true := by simpa using number
      have ahead : (l.cross 1).rest = d :: digits := by
        show l.rest.drop 1 = _
        rw [short.rest, rest]
        rfl
      unfold Lexer.readNumber at read
      obtain ⟨result, ok, ended⟩ := accept_ok read
      have left : l'.rest.length = (d :: digits).length -
          (numberRun ⟨false, false, false, true⟩ (d :: digits)).length := by
        rw [ahead] at ok ended
        cases ended
        show ((l.cross 1).rest.drop _).length = _
        rw [ahead, List.length_drop]
        congr 1
        simp only [if_true]
        split <;> rfl
      have taken := length_numberRun digit ⟨false, false, false, true⟩ digits
      rw [List.length_cons] at left within
      omega
    | cons d following =>
      rw [if_pos (by simpa using number)]
      exact first.readNumber read within
  · rw [if_neg quote, if_pos point, if_neg]
    · exact first.ends read
    · cases following with
      | nil => simp
      | cons d following => simpa using number
  · rw [if_neg quote, if_neg point, if_pos slash, if_pos regexp]
    exact first.readRegexp read within
  · rw [if_neg quote, if_neg point, if_pos slash, if_neg regexp]
    exact short.readOperator rest read within
  · rw [if_neg quote, if_neg point, if_neg slash, if_pos escape]
    exact short.readWord read within
  · rw [if_neg quote, if_neg point, if_neg slash, if_neg escape, if_pos digit]
    exact short.readNumber read within
  · rw [if_neg quote, if_neg point, if_neg slash, if_neg escape, if_neg digit, if_pos operator]
    exact short.readOperator rest read within
  · rw [if_neg quote, if_neg point, if_neg slash, if_neg escape, if_neg digit, if_neg operator,
      if_pos punctuation]
    exact first.ends read
  · rw [if_neg quote, if_neg point, if_neg slash, if_neg escape, if_neg digit, if_neg operator,
      if_neg punctuation, if_pos name]
    exact short.readWord read within
  · cases read

/-- How many braces are open does not matter. -/
theorem Cut.deepened (cut : Cut tail l m) {text : List Char} (whole : l.rest = text) (depth : Nat) :
    Cut tail { l with rest := text, depth } m :=
  ⟨⟨whole ▸ cut.rest, cut.broke, cut.code, cut.script⟩, cut.regexp⟩

/-- The token at the place, if it is a token of code that ends within the beginning. -/
theorem Cut.readToken (cut : Cut tail l m) (read : l.readToken = (.ok token, l'))
    (going : token.isEof = false) (code : ∀ marker, token.kind ≠ .marker marker)
    (within : tail.length ≤ l'.rest.length) : Followed tail token l' m.readToken := by
  obtain ⟨piece, ends⟩ := ends_readToken read
  have filled : piece ≠ [] := fun nil => by simp [ends.empty.1 nil] at going
  have taken := congrArg List.length ends.rest
  have positive := List.length_pos_iff.2 filled
  have length := cut.length
  rw [List.length_append] at taken
  obtain ⟨c, following, rest⟩ : ∃ c following, m.rest = c :: following :=
    List.exists_cons_of_ne_nil fun none_ => by simp [none_] at length; omega
  have whole : l.rest = c :: (following ++ tail) := by rw [cut.rest, rest, List.cons_append]
  have script : m.countsBraces = false := by simp [countsBraces, cut.script]
  unfold Lexer.readToken at read ⊢
  rw [whole] at read
  rw [rest]
  simp only [script, Bool.and_false, Bool.false_eq_true, if_false, cut.script, reduceCtorEq]
  simp only [if_neg cut.code] at read
  split_ifs at read
  · exact (cut.deepened whole _).readCode rest read within
  · obtain ⟨marker, kind⟩ := marker_of_closeCode read
    exact absurd kind (code marker)
  · exact (cut.deepened whole _).readCode rest read within
  · exact cut.readCode rest read within

/-- The next token, if it is a token of code that ends within the beginning. -/
theorem Cut.next (cut : Cut tail l m) (read : l.next = (.ok token, l'))
    (going : token.isEof = false) (code : ∀ marker, token.kind ≠ .marker marker)
    (within : tail.length ≤ l'.rest.length) : Followed tail token l' m.next := by
  unfold Lexer.next at read ⊢
  split at read
  · next begun moved =>
    obtain ⟨piece, ends⟩ := ends_readToken read
    have taken := congrArg List.length ends.rest
    rw [List.length_append] at taken
    obtain ⟨begun', moved, short, regexp, regexp'⟩ := cut.skipTrivia moved (by omega)
    rw [moved]
    exact Cut.readToken ⟨short, by rw [regexp, regexp', cut.regexp]⟩ read going code within
  · cases read

/-- Behind the whole beginning there is nothing left. -/
theorem Cut.next_end (cut : Cut tail l m) (ended : l.rest.length = tail.length) :
    ∃ token m', m.next = (.ok token, m') ∧ token.isEof = true := by
  have none_ : m.rest = [] := List.eq_nil_of_length_eq_zero (by have := cut.length; omega)
  have blanks : m.skipBlanks.rest = [] := by simp [Lexer.skipBlanks, Lexer.skip, Lexer.cross, none_]
  have code : m.skipBlanks.mark.mode ≠ .text := by
    rw [show m.skipBlanks.mark.mode = .script from cut.script]
    simp
  have silent : m.skipBlanks.mark.comment? = none := by
    unfold Lexer.comment?
    rw [if_neg code, show m.skipBlanks.mark.rest = [] from blanks]
  have reaches : m.skipTrivia = (.ok (), m.skipBlanks.mark) := by
    unfold Lexer.skipTrivia
    rw [Lexer.skipTriviaWithin, if_neg (show m.mode ≠ .text from code), silent]
  have finished : m.skipBlanks.mark.readToken = m.skipBlanks.mark.token .eof := by
    unfold Lexer.readToken
    rw [show m.skipBlanks.mark.rest = [] from blanks]
  unfold Lexer.next
  rw [reaches]
  exact ⟨_, _, finished, rfl⟩

end Lexer

end Stencil
