import Stencil.Token.Scan
import Stencil.Print.Source
/-!
# Reading back single words

Each reader of the lexer gives back what the printer wrote, provided that the text behind does not
continue the word. The readers are taken one at a time: string literals character by character,
escapes by their hexadecimal digits, names, regular expressions, numbers and operators.
-/

set_option autoImplicit false

namespace Stencil.Lexing

open Stencil.Text
open Stencil.Text.Quoted (hexDigits4 literalChar)

/-! ## Scans -/

section Scans

variable {α β : Type}

@[simp] theorem map_found (f : α → β) (result : α) (width : Nat) :
    (Scan.found result width).map f = .found (f result) width := rfl

@[simp] theorem map_outcome (f : α → β) (scan : Scan α) :
    (scan.map f).outcome = scan.outcome.map f := rfl

@[simp] theorem behind_outcome (scan : Scan α) (more : Nat) :
    (scan.behind more).outcome = scan.outcome := rfl

/-- A result that was changed is the change of a result. -/
theorem ok_of_map {f : α → β} {scan : Scan α} {more : Nat} {result : β}
    (read : ((scan.map f).behind more).outcome = .ok result) :
    ∃ before, scan.outcome = .ok before ∧ f before = result := by
  rw [behind_outcome, map_outcome] at read
  cases outcome : scan.outcome with
  | error fault => simp [outcome, Except.map] at read
  | ok before => exact ⟨before, rfl, by simpa [outcome, Except.map] using read⟩

@[simp] theorem behind_found (result : α) (width more : Nat) :
    (Scan.found result width).behind more = .found result (more + width) := rfl

@[simp] theorem behind_behind (scan : Scan α) (width more : Nat) :
    (scan.behind width).behind more = scan.behind (more + width) := by
  simp [Scan.behind, Nat.add_assoc]

@[simp] theorem andThen_found (result : α) (width : Nat) (text : List Char)
    (next : α → List Char → Scan β) :
    (Scan.found result width).andThen text next
      = (next result (text.drop width)).behind width := rfl

end Scans

/-! ## Escapes -/

/-- Hexadecimal digits are read to the number they denote. -/
theorem hexRun_digits {digits : List Char} {values : List Nat}
    (known : digits.map hexValue? = values.map some) (code : Nat) (after : List Char) :
    hexRun digits.length code (digits ++ after)
      = .found (values.foldl (fun total digit => total * 16 + digit) code) digits.length := by
  induction digits generalizing values code with
  | nil =>
    cases values with
    | nil => rfl
    | cons value values => simp at known
  | cons digit digits ih =>
    cases values with
    | nil => simp at known
    | cons value values =>
      simp only [List.map_cons, List.cons.injEq] at known
      obtain ⟨first, others⟩ := known
      simp only [List.length_cons, List.cons_append, hexRun, first, ih others, behind_found,
        List.foldl_cons, Nat.add_comm]

/-- Four hexadecimal digits behind `\u` are read as the character of their number, if the number
is no half of a surrogate pair. -/
theorem unicodeEscape_digits (values : List Nat) {digits : List Char} {code : Nat}
    (four : digits.length = 4) (known : digits.map hexValue? = values.map some)
    (sum : values.foldl (fun total digit => total * 16 + digit) 0 = code)
    (whole : ¬(0xD800 ≤ code ∧ code < 0xDC00)) (after : List Char) :
    unicodeEscape (digits ++ after) = .found (charOfCode code) 4 := by
  have opening : ∀ rest, digits ++ after ≠ '\x7b' :: rest := by
    intro rest same
    cases digits with
    | nil => simp at four
    | cons digit digits =>
      simp only [List.cons_append, List.cons.injEq] at same
      obtain ⟨rfl, -⟩ := same
      cases values with
      | nil => simp at known
      | cons value values =>
        have : hexValue? '\x7b' = some value := by simpa using (List.cons.inj known).1
        simp [hexValue?, isDigit] at this
  have run := hexRun_digits known 0 after
  rw [four, sum] at run
  unfold unicodeEscape
  split
  · rename_i same
    exact absurd same (opening _)
  · rw [run]
    simp only [andThen_found, if_neg whole, behind_found]

/-- The digits of a small number, padded to four, with their values. -/
theorem hexDigits4_values :
    ∀ n < 160, (hexDigits4 n).length = 4 ∧
      (hexDigits4 n).map hexValue? = [0, 0, n / 16, n % 16].map some := by
  decide +kernel

/-- Every character is the character of its number. -/
theorem charOfCode_toNat (c : Char) : charOfCode c.toNat = c := by
  have valid : c.toNat.isValidChar := c.valid
  have same := Char.ofNat_toNat c
  rw [Char.ofNat, dif_pos valid] at same
  rw [charOfCode, dif_pos valid, same]

/-- The escape by number that a string literal or a name holds is read back. -/
theorem unicodeEscape_hexDigits4 {c : Char}
    (known : c.toNat < 160 ∨ c = '\u2028' ∨ c = '\u2029' ∨ c = '\ufeff') (after : List Char) :
    unicodeEscape (hexDigits4 c.toNat ++ after) = .found c 4 := by
  obtain small | rfl | rfl | rfl := known
  · obtain ⟨four, values⟩ := hexDigits4_values c.toNat small
    have sum : [0, 0, c.toNat / 16, c.toNat % 16].foldl
        (fun total digit => total * 16 + digit) 0 = c.toNat := by
      simp only [List.foldl_cons, List.foldl_nil]
      omega
    rw [unicodeEscape_digits _ four values sum (by omega), charOfCode_toNat]
  · exact unicodeEscape_digits [2, 0, 2, 8] (by decide) (by decide) rfl (by decide) after
  · exact unicodeEscape_digits [2, 0, 2, 9] (by decide) (by decide) rfl (by decide) after
  · exact unicodeEscape_digits [15, 14, 15, 15] (by decide) (by decide) rfl (by decide) after

/-! ## String literals -/

/-- What a character behind a backslash stands for that begins no escape by number. -/
def escapedChar (c : Char) : List Char :=
  if c = 'n' then ['\n']
  else if c = 'r' then ['\r']
  else if c = 't' then ['\t']
  else if c = 'b' then ['\u0008']
  else if c = 'v' then ['\u000b']
  else if c = 'f' then ['\u000c']
  else if c = '\n' then []
  else [c]

/-- An escape is read by its first character: it is a number, or stands for something by itself. -/
theorem stringEscape_cons (c : Char) (rest : List Char) :
    stringEscape (c :: rest) =
      let octal := octalRun (c :: rest)
      if octal.isEmpty then
        if c = 'x' then ((hexRun 2 0 rest).map fun code => [charOfCode code]).behind 1
        else if c = 'u' then ((unicodeEscape rest).map fun char => [char]).behind 1
        else .found (escapedChar c) 1
      else
        .found [charOfCode ((octal.filterMap octalValue?).foldl
          (fun total digit => total * 8 + digit) 0)] octal.length := by
  unfold stringEscape
  dsimp only
  by_cases none_ : (octalRun (c :: rest)).isEmpty = true
  · rw [if_pos none_, if_pos none_]
    by_cases x : c = 'x'
    · subst x
      rfl
    · by_cases u : c = 'u'
      · subst u
        rfl
      · simp only [if_neg x, if_neg u, escapedChar]
        repeat' split
        all_goals rfl
  · rw [if_neg none_, if_neg none_]

/-- An escape of a string literal is read as its value, and the rest behind it. -/
theorem stringBody_escape {escape value : List Char} {rest : List Char}
    (read : stringEscape (escape ++ rest) = .found value escape.length) (n : Nat) :
    stringBody '"' (n + 1) ('\\' :: (escape ++ rest))
      = ((stringBody '"' n rest).map (value ++ ·)).behind (escape.length + 1) := by
  simp only [stringBody, read, andThen_found, List.drop_left, behind_behind]
  rw [if_neg (by decide), if_pos trivial, Nat.add_comm]

/-- Behind a backslash, a letter that names an escape stands for its character. -/
theorem stringEscape_letter (letter value : Char)
    (known : (letter, value) ∈
      [('"', '"'), ('\\', '\\'), ('n', '\n'), ('r', '\r'), ('t', '\t'), ('b', '\u0008'),
        ('f', '\u000c'), ('v', '\u000b')])
    (rest : List Char) : stringEscape ([letter] ++ rest) = .found [value] 1 := by
  simp only [List.mem_cons, Prod.mk.injEq, List.not_mem_nil, or_false] at known
  rcases known with ⟨rfl, rfl⟩ | ⟨rfl, rfl⟩ | ⟨rfl, rfl⟩ | ⟨rfl, rfl⟩ | ⟨rfl, rfl⟩ | ⟨rfl, rfl⟩ |
    ⟨rfl, rfl⟩ | ⟨rfl, rfl⟩ <;>
    simp [stringEscape, octalRun, octalValue?]

/-- Behind a backslash, a number escape stands for its character. -/
theorem stringEscape_hexDigits4 {c : Char}
    (known : c.toNat < 160 ∨ c = '\u2028' ∨ c = '\u2029' ∨ c = '\ufeff') (rest : List Char) :
    stringEscape (('u' :: hexDigits4 c.toNat) ++ rest)
      = .found [c] ('u' :: hexDigits4 c.toNat).length := by
  have four : (hexDigits4 c.toNat).length = 4 := by
    obtain small | rfl | rfl | rfl := known
    · exact (hexDigits4_values c.toNat small).1
    · decide
    · decide
    · decide
  have read := unicodeEscape_hexDigits4 known rest
  simp [stringEscape, octalRun, octalValue?, read, four]

/-- A control character has a small number. -/
theorem toNat_lt_of_isControl {c : Char} (control : Quoted.isControl c = true) : c.toNat < 160 := by
  simp only [Quoted.isControl, Bool.or_eq_true, Bool.and_eq_true, decide_eq_true_eq] at control
  omega

/-- A character of a string literal is read back, however it is written. -/
theorem stringBody_literalChar (c : Char) (n : Nat) (rest : List Char) :
    stringBody '"' (n + 1) (literalChar c ++ rest)
      = ((stringBody '"' n rest).map (c :: ·)).behind (literalChar c).length := by
  have letter {name value : Char} (known : _) :=
    stringBody_escape (stringEscape_letter name value known rest) n
  unfold literalChar
  iterate 8
    split
    · rename_i same
      subst same
      exact letter (by simp)
  split
  · rename_i special
    have known : c.toNat < 160 ∨ c = '\u2028' ∨ c = '\u2029' ∨ c = '\ufeff' := by
      simp only [Bool.or_eq_true, decide_eq_true_eq] at special
      rcases special with ((h | h) | h) | h
      · exact .inr (.inl h)
      · exact .inr (.inr (.inl h))
      · exact .inr (.inr (.inr h))
      · exact .inl (toNat_lt_of_isControl h)
    exact stringBody_escape (stringEscape_hexDigits4 known rest) n
  · rename_i quote backslash _ _ _ _ _ _ _
    simp [stringBody, quote, backslash]

/-- The body of a string literal is read back. -/
theorem stringBody_literal (cs after : List Char) :
    ∀ n, cs.length < n → stringBody '"' n (cs.flatMap literalChar ++ '"' :: after)
      = .found cs ((cs.flatMap literalChar).length + 1) := by
  induction cs with
  | nil =>
    intro n enough
    obtain ⟨n, rfl⟩ := Nat.exists_eq_succ_of_ne_zero (Nat.ne_of_gt enough)
    rfl
  | cons c cs ih =>
    intro n enough
    obtain ⟨n, rfl⟩ := Nat.exists_eq_succ_of_ne_zero (Nat.ne_of_gt (Nat.zero_lt_of_lt enough))
    rw [List.flatMap_cons, List.append_assoc, stringBody_literalChar,
      ih n (by simpa using enough)]
    simp [Nat.add_assoc]

/-- A character takes at least one character of a string literal. -/
theorem literalChar_ne_nil (c : Char) : literalChar c ≠ [] := by
  unfold literalChar
  repeat' split
  all_goals simp

/-- A text is not longer than its string literal. -/
theorem length_le_length_literal (cs : List Char) :
    cs.length ≤ (cs.flatMap literalChar).length := by
  induction cs with
  | nil => simp
  | cons c cs ih =>
    have := List.length_pos_iff.2 (literalChar_ne_nil c)
    simp only [List.flatMap_cons, List.length_append, List.length_cons]
    omega

/-- A string literal is read back from behind its opening quote. -/
theorem stringRest_literal (cs after : List Char) :
    stringRest '"' (cs.flatMap literalChar ++ '"' :: after)
      = .found cs ((cs.flatMap literalChar).length + 1) := by
  unfold stringRest
  apply stringBody_literal
  have := length_le_length_literal cs
  simp only [List.length_append, List.length_cons]
  omega

/-! ## Names -/

/-- A word is an operator, a keyword, a constant or a name. -/
theorem wordKind_cases (name : String) :
    (∃ symbol, wordKind name = .operator symbol) ∨ (∃ k, wordKind name = .keyword k) ∨
      (∃ atom, wordKind name = .atom atom) ∨ wordKind name = .name name := by
  unfold wordKind
  split
  · exact .inl ⟨_, rfl⟩
  · split
    · exact .inr (.inl ⟨_, rfl⟩)
    · split
      · exact .inr (.inr (.inl ⟨_, rfl⟩))
      · exact .inr (.inr (.inr rfl))

/-- The reserved words: keywords and word operators. -/
def reservedWords : List String := Keyword.all.map Keyword.spelling ++ wordOperators

/-- A reserved word is one of the list. -/
theorem mem_reservedWords {word : String} (reserved : isReserved word = true) :
    word ∈ reservedWords := by
  unfold isReserved at reserved
  rw [Bool.or_eq_true, List.contains_iff_mem] at reserved
  obtain known | operator := reserved
  · obtain ⟨keyword, found⟩ := Option.isSome_iff_exists.1 known
    have spelt := List.find?_some found
    have listed := List.mem_of_find?_eq_some found
    simp only [decide_eq_true_eq] at spelt
    exact List.mem_append_left _ (spelt ▸ List.mem_map_of_mem listed)
  · exact List.mem_append_right _ operator

/-- A reserved word consists of characters of names, and its first one has a small number. -/
theorem reservedWords_chars :
    ∀ word ∈ reservedWords, word.toList ≠ [] ∧ word.toList.all isNamePart = true ∧
      ∀ c ∈ word.toList, c.toNat < 160 := by
  decide

/-- A spelling that is read as it stands: characters of names, or a reserved word whose first
character is escaped. -/
def IsSpelling (cs : List Char) : Prop :=
  cs.all isNamePart = true ∨ ∃ word, isReserved (String.ofList word) = true ∧ cs = respell word

/-- The text does not continue a name. -/
def EndsName (after : List Char) : Prop :=
  ∀ c, after.head? = some c → isNamePart c = false ∧ c ≠ '\\'

/-- A backslash is no character of a name. -/
theorem isNamePart_backslash : isNamePart '\\' = false := by decide +kernel

/-- Characters of names are read up to where the text no longer continues a name. -/
theorem nameBody_append {cs after : List Char} (parts : cs.all isNamePart = true)
    (ends : EndsName after) :
    ∀ n, cs.length < n → nameBody n (cs ++ after) = .found (cs, false) cs.length := by
  induction cs with
  | nil =>
    intro n enough
    obtain ⟨n, rfl⟩ := Nat.exists_eq_succ_of_ne_zero (Nat.ne_of_gt enough)
    cases after with
    | nil => rfl
    | cons c after =>
      obtain ⟨other, backslash⟩ := ends c rfl
      simp [nameBody, other, backslash]
  | cons c cs ih =>
    intro n enough
    obtain ⟨n, rfl⟩ := Nat.exists_eq_succ_of_ne_zero (Nat.ne_of_gt (Nat.zero_lt_of_lt enough))
    rw [List.all_cons, Bool.and_eq_true] at parts
    have backslash : c ≠ '\\' := by
      rintro rfl
      rw [isNamePart_backslash] at parts
      exact absurd parts.1 (by decide)
    simp only [List.cons_append, nameBody, if_neg backslash, if_pos parts.1,
      ih parts.2 n (by simpa using enough), map_found, behind_found, List.length_cons, Nat.add_comm]

/-- The capital digits of a small number have the same values. -/
theorem hexDigits4_upper_values :
    ∀ n < 160, ((hexDigits4 n).map Char.toUpper).length = 4 ∧
      ((hexDigits4 n).map Char.toUpper).map hexValue? = [0, 0, n / 16, n % 16].map some := by
  decide +kernel

/-- The escape of a name's first character is read back. -/
theorem nameEscape_upper {c : Char} (part : isNamePart c = true) (small : c.toNat < 160)
    (after : List Char) :
    nameEscape ('u' :: ((hexDigits4 c.toNat).map Char.toUpper ++ after)) = .found c 5 := by
  obtain ⟨four, values⟩ := hexDigits4_upper_values c.toNat small
  have sum : [0, 0, c.toNat / 16, c.toNat % 16].foldl
      (fun total digit => total * 16 + digit) 0 = c.toNat := by
    simp only [List.foldl_cons, List.foldl_nil]
    omega
  simp only [nameEscape, unicodeEscape_digits _ four values sum (by omega), charOfCode_toNat,
    andThen_found, if_pos part, behind_found]

/-- A reserved word with its first character escaped is read as the word, and as escaped. -/
theorem nameBody_respell {word after : List Char}
    (reserved : isReserved (String.ofList word) = true) (ends : EndsName after) :
    ∀ n, (respell word).length < n →
      nameBody n (respell word ++ after) = .found (word, true) (respell word).length := by
  intro n enough
  have known := reservedWords_chars _ (mem_reservedWords reserved)
  rw [String.toList_ofList] at known
  obtain ⟨some, parts, small⟩ := known
  cases word with
  | nil => exact absurd rfl some
  | cons first rest =>
    rw [List.all_cons, Bool.and_eq_true] at parts
    have four := (hexDigits4_upper_values first.toNat (small first (by simp))).1
    obtain ⟨n, rfl⟩ := Nat.exists_eq_succ_of_ne_zero (Nat.ne_of_gt (Nat.zero_lt_of_lt enough))
    have five : (respell (first :: rest)).length = 6 + rest.length := by
      simp [respell, four]
      omega
    have tail := nameBody_append parts.2 ends n (by omega)
    rw [five]
    simp only [respell, List.cons_append, List.append_assoc, nameBody,
      nameEscape_upper parts.1 (small first (by simp)), andThen_found]
    have dropped : ('u' :: ((hexDigits4 first.toNat).map Char.toUpper ++ (rest ++ after))).drop 5
        = rest ++ after := by
      rw [List.drop_succ_cons, ← four, List.drop_left]
    simp only [dropped, tail, map_found, behind_found, if_true]
    congr 1
    omega

/-- A spelling is read as it stands. -/
theorem nameText_append {cs after : List Char} (spelling : IsSpelling cs)
    (ends : EndsName after) : nameText (cs ++ after) = .found cs cs.length := by
  unfold nameText
  obtain parts | ⟨word, reserved, rfl⟩ := spelling
  · rw [nameBody_append parts ends _ (by simp only [List.length_append]; omega)]
    simp
  · rw [nameBody_respell reserved ends _ (by simp only [List.length_append]; omega)]
    simp [reserved]

/-! ## Regular expressions -/

/-- A backslash in a pattern is kept for what follows it. -/
theorem regexpBody_backslash (inClass : Bool) (text : List Char) :
    regexpBody inClass false ('\\' :: text) = (regexpBody inClass true text).behind 1 := by
  rw [regexpBody]
  simp

/-- A pattern that was read is read again from its own text. The text of a pattern read behind a
backslash begins with that backslash. -/
theorem regexpBody_reread {text pattern : List Char} (inClass : Bool) :
    ((regexpBody inClass false text).outcome = .ok pattern →
      ∀ after, regexpBody inClass false (pattern ++ '/' :: after)
        = .found pattern (pattern.length + 1)) ∧
    ((regexpBody inClass true text).outcome = .ok pattern →
      ∃ c body, pattern = '\\' :: c :: body ∧
        ∀ after, regexpBody inClass true (c :: (body ++ '/' :: after))
          = .found pattern (body.length + 2)) := by
  induction text generalizing inClass pattern with
  | nil => exact ⟨nofun, nofun⟩
  | cons d text ih =>
    constructor
    · intro read after
      rw [regexpBody] at read
      split at read
      case isTrue bracket =>
        obtain ⟨body, tail, rfl⟩ := ok_of_map read
        simp [regexpBody, bracket, (ih true).1 tail after, Nat.add_comm]
      case isFalse opening =>
      split at read
      case isTrue closing =>
        obtain ⟨body, tail, rfl⟩ := ok_of_map read
        simp only [Bool.and_eq_true, decide_eq_true_eq] at closing
        obtain ⟨rfl, rfl⟩ := closing
        simp [regexpBody, (ih false).1 tail after, Nat.add_comm]
      case isFalse closing =>
      split at read
      case isTrue slash =>
        obtain rfl : [] = pattern := Except.ok.inj read
        simp only [Bool.and_eq_true, Bool.not_eq_true', decide_eq_true_eq] at slash
        obtain ⟨-, rfl⟩ := slash
        rfl
      case isFalse slash =>
      split at read
      case isTrue backslash =>
        -- The backslash is kept at the front of what is read behind it.
        obtain ⟨c, body, rfl, again⟩ := (ih inClass).2 read
        rw [List.cons_append, List.cons_append, regexpBody_backslash, again, behind_found]
        simp only [List.length_cons, Nat.add_comm 1]
      case isFalse backslash =>
        obtain ⟨body, tail, rfl⟩ := ok_of_map read
        simp [regexpBody, opening, closing, slash, backslash, (ih inClass).1 tail after,
          Nat.add_comm]
    · intro read
      rw [regexpBody] at read
      obtain ⟨body, tail, rfl⟩ := ok_of_map read
      refine ⟨d, body, rfl, fun after => ?_⟩
      simp [regexpBody, (ih inClass).1 tail after, Nat.add_left_comm]

/-- A pattern that the reader of regular expressions gives back from its own text. -/
def IsPattern (pattern : List Char) : Prop :=
  regexpBody false false (pattern ++ ['/']) = .found pattern (pattern.length + 1)

/-- What the reader gives is a pattern in this sense. -/
theorem isPattern_of_read {text pattern : List Char}
    (read : (regexpBody false false text).outcome = .ok pattern) : IsPattern pattern :=
  (regexpBody_reread false).1 read []

/-- A regular expression is read back from behind its opening slash. -/
theorem regexpRest_append {pattern flags after : List Char} (proper : IsPattern pattern)
    (spelling : IsSpelling flags) (ends : EndsName after) :
    regexpRest (pattern ++ '/' :: (flags ++ after))
      = .found (pattern, flags) (pattern.length + 1 + flags.length) := by
  have body := (regexpBody_reread false).1 (congrArg Scan.outcome proper) (flags ++ after)
  have behind : (pattern ++ '/' :: (flags ++ after)).drop (pattern.length + 1) = flags ++ after := by
    rw [List.drop_append]
    simp
  simp only [regexpRest, body, andThen_found, behind, nameText_append spelling ends, map_found,
    behind_found]

/-! ## Operators -/

/-- Every beginning of a symbolic operator is an operator too. -/
theorem symbolOperators_inits :
    ∀ symbol ∈ symbolOperators, ∀ n < symbol.toList.length,
      isOperator (String.ofList (symbol.toList.take (n + 1))) = true := by
  decide

/-- An operator grows over the characters with which it stays an operator. -/
theorem operatorRun_append (more : List Char) :
    ∀ operator after : List Char,
      (∀ n < more.length,
        isOperator (String.ofList (operator ++ more.take (n + 1))) = true) →
      operatorRun operator (more ++ after) = operatorRun (operator ++ more) after := by
  induction more with
  | nil =>
    intro operator after _
    simp
  | cons c more ih =>
    intro operator after grows
    have first : isOperator (String.ofList (operator ++ [c])) = true := by
      simpa using grows 0 (by simp)
    rw [List.cons_append, operatorRun, if_pos first, ih]
    · simp
    · intro n short
      simpa using grows (n + 1) (by simpa using short)

/-- The text does not continue an operator. -/
def EndsOperator (operator after : List Char) : Prop :=
  ∀ c, after.head? = some c → isOperator (String.ofList (operator ++ [c])) = false

/-- A symbolic operator is read back. -/
theorem operatorRun_symbol {symbol : String} (known : symbol ∈ symbolOperators)
    {first : Char} {more after : List Char} (spelt : symbol.toList = first :: more)
    (ends : EndsOperator symbol.toList after) :
    operatorRun [first] (more ++ after) = symbol.toList := by
  have inits := symbolOperators_inits symbol known
  rw [spelt] at inits ends
  rw [operatorRun_append more [first] after]
  · rw [spelt]
    cases after with
    | nil => rfl
    | cons c after =>
      have stop := ends c rfl
      show operatorRun (first :: more) (c :: after) = first :: more
      rw [operatorRun, stop, if_neg Bool.false_ne_true]
  · intro n short
    simpa using inits (n + 1) (by simpa using short)

end Stencil.Lexing
