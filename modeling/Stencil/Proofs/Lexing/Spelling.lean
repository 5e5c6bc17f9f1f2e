import Stencil.Proofs.Lexing.Characters
import Stencil.Proofs.Lexing.Numbers
import Stencil.Token.Lexer
/-!
# Reading back a token

`Word` says which texts spell a token, and `stopsAt` before which characters a token ends. A text
that spells a token is read back as that token wherever it stands, provided that the text behind
does not continue it (`readCode_spelt`).
-/

set_option autoImplicit false

namespace Stencil.Lexing

open Stencil.Text
open Stencil.Number

/-! ## Words -/

/-- The spelling of a name: one that may stand as a name, or a reserved word whose first character
is escaped. -/
def IsNameText (cs : List Char) : Prop :=
  isName cs = true ∨ ∃ word, isReserved (String.ofList word) = true ∧ cs = respell word

/-- A text that spells a token. The flag tells whether a slash begins a regular expression. -/
inductive Word : (regexp : Bool) → TokenKind → List Char → Prop where
  | number {regexp : Bool} {value : Float} {text : List Char}
      (known : Literal.value? text = some value) : Word regexp (.num value) text
  | string {regexp : Bool} (text : String) :
      Word regexp (.string text) (Quoted.literal text).toList
  | name {regexp : Bool} {name : String} (spelt : IsNameText name.toList) :
      Word regexp (wordKind name) name.toList
  | symbol {regexp : Bool} {symbol : String} (known : symbol ∈ symbolOperators)
      (divides : symbol.toList.head? = some '/' → regexp = false) :
      Word regexp (.operator symbol) symbol.toList
  | punctuation {regexp : Bool} {c : Char} (known : isPunctuation c = true) :
      Word regexp (.punctuation c) [c]
  | point {regexp : Bool} : Word regexp (.punctuation '.') ['.']
  | regexp {pattern flags : String} (proper : IsPattern pattern.toList)
      (nonempty : pattern ≠ "") (star : pattern.toList.head? ≠ some '*')
      (spelling : IsSpelling flags.toList)
      (unbroken : ∀ c ∈ pattern.toList, isForeignBreak c = false) :
      Word true (.regexp pattern flags) ('/' :: (pattern.toList ++ '/' :: flags.toList))

/-- Whether a character ends a name before it. -/
def endsName (c : Char) : Bool :=
  !isNamePart c && c ≠ '\\'

/-- Whether a token ends before the character, so that the two are not read as one. -/
def stopsAt : TokenKind → Char → Bool
  | .num _, c => !isAlphanumeric c && c ≠ '.'
  | .name _, c | .keyword _, c | .atom _, c | .regexp .., c => endsName c
  | .operator symbol, c =>
    if wordOperators.contains symbol then endsName c
    else
      !isOperator (String.ofList (symbol.toList ++ [c]))
        && !(symbol = "/" && (c = '/' || c = '*'))
  | .punctuation p, c => !(p = '.' && isDigit c)
  | _, _ => true

/-- Whether a token ends before the text. -/
def StopsBefore (kind : TokenKind) (after : List Char) : Prop :=
  ∀ c, after.head? = some c → stopsAt kind c = true

/-- The token of a word ends where a name ends. -/
theorem stopsAt_wordKind (word : String) (c : Char) : stopsAt (wordKind word) c = endsName c := by
  unfold wordKind
  split
  · rename_i operator
    simp only [stopsAt, if_pos operator]
  · split
    · rfl
    · split <;> rfl

/-- A name ends before a text when it ends before its first character. -/
theorem endsName_of_stopsBefore {word : String} {after : List Char}
    (stops : StopsBefore (wordKind word) after) : EndsName after := by
  intro c first
  have := stops c first
  rw [stopsAt_wordKind, endsName, Bool.and_eq_true, decide_eq_true_eq] at this
  exact ⟨by simpa using this.1, this.2⟩

/-! ### Blanks -/

/-- The last characters of operators. -/
def operatorEnds : List Char := "+-!~&|^*/%<>=?nfdew".toList

/-- An operator ends in one of the list. -/
theorem mem_operatorEnds {cs : List Char} {c : Char}
    (operator : isOperator (String.ofList (cs ++ [c])) = true) : c ∈ operatorEnds := by
  have table : ∀ symbol ∈ wordOperators ++ symbolOperators,
      ∀ c, symbol.toList.getLast? = some c → c ∈ operatorEnds := by
    decide
  unfold isOperator at operator
  rw [Bool.or_eq_true, List.contains_iff_mem, List.contains_iff_mem] at operator
  exact table _ (List.mem_append.2 operator) c (by simp)

/-- Every token ends before a blank. -/
theorem stopsAt_blank (kind : TokenKind) {c : Char} (blank : isBlank c = true) :
    stopsAt kind c = true := by
  have part := isNamePart_blank blank
  have plain := isAlphanumeric_blank blank
  have apart (d : Char) (listed : d ∈ otherStarts) : c ≠ d := by
    rintro rfl
    exact blank_other blank listed
  have point := apart '.' (by decide)
  have backslash := apart '\\' (by decide)
  have slash := apart '/' (by decide)
  have star := apart '*' (by decide)
  have digit : isDigit c = false := by
    rw [isAlphanumeric, Bool.or_eq_false_iff] at plain
    exact plain.1
  have name : endsName c = true := by simp [endsName, part, backslash]
  cases kind with
  | operator symbol =>
    have none_ : isOperator (String.ofList (symbol.toList ++ [c])) = false := by
      rw [← Bool.not_eq_true]
      intro operator
      have table : ∀ c ∈ operatorEnds, isBlank c = false := by decide
      rw [table c (mem_operatorEnds operator)] at blank
      exact absurd blank (by decide)
    simp only [stopsAt, none_, name, slash, star]
    simp
  | num value => simp [stopsAt, plain, point]
  | punctuation p => simp [stopsAt, digit]
  | _ => first | exact name | rfl

/-! ### Beginnings -/

/-- The table for the characters with which tokens other than names begin. -/
theorem otherStarts_table :
    ∀ c ∈ otherStarts, isBlank c = false ∧ c ≠ '\ufeff' ∧ isForeignBreak c = false := by
  decide

/-- What begins a name is no blank, no byte order mark and no brace. -/
theorem nameStart_table {c : Char} (start : isNameStart c = true) :
    isBlank c = false ∧ c ≠ '\ufeff' ∧ c ∉ otherStarts := by
  have part := isNamePart_of_isNameStart start
  refine ⟨?_, ?_, nameStart_other start⟩
  · rw [← Bool.not_eq_true]
    intro blank
    rw [isNamePart_blank blank] at part
    exact absurd part (by decide)
  · rintro rfl
    rw [isNamePart_foreign (.inr rfl)] at part
    exact absurd part (by decide)

/-- The spelling of a name begins with what may begin a name, or with a backslash. -/
theorem IsNameText.begins {cs : List Char} (spelt : IsNameText cs) :
    IsSpelling cs ∧ ∃ c tail, cs = c :: tail ∧ (isNameStart c = true ∨ c = '\\') := by
  rcases spelt with plain | ⟨word, reserved, same⟩
  · cases cs with
    | nil => simp [isName] at plain
    | cons c tail =>
      rw [isName, Bool.and_eq_true] at plain
      refine ⟨.inl ?_, c, tail, rfl, .inl plain.1⟩
      rw [List.all_cons, isNamePart_of_isNameStart plain.1, plain.2]
      rfl
  · have known := reservedWords_chars _ (mem_reservedWords reserved)
    cases word with
    | nil => exact absurd (by simp) known.1
    | cons first others => exact ⟨.inr ⟨_, reserved, same⟩, '\\', _, same, .inr rfl⟩

/-- The first characters of symbolic operators. -/
theorem symbolOperators_begin :
    ∀ symbol ∈ symbolOperators, ∃ c ∈ otherStarts, symbol.toList.head? = some c ∧
      c ≠ '\x7b' ∧ c ≠ '\x7d' := by
  decide

/-- The token of a word is no bracket. -/
theorem wordKind_ne_punctuation (word : String) (c : Char) : wordKind word ≠ .punctuation c := by
  rcases wordKind_cases word with ⟨_, same⟩ | ⟨_, same⟩ | ⟨_, same⟩ | same <;> simp [same]

/-- A word begins with a character that is no blank and no byte order mark, and with a brace only
if it is one. -/
theorem Word.begins {regexp : Bool} {kind : TokenKind} {word : List Char}
    (spelt : Word regexp kind word) :
    ∃ c tail, word = c :: tail ∧ isBlank c = false ∧ c ≠ '\ufeff' ∧
      ∀ brace, brace = '\x7b' ∨ brace = '\x7d' → (c = brace ↔ kind = .punctuation brace) := by
  have other (c : Char) (listed : c ∈ otherStarts) (apart : c ≠ '\x7b' ∧ c ≠ '\x7d')
      (tail : List Char)
      (none_ : ∀ brace, brace = '\x7b' ∨ brace = '\x7d' → kind ≠ .punctuation brace) :
      ∃ d more, c :: tail = d :: more ∧ isBlank d = false ∧ d ≠ '\ufeff' ∧
        ∀ brace, brace = '\x7b' ∨ brace = '\x7d' → (d = brace ↔ kind = .punctuation brace) := by
    refine ⟨c, tail, rfl, (otherStarts_table c listed).1, (otherStarts_table c listed).2.1, ?_⟩
    intro brace known
    refine ⟨fun same => ?_, fun same => absurd same (none_ brace known)⟩
    rcases known with rfl | rfl
    · exact absurd same apart.1
    · exact absurd same apart.2
  cases spelt with
  | number known =>
    obtain ⟨begins, -⟩ := statesThrough_value? known
    have digits : ∀ d ∈ "0123456789".toList, d ∈ otherStarts ∧ d ≠ '\x7b' ∧ d ≠ '\x7d' := by decide
    unfold BeginsNumber at begins
    split at begins
    · exact other '.' (by decide) (by decide) _ (by simp)
    · rename_i c tail _
      obtain ⟨listed, apart⟩ := digits c (mem_digits begins)
      exact other c listed apart _ (by simp)
    · exact absurd begins id
  | string text =>
    rw [Quoted.literal, String.toList_ofList]
    exact other '"' (by decide) (by decide) _ (by simp)
  | name spelt =>
    obtain ⟨-, c, tail, chars, start⟩ := spelt.begins
    rw [chars]
    rcases start with start | rfl
    · obtain ⟨blank, mark, apart⟩ := nameStart_table start
      refine ⟨c, tail, rfl, blank, mark, ?_⟩
      intro brace known
      refine ⟨?_, fun same => absurd same (wordKind_ne_punctuation _ _)⟩
      rintro rfl
      rcases known with rfl | rfl
      · exact absurd (by decide) apart
      · exact absurd (by decide) apart
    · exact other '\\' (by decide) (by decide) _ (fun brace _ => wordKind_ne_punctuation _ brace)
  | symbol known =>
    obtain ⟨c, listed, first, apart⟩ := symbolOperators_begin _ known
    obtain ⟨tail, chars⟩ := List.head?_eq_some_iff.1 first
    rw [chars]
    exact other c listed apart _ (by simp)
  | punctuation known =>
    rename_i c
    have table : ∀ c ∈ "[]\x7b\x7d(),;:".toList, c ∈ otherStarts := by decide
    have listed := table c (List.contains_iff_mem.1 known)
    exact ⟨c, [], rfl, (otherStarts_table c listed).1, (otherStarts_table c listed).2.1,
      fun brace _ => by simp⟩
  | point => exact other '.' (by decide) (by decide) _ (by rintro _ (rfl | rfl) <;> simp)
  | regexp => exact other '/' (by decide) (by decide) _ (by simp)

/-- The text begins no comment of code. -/
def BeginsNoComment (text : List Char) : Prop :=
  ∀ rest, text ≠ '/' :: '/' :: rest ∧ text ≠ '/' :: '*' :: rest

/-- A text that does not begin with a slash begins no comment. -/
theorem beginsNoComment_of_head {text : List Char} (other : text.head? ≠ some '/') :
    BeginsNoComment text := by
  refine fun rest => ⟨?_, ?_⟩ <;> rintro rfl <;> exact other rfl

/-- A symbolic operator that begins with a slash is a division. -/
theorem symbolOperators_slash :
    ∀ symbol ∈ symbolOperators, symbol.toList.head? = some '/' → symbol = "/" ∨ symbol = "/=" := by
  decide

/-- A word begins no comment. -/
theorem Word.beginsNoComment {regexp : Bool} {kind : TokenKind} {word after : List Char}
    (spelt : Word regexp kind word) (stops : StopsBefore kind after) :
    BeginsNoComment (word ++ after) := by
  have other {c : Char} {tail : List Char} (apart : c ≠ '/') (same : word = c :: tail) :
      BeginsNoComment (word ++ after) := by
    apply beginsNoComment_of_head
    simpa [same] using apart
  have outside {c : Char} {tail : List Char} (start : isNameStart c = true ∨ c = '\\')
      (same : word = c :: tail) : BeginsNoComment (word ++ after) := by
    refine other ?_ same
    rintro rfl
    rcases start with start | start
    · exact nameStart_other start (by decide)
    · exact absurd start (by decide)
  cases spelt with
  | number known =>
    obtain ⟨begins, -⟩ := statesThrough_value? known
    have digits : ∀ d ∈ "0123456789".toList, d ≠ '/' := by decide
    unfold BeginsNumber at begins
    split at begins
    · exact other (by decide) rfl
    · rename_i c tail _
      exact other (digits c (mem_digits begins)) rfl
    · exact absurd begins id
  | string text =>
    exact other (c := '"') (by decide) (by rw [Quoted.literal, String.toList_ofList])
  | name spelt =>
    obtain ⟨-, c, tail, chars, start⟩ := spelt.begins
    exact outside start chars
  | symbol known =>
    rename_i symbol _
    by_cases slash : symbol.toList.head? = some '/'
    · rcases symbolOperators_slash _ known slash with rfl | rfl
      · cases after with
        | nil => exact fun rest => ⟨by simp, by simp⟩
        | cons c after =>
          have stop := stops c rfl
          have apart : c ≠ '/' ∧ c ≠ '*' := by
            refine ⟨?_, ?_⟩ <;> rintro rfl <;> exact absurd stop (by decide)
          exact fun rest => ⟨by simp [apart.1], by simp [apart.2]⟩
      · exact fun rest => ⟨by simp, by simp⟩
    · obtain ⟨c, listed, first, -⟩ := symbolOperators_begin _ known
      obtain ⟨tail, chars⟩ := List.head?_eq_some_iff.1 first
      refine other (c := c) ?_ chars
      rintro rfl
      exact slash first
  | punctuation known =>
    rename_i c
    have table : ∀ c ∈ "[]\x7b\x7d(),;:".toList, c ≠ '/' := by decide
    exact other (table c (List.contains_iff_mem.1 known)) rfl
  | point => exact other (by decide) rfl
  | regexp proper nonempty star spelling unbroken =>
    rename_i pattern flags
    cases chars : pattern.toList with
    | nil => exact absurd (String.toList_eq_nil_iff.1 chars) nonempty
    | cons c tail =>
      rw [chars] at star proper
      have slash : c ≠ '/' := by
        rintro rfl
        have := congrArg Scan.outcome proper
        simp [regexpBody, Scan.found] at this
      have star : c ≠ '*' := by simpa using star
      exact fun rest => ⟨by simp [slash], by simp [star]⟩

/-! ## Reading a word -/

section Reading

variable {lexer : Lexer} {kind : TokenKind} {word after : List Char}

/-- Moving across two runs is moving across both at once. -/
theorem cross_cross (lexer : Lexer) (first second : Nat) :
    (lexer.cross first).cross second = lexer.cross (first + second) := by
  simp only [Lexer.cross, List.drop_drop, List.take_add, Position.after_append]

/-- A scan that found a result ends the token. -/
theorem accept_found {α : Type} (lexer : Lexer) (result : α) (width : Nat) (make : α → TokenKind) :
    lexer.accept (.found result width) make = (lexer.cross width).token (make result) := rfl

/-- A name is read by the reader of words. -/
theorem readCode_name {c : Char} {following : List Char}
    (start : isNameStart c = true ∨ c = '\\') : lexer.readCode c following = lexer.readWord := by
  rcases start with start | rfl
  · have apart (d : Char) (listed : d ∈ otherStarts) : c ≠ d := by
      rintro rfl
      exact nameStart_other start listed
    have digit : isDigit c = false := by
      rw [← Bool.not_eq_true]
      intro digit
      have listed : ∀ d ∈ "0123456789".toList, d ∈ otherStarts := by decide
      exact nameStart_other start (listed c (mem_digits digit))
    have operator : isOperatorChar c = false := by
      rw [← Bool.not_eq_true]
      intro operator
      have listed : ∀ d ∈ "+-*&%=<>!?|~^".toList, d ∈ otherStarts := by decide
      exact nameStart_other start (listed c (List.contains_iff_mem.1 operator))
    have mark : isPunctuation c = false := by
      rw [← Bool.not_eq_true]
      intro mark
      have listed : ∀ d ∈ "[]\x7b\x7d(),;:".toList, d ∈ otherStarts := by decide
      exact nameStart_other start (listed c (List.contains_iff_mem.1 mark))
    simp only [Lexer.readCode, apart '"' (by decide), apart '\'' (by decide),
      apart '.' (by decide), apart '/' (by decide), apart '\\' (by decide), digit, operator, mark,
      start]
    simp
  · simp [Lexer.readCode]

/-- A digit is read by the reader of numbers. -/
theorem readCode_digit {c : Char} {following : List Char} (digit : isDigit c = true) :
    lexer.readCode c following = lexer.readNumber false := by
  have apart : ∀ d ∈ "0123456789".toList,
      d ≠ '"' ∧ d ≠ '\'' ∧ d ≠ '.' ∧ d ≠ '/' ∧ d ≠ '\\' := by
    decide
  obtain ⟨double, single, point, slash, backslash⟩ := apart c (mem_digits digit)
  simp only [Lexer.readCode, double, single, point, slash, backslash, digit]
  simp

/-- The text behind the first characters of the rest. -/
theorem rest_cross (lexer : Lexer) (count : Nat) :
    (lexer.cross count).rest = lexer.rest.drop count := rfl

/-- A number is read back. -/
theorem readCode_number {value : Float} (known : Literal.value? word = some value)
    (stops : StopsBefore (.num value) after) (rest : lexer.rest = word ++ after) :
    ∃ c tail, word = c :: tail ∧
      lexer.readCode c (tail ++ after) = (lexer.cross word.length).token (.num value) := by
  obtain ⟨begins, last, through, unsigned⟩ := statesThrough_value? known
  have ends : EndsNumber after := by
    intro c first
    simpa [stopsAt] using stops c first
  unfold BeginsNumber at begins
  split at begins
  · rename_i d tail
    refine ⟨'.', d :: tail, rfl, ?_⟩
    -- The point is passed over first; the reader then begins in the state behind a point.
    have behind : statesThrough { freshNumber with point := true } (d :: tail) = some last := by
      rwa [statesThrough, next?_point freshNumber rfl rfl rfl, Option.bind_some] at through
    have run := numberRun_append behind unsigned ends
    have dropped : (lexer.cross 1).rest = (d :: tail) ++ after := by rw [rest_cross, rest]; rfl
    have step : lexer.readCode '.' (d :: tail ++ after) = (lexer.cross 1).readNumber true := by
      simp [Lexer.readCode, begins]
    simp only [freshNumber] at run
    simp only [step, Lexer.readNumber, dropped, run, if_true, known, accept_found, cross_cross]
    simp only [List.length_cons, Nat.add_comm 1]
  · rename_i c tail _
    refine ⟨c, tail, rfl, ?_⟩
    have run := numberRun_append through unsigned ends
    simp only [freshNumber] at run
    simp only [readCode_digit begins, Lexer.readNumber, rest, run, Bool.false_eq_true, if_false,
      known, accept_found]
  · exact absurd begins id

/-- A string literal is read back. -/
theorem readCode_string (text : String) (after : List Char) :
    ∃ c tail, (Quoted.literal text).toList = c :: tail ∧
      lexer.readCode c (tail ++ after)
        = (lexer.cross (Quoted.literal text).toList.length).token (.string text) := by
  have spelt : (Quoted.literal text).toList
      = '"' :: (text.toList.flatMap Quoted.literalChar ++ ['"']) := by
    rw [Quoted.literal, String.toList_ofList]
  refine ⟨'"', _, spelt, ?_⟩
  have read := stringRest_literal text.toList after
  rw [spelt]
  simp only [Lexer.readCode, List.append_assoc, List.cons_append, List.nil_append, read,
    behind_found, decide_true, Bool.true_or, if_true, accept_found, String.ofList_toList,
    List.length_cons, List.length_append, List.length_nil]
  rw [Nat.add_comm 1]

/-- A name is read back as the token of its word. -/
theorem readCode_word {name : String} (spelt : IsNameText name.toList)
    (stops : StopsBefore (wordKind name) after) (rest : lexer.rest = name.toList ++ after) :
    ∃ c tail, name.toList = c :: tail ∧
      lexer.readCode c (tail ++ after)
        = (lexer.cross name.toList.length).token (wordKind name) := by
  obtain ⟨spelling, c, tail, chars, start⟩ := spelt.begins
  refine ⟨c, tail, chars, ?_⟩
  rw [readCode_name start, Lexer.readWord, rest,
    nameText_append spelling (endsName_of_stopsBefore stops), accept_found, String.ofList_toList]

/-- A symbolic operator is read back. -/
theorem readCode_symbol {symbol : String} (known : symbol ∈ symbolOperators)
    (divides : symbol.toList.head? = some '/' → lexer.regexpAllowed = false)
    (stops : StopsBefore (.operator symbol) after) :
    ∃ c tail, symbol.toList = c :: tail ∧
      lexer.readCode c (tail ++ after)
        = (lexer.cross symbol.toList.length).token (.operator symbol) := by
  have table : ∀ symbol ∈ symbolOperators, wordOperators.contains symbol = false ∧
      isOperator symbol = true ∧ symbol.toList ≠ [] ∧
      ∀ c, symbol.toList.head? = some c → c = '/' ∨ isOperatorChar c = true ∧ isDigit c = false ∧
        c ≠ '"' ∧ c ≠ '\'' ∧ c ≠ '.' ∧ c ≠ '\\' ∧ c ≠ '/' := by
    decide
  obtain ⟨noWord, operator, nonempty, starts⟩ := table symbol known
  have ends : EndsOperator symbol.toList after := by
    intro c first
    have := stops c first
    rw [stopsAt, if_neg (by rw [noWord]; decide), Bool.and_eq_true] at this
    simpa using this.1
  cases chars : symbol.toList with
  | nil => exact absurd chars nonempty
  | cons c tail =>
    refine ⟨c, tail, rfl, ?_⟩
    have run := operatorRun_symbol known chars ends
    have read : lexer.readOperator c (tail ++ after)
        = (lexer.cross symbol.toList.length).token (.operator symbol) := by
      simp only [Lexer.readOperator, run, String.ofList_toList, operator, if_true, accept_found]
    rw [chars] at read
    rcases starts c (by rw [chars]; rfl) with rfl | ⟨mark, digit, double, single, point, backslash,
      slash⟩
    · have dividing := divides (by rw [chars]; rfl)
      simp only [Lexer.readCode, dividing, read]
      simp
    · simp only [Lexer.readCode, mark, digit, double, single, point, backslash, slash, read]
      simp

/-- A bracket or separator is read back. -/
theorem readCode_punctuation {c : Char} (known : isPunctuation c = true) (following : List Char) :
    lexer.readCode c following = (lexer.cross 1).token (.punctuation c) := by
  have table : ∀ c ∈ "[]\x7b\x7d(),;:".toList, isOperatorChar c = false ∧ isDigit c = false ∧
      c ≠ '"' ∧ c ≠ '\'' ∧ c ≠ '.' ∧ c ≠ '\\' ∧ c ≠ '/' := by
    decide
  obtain ⟨mark, digit, double, single, point, backslash, slash⟩ :=
    table c (List.contains_iff_mem.1 known)
  simp only [Lexer.readCode, mark, digit, double, single, point, backslash, slash, known]
  simp

/-- A point that no digit follows is read back. -/
theorem readCode_point (stops : StopsBefore (.punctuation '.') after) :
    lexer.readCode '.' after = (lexer.cross 1).token (.punctuation '.') := by
  have no_digit : (after.head?.map isDigit).getD false = false := by
    cases after with
    | nil => rfl
    | cons c after => simpa [stopsAt] using stops c rfl
  simp only [Lexer.readCode, no_digit]
  simp

/-- A regular expression is read back where a slash begins one. -/
theorem readCode_regexp {pattern flags : String} (proper : IsPattern pattern.toList)
    (spelling : IsSpelling flags.toList) (allowed : lexer.regexpAllowed = true)
    (stops : StopsBefore (.regexp pattern flags) after)
    (rest : lexer.rest = '/' :: (pattern.toList ++ '/' :: (flags.toList ++ after))) :
    lexer.readCode '/' (pattern.toList ++ '/' :: (flags.toList ++ after))
      = (lexer.cross (1 + (pattern.toList.length + 1 + flags.toList.length))).token
          (.regexp pattern flags) := by
  have ends : EndsName after := by
    intro c first
    have := stops c first
    rw [stopsAt, endsName, Bool.and_eq_true, decide_eq_true_eq] at this
    exact ⟨by simpa using this.1, this.2⟩
  have step : lexer.readCode '/' (pattern.toList ++ '/' :: (flags.toList ++ after))
      = (lexer.cross 1).readRegexp [] := by
    simp [Lexer.readCode, allowed]
  have dropped : (lexer.cross 1).rest = pattern.toList ++ '/' :: (flags.toList ++ after) := by
    rw [rest_cross, rest]
    rfl
  rw [step, Lexer.readRegexp, dropped, regexpRest_append proper spelling ends, accept_found,
    cross_cross]
  simp only [List.nil_append, String.ofList_toList]

/-- A word is read back as its token, where the text behind does not continue it. -/
theorem readCode_spelt (spelt : Word lexer.regexpAllowed kind word)
    (stops : StopsBefore kind after) (rest : lexer.rest = word ++ after) :
    ∃ c tail, word = c :: tail ∧
      lexer.readCode c (tail ++ after) = (lexer.cross word.length).token kind := by
  generalize allowed : lexer.regexpAllowed = regexp at spelt
  cases spelt with
  | number known => exact readCode_number known stops rest
  | string text => exact readCode_string text after
  | name spelt => exact readCode_word spelt stops rest
  | symbol known divides => exact readCode_symbol known (fun slash => allowed.trans (divides slash)) stops
  | punctuation known => exact ⟨_, [], rfl, readCode_punctuation known _⟩
  | point => exact ⟨_, [], rfl, readCode_point stops⟩
  | regexp proper nonempty star spelling unbroken =>
    refine ⟨'/', _, rfl, ?_⟩
    simp only [List.cons_append, List.append_assoc] at rest ⊢
    rw [readCode_regexp proper spelling allowed stops rest]
    simp only [List.length_cons, List.length_append]
    congr 2
    omega

end Reading

end Stencil.Lexing
