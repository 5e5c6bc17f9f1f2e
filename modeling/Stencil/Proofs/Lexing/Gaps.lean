import Stencil.Proofs.Lexing.Readers
/-!
# What the lexer takes for the next token

`Lexer.next` moves across a gap of blanks and comments and then across the text of a token.
`Takes` describes one such move completely: the gap, the comments found in it and the text of
the token, with the spans they get, whether a line break was met in the gap, and the lexer behind
them. `Lexer.takes_next` proves it of every token that `Lexer.next` gives, in every mode.
-/

set_option autoImplicit false

namespace Stencil

open Stencil.Error (Fault ParseError)
open Stencil.Text

/-- A comment as it is written. -/
def Comment.written (comment : Comment) : List Char :=
  match comment.kind with
  | .line => ['/', '/'] ++ comment.text.toList
  | .block => ['/', '*'] ++ comment.text.toList ++ ['*', '/']
  | .template => ['\x7b', '\x7b', '!'] ++ comment.text.toList ++ ['\x7d', '\x7d']

/-- A comment is written with at least two characters. -/
theorem Comment.written_ne_nil (comment : Comment) : comment.written ≠ [] := by
  unfold Comment.written
  cases comment.kind <;> simp

/-- The text between two tokens, with the comments in it: blanks and comments as they are
written, and comments only in the text of a template. The first text is what stands before. -/
inductive Gap (mode : Mode) : List Char → List Char → List Comment → Prop where
  | nil (before : List Char) : Gap mode before [] []
  | blank {before rest : List Char} {c : Char} {found : List Comment}
      (code : mode ≠ .text) (blank : isBlank c = true)
      (more : Gap mode (before ++ [c]) rest found) : Gap mode before (c :: rest) found
  | comment {before rest : List Char} {comment : Comment} {found : List Comment}
      (placed : comment.span = Span.around before comment.written)
      (more : Gap mode (before ++ comment.written) rest found) :
      Gap mode before (comment.written ++ rest) (comment :: found)

/-- The lexer, behind the given text, takes a gap and the text of a token. -/
structure Takes (lexer : Lexer) (before gap piece : List Char) (token : Token) (behind : Lexer) :
    Prop where
  /-- The lexer's rest is the gap, the token and the rest behind it. -/
  rest : lexer.rest = gap ++ piece ++ behind.rest
  /-- The gap is blanks and the comments that the token carries. -/
  between : Gap lexer.mode before gap token.comments
  /-- The token's span goes round its text. -/
  span : token.span = Span.around (before ++ gap) piece
  /-- A token other than template text knows of the line breaks in the gap. -/
  afterBreak : (∀ text, token.kind ≠ .html text) → token.afterBreak = gap.contains '\n'
  /-- The end of the text, and nothing else, is an empty token. -/
  empty : piece = [] ↔ token.isEof = true
  /-- The end of the text is taken at the end of the text. -/
  ended : token.isEof = true → behind.rest = []
  /-- The lexer behind the token stands there. -/
  place : behind.place = Position.origin.after (before ++ gap ++ piece)
  /-- No comment and no line break is carried over to the next token. -/
  none : behind.comments = []
  unbroken : behind.sawBreak = false

/-- A pattern that is found stands where it was found. -/
theorem findPattern_some {pattern cs : List Char} {length : Nat}
    (found : findPattern pattern cs = some length) :
    ∃ before behind, before.length = length ∧ cs = before ++ (pattern ++ behind) := by
  induction cs generalizing length with
  | nil =>
    unfold findPattern at found
    split_ifs at found with none
    cases found
    exact ⟨[], [], rfl, by simp [List.isEmpty_iff.1 none]⟩
  | cons c cs ih =>
    unfold findPattern at found
    split_ifs at found with here
    · cases found
      obtain ⟨behind, eq⟩ := List.isPrefixOf_iff_prefix.1 here
      exact ⟨[], behind, rfl, eq.symm⟩
    · obtain ⟨length, there, rfl⟩ := Option.map_eq_some_iff.1 found
      obtain ⟨before, behind, rfl, rfl⟩ := ih there
      exact ⟨c :: before, behind, rfl, rfl⟩

/-- A pattern does not stand before the place where it is found. -/
theorem findPattern_take {pattern cs : List Char} {length : Nat} (filled : pattern ≠ [])
    (found : findPattern pattern cs = some length) :
    findPattern pattern (cs.take length) = none := by
  have missing : findPattern pattern [] = none := by
    rw [findPattern, if_neg (by simpa using filled)]
  induction cs generalizing length with
  | nil =>
    rw [missing] at found
    cases found
  | cons c cs ih =>
    unfold findPattern at found
    split_ifs at found with here
    · cases found
      exact missing
    · obtain ⟨length, there, rfl⟩ := Option.map_eq_some_iff.1 found
      rw [List.isPrefixOf_iff_prefix] at here
      have apart : ¬pattern <+: c :: cs.take length := fun begins =>
        here (begins.trans ((List.prefix_cons_inj c).2 (List.take_prefix _ _)))
      rw [List.take_succ_cons, findPattern, if_neg (mt List.isPrefixOf_iff_prefix.1 apart), ih there]
      rfl

/-! ## The gap before a token -/

/-- Blanks of code may stand before the rest of a gap. -/
theorem Gap.blanks {mode : Mode} {before blanks rest : List Char} {found : List Comment}
    (code : mode ≠ .text) (all : ∀ c ∈ blanks, isBlank c = true)
    (more : Gap mode (before ++ blanks) rest found) : Gap mode before (blanks ++ rest) found := by
  induction blanks generalizing before with
  | nil => simpa using more
  | cons c blanks ih =>
    refine .blank code (all c (by simp)) (ih (fun d mem => all d (by simp [mem])) ?_)
    simpa using more

namespace Lexer

variable {lexer behind : Lexer} {token : Token}

/-- Two runs are skipped as one. -/
theorem skip_skip (lexer : Lexer) (first second : Nat) :
    (lexer.skip first).skip second = lexer.skip (first + second) := by
  simp only [Lexer.skip, Lexer.cross, List.drop_drop, List.take_add, Position.after_append,
    List.contains_eq_mem, List.mem_append, Bool.decide_or, Bool.or_assoc]

/-- The lexer stands in the text, behind its beginning, and is about to begin a token. -/
structure Stops (lexer : Lexer) (before : List Char) : Prop where
  place : lexer.place = Position.origin.after before
  start : lexer.start = lexer.place

/-- A comment that is read: the lexer has skipped what is written of it and keeps it. -/
structure Remarks (lexer : Lexer) (comment : Comment) (behind : Lexer) : Prop where
  rest : lexer.rest = comment.written ++ behind.rest
  place : behind.place = lexer.place.after comment.written
  span : comment.span = ⟨lexer.start, behind.place⟩
  comments : behind.comments = lexer.comments ++ [comment]
  sawBreak : behind.sawBreak = (lexer.sawBreak || comment.written.contains '\n')
  mode : behind.mode = lexer.mode

/-- Skipping what is written of a comment and keeping it. -/
theorem remarks_skip (kind : CommentKind) (text : List Char) (count : Nat)
    {written rest : List Char}
    (form : ∀ span, (Comment.mk kind (String.ofList text) span).written = written)
    (spelt : lexer.rest = written ++ rest) (length : count = written.length) :
    ∃ comment, lexer.Remarks comment ((lexer.skip count).addComment kind text) := by
  have taken : lexer.rest.take count = written := by rw [spelt, length, List.take_left]
  refine ⟨⟨kind, String.ofList text, (lexer.skip count).span⟩, ?_⟩
  constructor
  · rw [form, ← List.take_append_drop count lexer.rest, taken]
    rfl
  · rw [form]
    show lexer.place.after (lexer.rest.take count) = _
    rw [taken]
  · rfl
  · rfl
  · rw [form]
    show (lexer.sawBreak || (lexer.rest.take count).contains '\n') = _
    rw [taken]
  · rfl

/-- A comment that ends is read whole, in code and in the text of a template. -/
theorem comment?_remarks (read : lexer.comment? = some (.ok (), behind)) :
    ∃ comment, lexer.Remarks comment behind := by
  unfold comment? at read
  dsimp only at read
  split_ifs at read
  · split at read
    · next opened =>
      obtain ⟨rest, eq⟩ := CommandMarker.at?_opened opened
      split at read
      · cases read
      · next length found =>
        have body : (lexer.skip 3).rest = rest := by
          simp [Lexer.skip, Lexer.cross, eq, Command.spelling]
        rw [body] at found
        obtain ⟨text, tail, rfl, rfl⟩ := findPattern_some found
        have spelt : lexer.rest = ['\x7b', '\x7b', '!'] ++ text ++ ['\x7d', '\x7d'] ++ tail := by
          simp [eq, Command.spelling]
        obtain ⟨comment, remarks⟩ := remarks_skip .template text (3 + (text.length + 2))
          (fun span => by simp [Comment.written]) spelt (by simp; omega)
        cases read
        rw [body, skip_skip, List.take_left]
        exact ⟨comment, remarks.rest, remarks.place, remarks.span, remarks.comments,
          remarks.sawBreak, remarks.mode⟩
    · cases read
  · split at read
    · next rest eq =>
      have body : (lexer.skip 2).rest = rest := by simp [Lexer.skip, Lexer.cross, eq]
      have spelt : lexer.rest = ['/', '/'] ++ rest.takeWhile (· ≠ '\n')
          ++ rest.dropWhile (· ≠ '\n') := by
        simp [eq, List.takeWhile_append_dropWhile]
      obtain ⟨comment, remarks⟩ := remarks_skip .line (rest.takeWhile (· ≠ '\n'))
        (2 + (rest.takeWhile (· ≠ '\n')).length)
        (fun span => by simp [Comment.written]) spelt (by simp; omega)
      cases read
      rw [body, skip_skip]
      exact ⟨comment, remarks⟩
    · next rest eq =>
      split at read
      · cases read
      · next length found =>
        have body : (lexer.skip 2).rest = rest := by simp [Lexer.skip, Lexer.cross, eq]
        rw [body] at found
        obtain ⟨text, tail, rfl, rfl⟩ := findPattern_some found
        have spelt : lexer.rest = ['/', '*'] ++ text ++ ['*', '/'] ++ tail := by simp [eq]
        obtain ⟨comment, remarks⟩ := remarks_skip .block text (2 + (text.length + 2))
          (fun span => by simp [Comment.written]) spelt (by simp; omega)
        cases read
        rw [body, skip_skip, List.take_left]
        exact ⟨comment, remarks⟩
    · cases read

/-- The lexer has moved across a gap and begins a token behind it. -/
structure Skips (lexer : Lexer) (before gap : List Char) (found : List Comment) (behind : Lexer) :
    Prop where
  rest : lexer.rest = gap ++ behind.rest
  between : Gap lexer.mode before gap found
  place : behind.place = Position.origin.after (before ++ gap)
  start : behind.start = behind.place
  comments : behind.comments = lexer.comments ++ found
  sawBreak : behind.sawBreak = (lexer.sawBreak || gap.contains '\n')

/-- The lexer behind the blanks at its place, where a token is begun. -/
def atToken (lexer : Lexer) : Lexer :=
  (if lexer.mode = .text then lexer else lexer.skipBlanks).mark

/-- Blanks before a token, of which there are none in the text of a template. -/
theorem skips_blanks {before : List Char} (place : lexer.place = Position.origin.after before) :
    ∃ blanks, (∀ c ∈ blanks, isBlank c = true) ∧ (lexer.mode = .text → blanks = []) ∧
      lexer.rest = blanks ++ lexer.atToken.rest ∧ lexer.atToken.Stops (before ++ blanks) ∧
      lexer.atToken.sawBreak = (lexer.sawBreak || blanks.contains '\n') ∧
      lexer.atToken.comments = lexer.comments ∧ lexer.atToken.mode = lexer.mode := by
  unfold atToken
  split_ifs with text
  · exact ⟨[], by simp, by simp, rfl, ⟨by simpa [mark] using place, rfl⟩, by simp [mark], rfl, rfl⟩
  · have taken : lexer.rest.take (lexer.rest.takeWhile isBlank).length
        = lexer.rest.takeWhile isBlank :=
      List.prefix_iff_eq_take.1 (List.takeWhile_prefix isBlank) |>.symm
    refine ⟨lexer.rest.takeWhile isBlank, List.all_eq_true.1 List.all_takeWhile, by simp [text], ?_,
      ⟨?_, rfl⟩, ?_, rfl, rfl⟩
    · conv => lhs; rw [← List.take_append_drop (lexer.rest.takeWhile isBlank).length lexer.rest]
      rw [taken]
      rfl
    · show lexer.place.after (lexer.rest.take _) = _
      rw [taken, place, Position.after_append]
    · show (lexer.sawBreak || (lexer.rest.take _).contains '\n') = _
      rw [taken]

/-- Moving to the next token goes across a gap: by induction on the bound of the comments, which
is one less behind each of them. -/
theorem skips_skipTriviaWithin {before : List Char} {n : Nat}
    (place : lexer.place = Position.origin.after before)
    (moved : lexer.skipTriviaWithin n = (.ok (), behind)) :
    ∃ gap found, lexer.Skips before gap found behind := by
  induction n generalizing lexer before with
  | zero =>
    cases moved
    exact ⟨[], [], by simp [mark], .nil _, by simpa [mark] using place, rfl, by simp [mark],
      by simp [mark]⟩
  | succ n ih =>
    obtain ⟨blanks, all, none, rest, stops, sawBreak, comments, mode⟩ := skips_blanks place
    have between {gap : List Char} {found : List Comment}
        (more : Gap lexer.mode (before ++ blanks) gap found) :
        Gap lexer.mode before (blanks ++ gap) found := by
      by_cases text : lexer.mode = .text
      · simpa [none text] using more
      · exact .blanks text all more
    unfold skipTriviaWithin at moved
    dsimp only at moved
    rw [← atToken] at moved
    split at moved
    · next remarked read =>
      obtain ⟨comment, remarks⟩ := comment?_remarks read
      have placed : remarked.place
          = Position.origin.after (before ++ blanks ++ comment.written) := by
        rw [remarks.place, stops.place, Position.after_append _ (before ++ blanks)]
      obtain ⟨gap, found, skips⟩ := ih placed moved
      refine ⟨blanks ++ (comment.written ++ gap), comment :: found, ?_⟩
      constructor
      · rw [rest, remarks.rest, skips.rest]
        simp
      · refine between (.comment ?_ ?_)
        · rw [remarks.span, stops.start, stops.place, placed]
          rfl
        · have same : remarked.mode = lexer.mode := remarks.mode.trans mode
          simpa [same] using skips.between
      · rw [skips.place]
        simp
      · exact skips.start
      · rw [skips.comments, remarks.comments, comments]
        simp
      · rw [skips.sawBreak, remarks.sawBreak, sawBreak]
        simp [Bool.or_assoc]
    · cases moved
    · cases moved
      refine ⟨blanks, [], rest, ?_, stops.place, stops.start, by simp [comments], sawBreak⟩
      simpa using between (.nil _)

/-- What the lexer gives as the next token it takes behind a gap, in every mode. -/
theorem takes_next {before : List Char} (place : lexer.place = Position.origin.after before)
    (none : lexer.comments = []) (unbroken : lexer.sawBreak = false)
    (read : lexer.next = (.ok token, behind)) :
    ∃ gap piece, Takes lexer before gap piece token behind := by
  unfold Lexer.next at read
  split at read
  · next skipped eq =>
    obtain ⟨gap, found, skips⟩ := skips_skipTriviaWithin place eq
    obtain ⟨piece, ends⟩ := ends_readToken read
    refine ⟨gap, piece, ?_⟩
    constructor
    · rw [skips.rest, ends.rest, List.append_assoc]
    · rw [ends.comments, skips.comments, none]
      exact skips.between
    · rw [ends.span, skips.start, ends.place, skips.place, ← Position.after_append]
      rfl
    · intro code
      rw [ends.afterBreak code, skips.sawBreak, unbroken, Bool.false_or]
    · exact ends.empty
    · exact ends.ended
    · rw [ends.place, skips.place, ← Position.after_append]
    · exact ends.none
    · exact ends.unbroken
  · cases read

end Lexer

end Stencil
