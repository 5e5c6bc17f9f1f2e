import Stencil.Proofs.Lexing.Gaps
import Stencil.Proofs.Lexing.Streams
/-!
# What a token leaves

Every token but the end of the text takes some of the text, and none gives any back: so the text
that is left bounds how much can be read. Behind the marker of a closer stands code, and its name
is the next token, whatever follows it.
-/

set_option autoImplicit false

namespace Stencil

open Stencil.Text

namespace Lexer

variable {lexer behind : Lexer} {token : Token}

/-! ## The text that is left -/

/-- Moving to the next token gives no text back, and leaves the mode: by induction on the bound of
the comments. -/
theorem skipTriviaWithin_le {n : Nat} (moved : lexer.skipTriviaWithin n = (.ok (), behind)) :
    behind.rest.length ≤ lexer.rest.length ∧ behind.mode = lexer.mode := by
  induction n generalizing lexer with
  | zero =>
    cases moved
    exact ⟨Nat.le_refl _, rfl⟩
  | succ n ih =>
    have blanks :
        lexer.atToken.rest.length ≤ lexer.rest.length ∧ lexer.atToken.mode = lexer.mode := by
      unfold atToken
      split_ifs with text
      · exact ⟨Nat.le_refl _, rfl⟩
      · exact ⟨by simp [mark, skipBlanks, skip, cross], rfl⟩
    unfold skipTriviaWithin at moved
    dsimp only at moved
    rw [← atToken] at moved
    split at moved
    · next remarked read =>
      obtain ⟨comment, remarks⟩ := comment?_remarks read
      obtain ⟨shorter, mode⟩ := ih moved
      have taken := congrArg List.length remarks.rest
      rw [List.length_append] at taken
      exact ⟨by omega, mode.trans (remarks.mode.trans blanks.2)⟩
    · cases moved
    · cases moved
      exact blanks

/-- Every token but the end of the text takes some of the text. -/
theorem next_le (read : lexer.next = (.ok token, behind)) :
    behind.rest.length + (if token.isEof then 0 else 1) ≤ lexer.rest.length := by
  unfold Lexer.next at read
  split at read
  · next skipped moved =>
    obtain ⟨shorter, -⟩ := skipTriviaWithin_le moved
    obtain ⟨piece, ends⟩ := ends_readToken read
    have taken := congrArg List.length ends.rest
    rw [List.length_append] at taken
    split_ifs with ended
    · omega
    · have filled : piece ≠ [] := fun nothing => ended (ends.empty.1 nothing)
      have positive := List.length_pos_iff.2 filled
      omega
  · cases read

/-- Reading the current token again as a regular expression gives no text back. -/
theorem rereadRegexp_le {lead : String} (read : lexer.rereadRegexp lead = (.ok token, behind)) :
    behind.rest.length ≤ lexer.rest.length ∧
      ∃ pattern flags, token.kind = .regexp pattern flags := by
  obtain ⟨⟨pattern, flags⟩, -, ended⟩ := accept_ok read
  cases ended
  exact ⟨by simp [cross], _, _, rfl⟩

/-! ## Closers -/

/-- A word is no marker. -/
theorem wordKind_ne_marker (word : String) (marker : Marker) : wordKind word ≠ .marker marker := by
  rcases Lexing.wordKind_cases word with ⟨_, same⟩ | ⟨_, same⟩ | ⟨_, same⟩ | same <;> simp [same]

/-- The kind of a token that ends somewhere. -/
theorem kind_of_token {kind : TokenKind} (ended : lexer.token kind = (.ok token, behind)) :
    token.kind = kind := by
  cases ended
  rfl

/-- The kind of what a reader found is made from it. -/
theorem kind_of_accept {α : Type} {scan : Scan α} {make : α → TokenKind}
    (read : lexer.accept scan make = (.ok token, behind)) : ∃ result, token.kind = make result := by
  obtain ⟨result, -, ended⟩ := accept_ok read
  exact ⟨result, kind_of_token ended⟩

/-- How a token of code is read that begins with a given character: its kind, or the reader that gives
it. -/
inductive ReadsCode (lexer : Lexer) (c : Char) (following : List Char) (token : Token)
    (behind : Lexer) : Prop where
  | string {text : String} (kind : token.kind = .string text)
  | fraction (point : c = '.') (read : (lexer.cross 1).readNumber true = (.ok token, behind))
  | number (read : lexer.readNumber false = (.ok token, behind))
  | regexp {pattern flags : String} (kind : token.kind = .regexp pattern flags)
  | word (start : isNameStart c = true ∨ c = '\\') (read : lexer.readWord = (.ok token, behind))
  | operator (divides : c = '/' → lexer.regexpAllowed = false)
      (read : lexer.readOperator c following = (.ok token, behind))
  | punctuation {mark : Char} (kind : token.kind = .punctuation mark)

/-- What the reader of code reads. -/
theorem readsCode_of_readCode {c : Char} {following : List Char}
    (read : lexer.readCode c following = (.ok token, behind)) :
    lexer.ReadsCode c following token behind := by
  unfold readCode at read
  dsimp only at read
  split_ifs at read with quote point number slash regexp escape digit operator mark start
  · obtain ⟨_, kind⟩ := kind_of_accept read
    exact .string kind
  · exact .fraction point read
  · exact .punctuation (kind_of_token read)
  · obtain ⟨_, kind⟩ := kind_of_accept read
    exact .regexp kind
  · exact .operator (fun _ => by simpa using regexp) read
  · exact .word (.inr escape) read
  · exact .number read
  · exact .operator (fun same => absurd same slash) read
  · exact .punctuation (kind_of_token read)
  · exact .word (.inl start) read
  · cases read

/-- The token of code that begins with a character is no marker. -/
theorem readCode_ne_marker {c : Char} {following : List Char}
    (read : lexer.readCode c following = (.ok token, behind)) (marker : Marker) :
    token.kind ≠ .marker marker := by
  cases readsCode_of_readCode read with
  | string kind => simp [kind]
  | fraction _ read =>
    obtain ⟨_, kind⟩ := kind_of_accept read
    simp [kind]
  | number read =>
    obtain ⟨_, kind⟩ := kind_of_accept read
    simp [kind]
  | regexp kind => simp [kind]
  | word _ read =>
    obtain ⟨_, kind⟩ := kind_of_accept read
    rw [kind]
    exact wordKind_ne_marker _ _
  | operator _ read =>
    obtain ⟨_, kind⟩ := kind_of_accept read
    simp [kind]
  | punctuation kind => simp [kind]

/-- What closes a piece of code is a marker. -/
theorem marker_of_closeCode (read : lexer.closeCode = (.ok token, behind)) :
    ∃ marker, token.kind = .marker marker := by
  unfold closeCode at read
  dsimp only at read
  split_ifs at read
  · split at read
    · exact ⟨_, kind_of_token read⟩
    · cases read
  · exact ⟨_, kind_of_token read⟩

/-- The lexer is in the code of a command, before the name of a block that a character follows
which may. -/
structure BeforeCloser (lexer : Lexer) (closer : Command) (tail : List Char) : Prop where
  mode : lexer.mode = .command
  block : closer.isBlock = true
  rest : ∃ follower, CommandMarker.isFollower follower = true ∧
    lexer.rest = closer.spelling.toList ++ follower :: tail

/-- A closing marker is two braces, a slash, the name of a block and a character that may follow. -/
theorem at?_closing_written {cs : List Char} {command : Command}
    (found : CommandMarker.at? cs = some ⟨true, command⟩) :
    command.isBlock = true ∧ ∃ follower tail, CommandMarker.isFollower follower = true ∧
      cs = '\x7b' :: '\x7b' :: '/' :: (command.spelling.toList ++ follower :: tail) := by
  obtain ⟨rest, rfl⟩ := CommandMarker.at?_closed found
  have named : CommandMarker.named? true rest = some ⟨true, command⟩ := found
  unfold CommandMarker.named? at named
  dsimp only at named
  split at named
  · next follower tail known dropped spelt =>
    have spelling := List.find?_some spelt
    have name : known.spelling.toList = rest.takeWhile CommandMarker.isNameChar := by
      simpa using spelling
    split_ifs at named with follows
    cases named
    simp only [Bool.not_true, Bool.false_or, Bool.and_eq_true] at follows
    have taken :=
      List.prefix_iff_eq_take.1 (List.takeWhile_prefix CommandMarker.isNameChar (l := rest))
    have whole := List.take_append_drop (rest.takeWhile CommandMarker.isNameChar).length rest
    rw [dropped, ← taken, ← name] at whole
    exact ⟨follows.2, follower, tail, follows.1, by rw [whole]⟩
  · cases named

/-- Behind the marker of a closer stands its name. -/
theorem readToken_closer (read : lexer.readToken = (.ok token, behind))
    (marker : token.kind = .marker .closerOpen) :
    ∃ closer tail, behind.BeforeCloser closer tail := by
  unfold readToken at read
  split at read
  · cases read
    cases marker
  · split_ifs at read
    · unfold readText at read
      split at read
      · cases read
        cases marker
      · split at read
        · unfold readVerbatim at read
          dsimp only at read
          split_ifs at read
          · split at read
            · cases read
            · cases read
              cases marker
          · cases read
        · next closer found =>
          obtain ⟨block, follower, tail, follows, written⟩ := at?_closing_written found
          cases read
          refine ⟨closer, tail, rfl, block, follower, follows, ?_⟩
          show lexer.rest.drop 3 = _
          rw [written]
          rfl
        · cases read
          cases marker
        · cases read
          cases marker
    · exact absurd marker (readCode_ne_marker read _)
    · unfold closeCode at read
      dsimp only at read
      split_ifs at read
      · split at read
        · cases read
          cases marker
        · cases read
      · cases read
        cases marker
    · exact absurd marker (readCode_ne_marker read _)
    · exact absurd marker (readCode_ne_marker read _)

theorem next_closer (read : lexer.next = (.ok token, behind))
    (marker : token.kind = .marker .closerOpen) :
    ∃ closer tail, behind.BeforeCloser closer tail := by
  unfold Lexer.next at read
  split at read
  · exact readToken_closer read marker
  · cases read

open Lexing in
/-- What may follow the name of a command ends a name. -/
theorem endsName_follower {follower : Char} (follows : CommandMarker.isFollower follower = true)
    (tail : List Char) : EndsName (follower :: tail) := by
  intro c first
  obtain rfl := Option.some.inj first
  simp only [CommandMarker.isFollower, Bool.or_eq_true, decide_eq_true_eq] at follows
  have table : ∀ d ∈ [' ', '\x7d', '('], d.toNat < 0xaa ∧ d ≠ '$' ∧ d ≠ '\\' ∧
      CodeRange.has [(0x41, 0x5a), (0x61, 0x7a), (0x30, 0x39), (0x5f, 0x5f)] d = false := by
    decide
  obtain ⟨below, dollar, backslash, outside⟩ :=
    table follower (by simpa [or_assoc] using follows)
  exact ⟨by simp [isNamePart_plain below, dollar, outside], backslash⟩

open Lexing in
/-- The names of blocks are made of letters. -/
theorem isNameStart_block {command : Command} (block : command.isBlock = true) {c : Char}
    (listed : c ∈ command.spelling.toList) : isNameStart c = true := by
  have table : ∀ command ∈ Command.all, command.isBlock = true →
      ∀ c ∈ command.spelling.toList, c.toNat < 0xaa ∧
        CodeRange.has [(0x41, 0x5a), (0x61, 0x7a)] c = true := by
    decide
  obtain ⟨below, letter⟩ := table command (by cases command <;> decide) block c listed
  simp [isNameStart, isLetter_plain below, letter]

open Lexing in
/-- The name of a closer is the next token behind its marker, whatever text stands behind the
name. -/
theorem next_closerName {closer : Command} {tail : List Char}
    (before : lexer.BeforeCloser closer tail) :
    ∃ token behind, lexer.next = (.ok token, behind) ∧ token.kind = wordKind closer.spelling ∧
      token.span = ⟨lexer.place, lexer.place.after closer.spelling.toList⟩ := by
  obtain ⟨code, block, follower, follows, rest⟩ := before
  have parts : closer.spelling.toList.all isNamePart = true :=
    List.all_eq_true.2 fun _ listed => isNamePart_of_isNameStart (isNameStart_block block listed)
  obtain ⟨c, others, eq⟩ : ∃ c others, closer.spelling.toList = c :: others :=
    List.exists_cons_of_ne_nil (by cases closer <;> decide)
  have start : isNameStart c = true := isNameStart_block block (by simp [eq])
  obtain ⟨blank, -, special⟩ := nameStart_table start
  have special : c ≠ '/' ∧ c ≠ '\x7b' ∧ c ≠ '\x7d' := by
    refine ⟨?_, ?_, ?_⟩ <;> rintro rfl <;> exact special (by decide)
  obtain ⟨more, spelt⟩ : ∃ more, lexer.rest = c :: more := ⟨_, by rw [rest, eq]; rfl⟩
  have begun : lexer.next = (settled lexer []).readToken := by
    refine next_of_blanks (by simp [code]) (show lexer.rest = [] ++ lexer.rest from rfl) rfl ?_ ?_
    · intro d head
      rw [spelt] at head
      cases head
      exact blank
    · exact beginsNoComment_of_head (by simp [spelt, special])
  have text : (settled lexer []).rest = c :: more := spelt
  have word : (settled lexer []).readToken = (settled lexer []).readWord := by
    have code : (settled lexer []).mode ≠ .text := by simp [settled, skip, cross, mark, code]
    unfold readToken
    rw [text]
    simp only [code, special, decide_false, Bool.false_and, if_false, Bool.false_eq_true]
    exact readCode_name (.inl start)
  have named : nameText (settled lexer []).rest
      = .found closer.spelling.toList closer.spelling.toList.length := by
    rw [text, ← spelt, rest]
    exact nameText_append (.inl parts) (endsName_follower follows tail)
  have taken : (settled lexer []).rest.take closer.spelling.toList.length
      = closer.spelling.toList := by
    rw [text, ← spelt, rest, List.take_left]
  rw [begun, word, readWord, named, accept_found]
  refine ⟨_, _, rfl, by simp, ?_⟩
  show (⟨(settled lexer []).start, (settled lexer []).place.after _⟩ : Span) = _
  rw [taken]
  rfl

end Lexer

end Stencil
