import Mathlib.Tactic.SplitIfs
import Stencil.Proofs.Lexing.Numbers
import Stencil.Proofs.Lexing.Positions
import Stencil.Token.Lexer
/-!
# What a reader takes for a token

A reader crosses characters and ends the token there, or it fails. `Lexer.Ends` describes a token
that was read: the piece of text it takes, its span round that piece, what it tells of comments
and line breaks, and the lexer behind it. The readers are gone through once, up to
`Lexer.ends_readToken`; the piece is empty only at the end of the source, because every reader
goes over the character by which it was chosen.
-/

set_option autoImplicit false

namespace Stencil

open Stencil.Error (Fault ParseError)
open Stencil.Text

namespace Lexer

/-! ## Moving -/

/-- Moving across a piece of the text, within a token. -/
structure Moved (lexer : Lexer) (piece : List Char) (behind : Lexer) : Prop where
  rest : lexer.rest = piece ++ behind.rest
  place : behind.place = lexer.place.after piece
  start : behind.start = lexer.start
  comments : behind.comments = lexer.comments

variable {lexer middle behind : Lexer} {piece more : List Char}

/-- Crossing moves across the characters crossed. -/
theorem moved_cross (lexer : Lexer) (count : Nat) :
    lexer.Moved (lexer.rest.take count) (lexer.cross count) where
  rest := (List.take_append_drop count lexer.rest).symm
  place := rfl
  start := rfl
  comments := rfl

/-- So does skipping. -/
theorem moved_skip (lexer : Lexer) (count : Nat) :
    lexer.Moved (lexer.rest.take count) (lexer.skip count) where
  rest := (List.take_append_drop count lexer.rest).symm
  place := rfl
  start := rfl
  comments := rfl

/-- Two moves are one. -/
theorem Moved.trans (first : lexer.Moved piece middle) (second : middle.Moved more behind) :
    lexer.Moved (piece ++ more) behind where
  rest := by rw [first.rest, second.rest, List.append_assoc]
  place := by rw [second.place, first.place, Position.after_append]
  start := second.start.trans first.start
  comments := second.comments.trans first.comments

/-! ## The token at the place -/

/-- The token at the place of the lexer, which has just been begun there. -/
structure Ends (lexer : Lexer) (piece : List Char) (token : Token) (behind : Lexer) : Prop where
  rest : lexer.rest = piece ++ behind.rest
  place : behind.place = lexer.place.after piece
  span : token.span = ⟨lexer.start, behind.place⟩
  comments : token.comments = lexer.comments
  afterBreak : (∀ text, token.kind ≠ .html text) → token.afterBreak = lexer.sawBreak
  empty : piece = [] ↔ token.isEof = true
  ended : token.isEof = true → behind.rest = []
  none : behind.comments = []
  unbroken : behind.sawBreak = false

variable {token : Token}

/-- Ending a token behind a move. A token of template text may have met line breaks itself. -/
theorem Moved.ends (moved : lexer.Moved piece middle) {kind : TokenKind}
    (result : middle.token kind = (.ok token, behind)) (filled : piece ≠ [])
    (named : kind ≠ .eof)
    (calm : (∀ text, kind ≠ .html text) → middle.sawBreak = lexer.sawBreak) :
    lexer.Ends piece token behind := by
  have going : token.isEof = false := by
    cases result
    cases kind <;> first | rfl | exact absurd rfl named
  constructor
  · cases result
    exact moved.rest
  · cases result
    exact moved.place
  · cases result
    simp only [Lexer.span, moved.start]
  · cases result
    exact moved.comments
  · cases result
    exact calm
  · simp [filled, going]
  · simp [going]
  · cases result
    rfl
  · cases result
    rfl

/-- What a reader took for a token, when it did not fail. -/
theorem accept_ok {α : Type} {scan : Scan α} {kind : α → TokenKind}
    (read : lexer.accept scan kind = (.ok token, behind)) :
    ∃ result, scan.outcome = .ok result ∧
      (lexer.cross scan.width).token (kind result) = (.ok token, behind) := by
  unfold Lexer.accept at read
  cases outcome : scan.outcome with
  | error cause =>
    simp only [outcome] at read
    cases read
  | ok result =>
    simp only [outcome] at read
    exact ⟨result, rfl, read⟩

/-- A reader of a token of code takes text if it goes over any. -/
theorem ends_accept {α : Type} {scan : Scan α} {kind : α → TokenKind}
    (read : lexer.accept scan kind = (.ok token, behind)) (more : lexer.rest ≠ [])
    (wide : ∀ result, scan.outcome = .ok result → 0 < scan.width)
    (code : ∀ result, kind result ≠ .eof) :
    ∃ piece, lexer.Ends piece token behind := by
  obtain ⟨result, ok, ended⟩ := accept_ok read
  have positive := wide result ok
  refine ⟨_, (lexer.moved_cross scan.width).ends ended ?_ (code result) fun _ => rfl⟩
  simp only [ne_eq, List.take_eq_nil_iff, not_or]
  exact ⟨by omega, more⟩

/-- A reader that goes on behind a first character takes text in any case. -/
theorem ends_accept_behind {α : Type} {scan : Scan α} {kind : α → TokenKind}
    (read : (lexer.cross 1).accept scan kind = (.ok token, behind)) (more : lexer.rest ≠ [])
    (code : ∀ result, kind result ≠ .eof) :
    ∃ piece, lexer.Ends piece token behind := by
  obtain ⟨result, -, ended⟩ := accept_ok read
  refine ⟨_, ((lexer.moved_cross 1).trans ((lexer.cross 1).moved_cross scan.width)).ends ended ?_
    (code result) fun _ => rfl⟩
  simp [more]

/-- A token of one character. -/
theorem ends_cross {kind : TokenKind}
    (read : (lexer.cross 1).token kind = (.ok token, behind)) (more : lexer.rest ≠ [])
    (named : kind ≠ .eof) : ∃ piece, lexer.Ends piece token behind :=
  ⟨_, (lexer.moved_cross 1).ends read (by simp [more]) named fun _ => rfl⟩

/-! ### Words, numbers and operators go over their first character -/

/-- A word goes over its first character. -/
theorem width_nameText {c : Char} {rest : List Char}
    (begins : c = '\\' ∨ isNamePart c = true) : 0 < (nameText (c :: rest)).width := by
  unfold nameText nameBody
  split_ifs with escape part
  · exact Nat.add_pos_left Nat.one_pos _
  · exact Nat.add_pos_left Nat.one_pos _
  · exact absurd begins (not_or.2 ⟨escape, part⟩)

/-- An operator goes over its first character. -/
theorem length_operatorRun (operator following : List Char) :
    operator.length ≤ (operatorRun operator following).length := by
  induction following generalizing operator with
  | nil => simp [operatorRun]
  | cons c following ih =>
    unfold operatorRun
    split
    · have := ih (operator ++ [c])
      simp only [List.length_append, List.length_singleton] at this
      omega
    · exact Nat.le_refl _

/-- A number goes over its first digit. -/
theorem length_numberRun {c : Char} (digit : isDigit c = true) (state : NumberState)
    (rest : List Char) : 0 < (numberRun state (c :: rest)).length := by
  simp [numberRun, Lexing.next?_digit digit]

/-- A word is no end of the text. -/
theorem wordKind_ne_eof (word : String) : wordKind word ≠ .eof := by
  rcases Lexing.wordKind_cases word with ⟨_, same⟩ | ⟨_, same⟩ | ⟨_, same⟩ | same <;> simp [same]

/-! ### The readers -/

theorem ends_readWord {c : Char} {following : List Char} (rest : lexer.rest = c :: following)
    (begins : c = '\\' ∨ isNamePart c = true)
    (read : lexer.readWord = (.ok token, behind)) : ∃ piece, lexer.Ends piece token behind := by
  refine ends_accept read (by simp [rest]) (fun _ _ => ?_) (fun _ => wordKind_ne_eof _)
  rw [rest]
  exact width_nameText begins

theorem ends_readOperator {c : Char} {following : List Char} (more : lexer.rest ≠ [])
    (read : lexer.readOperator c following = (.ok token, behind)) :
    ∃ piece, lexer.Ends piece token behind := by
  refine ends_accept read more ?_ (by simp)
  intro result ok
  have grown := length_operatorRun [c] following
  simp only [List.length_singleton] at grown
  split
  · exact grown
  · exact grown

/-- A token of code, whatever character it begins with. -/
theorem ends_readCode {c : Char} {following : List Char} (rest : lexer.rest = c :: following)
    (read : lexer.readCode c following = (.ok token, behind)) :
    ∃ piece, lexer.Ends piece token behind := by
  have more : lexer.rest ≠ [] := by simp [rest]
  unfold readCode at read
  dsimp only at read
  split_ifs at read with quote point number slash regexp escape digit operator punctuation name
  · exact ends_accept read more (fun _ _ => Nat.add_pos_left Nat.one_pos _) (by simp)
  · exact ends_accept_behind read more (by simp)
  · exact ends_cross read more (by simp)
  · exact ends_accept_behind read more (by simp)
  · exact ends_readOperator more read
  · exact ends_readWord rest (.inl escape) read
  · refine ends_accept read more ?_ (by simp)
    intro result ok
    rw [rest]
    split
    · exact length_numberRun digit _ _
    · exact length_numberRun digit _ _
  · exact ends_readOperator more read
  · exact ends_cross read more (by simp)
  · exact ends_readWord rest (.inr (isNamePart_of_isNameStart name)) read
  · cases read

end Lexer

/-! ### Markers -/

namespace CommandMarker

/-- A marker that is found is written at the start of the text. -/
theorem named?_written {closing : Bool} {cs : List Char} {marker : CommandMarker}
    (found : named? closing cs = some marker) :
    marker.closing = closing ∧ ∃ rest, cs = marker.command.spelling.toList ++ rest := by
  unfold named? at found
  dsimp only at found
  split at found
  · next follower rest command dropped known =>
    have spelt := List.find?_some known
    have name : command.spelling.toList = cs.takeWhile isNameChar := by simpa using spelt
    split_ifs at found
    cases found
    exact ⟨rfl, _, by rw [name, List.takeWhile_append_dropWhile]⟩
  · cases found

/-- A closing marker begins with two braces and a slash. -/
theorem at?_closed {cs : List Char} {command : Command} (found : at? cs = some ⟨true, command⟩) :
    ∃ rest, cs = '\x7b' :: '\x7b' :: '/' :: rest := by
  unfold at? at found
  split at found
  · next rest => exact ⟨rest, rfl⟩
  · have := (named?_written found).1
    cases this
  · cases found

/-- An opening marker begins with two braces and the name of its command. -/
theorem at?_opened {cs : List Char} {command : Command} (found : at? cs = some ⟨false, command⟩) :
    ∃ rest, cs = '\x7b' :: '\x7b' :: (command.spelling.toList ++ rest) := by
  unfold at? at found
  split at found
  · have := (named?_written found).1
    cases this
  · next rest _ =>
    obtain ⟨-, rest, rfl⟩ := named?_written found
    exact ⟨rest, rfl⟩
  · cases found

end CommandMarker

namespace Lexer

variable {lexer middle behind : Lexer} {token : Token}

/-! ### Template text -/

theorem ends_enter {mode : Mode} {marker : Marker} {rest : List Char}
    (begins : lexer.rest = marker.spelling.toList ++ rest) (filled : marker.spelling.toList ≠ [])
    (unbroken : '\n' ∉ marker.spelling.toList)
    (read : lexer.enter mode marker = (.ok token, behind)) :
    ∃ piece, lexer.Ends piece token behind := by
  have taken : lexer.rest.take marker.spelling.length = marker.spelling.toList := by
    simp [begins, ← String.length_toList]
  have skipped := lexer.moved_skip marker.spelling.length
  have entered : lexer.Moved (lexer.rest.take marker.spelling.length)
      { lexer.skip marker.spelling.length with mode, depth := 0 } :=
    ⟨skipped.rest, skipped.place, skipped.start, skipped.comments⟩
  refine ⟨_, entered.ends read (by rwa [taken]) (by simp) fun _ => ?_⟩
  simp [Lexer.skip, taken, unbroken]

theorem ends_readVerbatim (more : lexer.rest ≠ [])
    (read : lexer.readVerbatim = (.ok token, behind)) :
    ∃ piece, lexer.Ends piece token behind := by
  unfold readVerbatim at read
  dsimp only at read
  split at read
  · split at read
    · cases read
    · refine ⟨_, ((((lexer.moved_skip _).trans (moved_skip _ _)).trans (moved_skip _ 2)).trans
        (moved_skip _ _)).ends read ?_ (by simp) fun html => absurd rfl (html _)⟩
      simp [more]
  · cases read

/-- Text that starts no marker has a first character that is plain. -/
theorem plainText_ne_nil {cs : List Char} (more : cs ≠ []) (plain : startsMarker cs = false) :
    plainText cs ≠ [] := by
  cases cs with
  | nil => exact absurd rfl more
  | cons c rest => simp [plainText, plain]

theorem ends_readText (more : lexer.rest ≠ []) (read : lexer.readText = (.ok token, behind)) :
    ∃ piece, lexer.Ends piece token behind := by
  unfold readText at read
  split at read
  · next rest eq =>
    have begins : lexer.rest = Marker.echoOpen.spelling.toList ++ rest := by
      simp [eq, Marker.spelling]
    exact ends_enter begins (by decide) (by decide) read
  · next other =>
    split at read
    · exact ends_readVerbatim more read
    · next command found =>
      obtain ⟨rest, eq⟩ := CommandMarker.at?_closed found
      have begins : lexer.rest = Marker.closerOpen.spelling.toList ++ rest := by
        simp [eq, Marker.spelling]
      exact ends_enter begins (by decide) (by decide) read
    · next command _ found =>
      obtain ⟨rest, eq⟩ := CommandMarker.at?_opened found
      have begins : lexer.rest
          = Marker.commandOpen.spelling.toList ++ (command.spelling.toList ++ rest) := by
        simp [eq, Marker.spelling]
      exact ends_enter begins (by decide) (by decide) read
    · next found =>
      have plain : startsMarker lexer.rest = false := by
        unfold startsMarker
        split
        · next rest eq => exact absurd eq (other rest)
        · simp [found]
      refine ⟨_, (lexer.moved_skip _).ends read ?_ (by simp) fun html => absurd rfl (html _)⟩
      simp [more, plainText_ne_nil more plain]

/-! ### Code and the end of the text -/

theorem ends_closeCode {following : List Char} (rest : lexer.rest = '\x7d' :: following)
    (read : lexer.closeCode = (.ok token, behind)) : ∃ piece, lexer.Ends piece token behind := by
  have first := lexer.moved_skip 1
  unfold closeCode at read
  dsimp only at read
  split_ifs at read
  · split at read
    · next tail eq =>
      have second := first.trans ((lexer.skip 1).moved_skip 1)
      have left : lexer.Moved _ { (lexer.skip 1).skip 1 with mode := .text } :=
        ⟨second.rest, second.place, second.start, second.comments⟩
      refine ⟨_, left.ends read (by simp [rest]) (by simp) fun _ => ?_⟩
      have closed : (lexer.skip 1).rest = '\x7d' :: tail := eq
      simp [Lexer.skip, Lexer.cross, rest] at closed ⊢
      simp [closed]
    · cases read
  · have left : lexer.Moved _ { lexer.skip 1 with mode := .text } :=
      ⟨first.rest, first.place, first.start, first.comments⟩
    refine ⟨_, left.ends read (by simp [rest]) (by simp) fun _ => ?_⟩
    simp [Lexer.skip, rest]

/-- The token at the place, in every mode. Counting a brace changes nothing that a token says. -/
theorem ends_readToken (read : lexer.readToken = (.ok token, behind)) :
    ∃ piece, lexer.Ends piece token behind := by
  unfold readToken at read
  split at read
  · next rest =>
    refine ⟨[], ?_⟩
    cases read
    constructor <;> simp [Token.isEof, rest, Lexer.span]
  · next c following rest =>
    have more : lexer.rest ≠ [] := by simp [rest]
    split_ifs at read with text opening closing last
    · exact ends_readText more read
    · obtain ⟨piece, ends⟩ := ends_readCode (by exact rest) read
      exact ⟨piece, ends.rest, ends.place, ends.span, ends.comments, ends.afterBreak, ends.empty,
        ends.ended, ends.none, ends.unbroken⟩
    · have brace : c = '\x7d' := by simpa using (Bool.and_eq_true_iff.1 closing).1
      exact ends_closeCode (by rw [rest, brace]) read
    · obtain ⟨piece, ends⟩ := ends_readCode (by exact rest) read
      exact ⟨piece, ends.rest, ends.place, ends.span, ends.comments, ends.afterBreak, ends.empty,
        ends.ended, ends.none, ends.unbroken⟩
    · exact ends_readCode rest read

end Lexer

end Stencil
