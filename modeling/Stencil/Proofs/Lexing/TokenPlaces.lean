import Stencil.Proofs.Lexing.Sessions
import Stencil.Proofs.Lexing.Tiling
/-!
# Where tokens stand

The next token of a lexer stands behind the lexer's place, and the lexer behind a token still knows
where that token begins: it is the token in hand. So a token that is read again, as a regular
expression, begins where it began before.
-/

set_option autoImplicit false

namespace Stencil

open Stencil.Text

namespace Text

/-- A position is determined by what it counts. -/
theorem Position.Counts.unique {p q : Position} {before : List Char} (counts : p.Counts before)
    (counts' : q.Counts before) : p = q := by
  obtain ⟨byte, line, column⟩ := p
  obtain ⟨byte', line', column'⟩ := q
  rw [Position.mk.injEq]
  exact ⟨counts.byte.trans counts'.byte.symm, counts.line.trans counts'.line.symm,
    counts.column.trans counts'.column.symm⟩

/-- Between two places of a text, of which the first has no more bytes before it, lies a piece of
it. -/
theorem Position.TrueIn.liesIn {text : List Char} {p q : Position} (start : p.TrueIn text)
    (stop : q.TrueIn text) (le : p.byte ≤ q.byte) : Span.LiesIn text ⟨p, q⟩ := by
  obtain ⟨before, first, counts⟩ := start
  obtain ⟨through, second, counts'⟩ := stop
  obtain rfl := counts.unique (counts_after before)
  obtain rfl := counts'.unique (counts_after through)
  obtain ⟨piece, rfl⟩ := prefix_of_byte_le first second le
  obtain ⟨behind, rfl⟩ := second
  exact ⟨before, piece, behind, rfl, rfl⟩

end Text

namespace Lexer

/-- The token that a step ends is the one in hand behind it. -/
def InHand : Step → Prop
  | (.ok token, behind) => behind.span = token.span
  | (.error _, _) => True

variable {lexer : Lexer}

theorem inHand_accept {α : Type} (scan : Scan α) (kind : α → TokenKind) :
    InHand (lexer.accept scan kind) := by
  unfold Lexer.accept
  dsimp only
  split
  · exact rfl
  · trivial

theorem inHand_readText : InHand lexer.readText := by
  unfold Lexer.readText
  split
  · exact rfl
  · split
    · unfold Lexer.readVerbatim
      dsimp only
      split
      · split
        · trivial
        · exact rfl
      · trivial
    · exact rfl
    · exact rfl
    · exact rfl

theorem inHand_closeCode : InHand lexer.closeCode := by
  unfold Lexer.closeCode
  dsimp only
  split
  · split
    · exact rfl
    · trivial
  · exact rfl

theorem inHand_readCode (c : Char) (following : List Char) :
    InHand (lexer.readCode c following) := by
  unfold Lexer.readCode
  dsimp only
  split_ifs
  · exact inHand_accept _ _
  · exact inHand_accept _ _
  · exact rfl
  · exact inHand_accept _ _
  · exact inHand_accept _ _
  · exact inHand_accept _ _
  · exact inHand_accept _ _
  · exact inHand_accept _ _
  · exact rfl
  · exact inHand_accept _ _
  · trivial

theorem inHand_readToken (lexer : Lexer) : InHand lexer.readToken := by
  unfold Lexer.readToken
  split
  · exact rfl
  · split_ifs
    · exact inHand_readText
    · exact inHand_readCode _ _
    · exact inHand_closeCode
    · exact inHand_readCode _ _
    · exact inHand_readCode _ _

/-- A token stands in the text before what is left of it, and is in hand. It is empty only at the
end of the text. -/
structure Holds (text : List Char) (token : Token) (lexer : Lexer) : Prop where
  stands : ∃ before piece, text = before ++ piece ++ lexer.rest ∧
    token.span = Span.around before piece ∧ (piece = [] → token.isEof = true)
  inHand : lexer.span = token.span

variable {behind : Lexer} {token token' : Token} {text : List Char}

/-- The next token stands behind the place of the lexer. -/
theorem holds_next {before : List Char} (whole : text = before ++ lexer.rest)
    (place : lexer.place = Position.origin.after before)
    (read : lexer.next = (.ok token, behind)) :
    Holds text token behind ∧ lexer.place.byte ≤ token.span.start.byte := by
  unfold Lexer.next at read
  split at read
  · next skipped eq =>
    obtain ⟨gap, found, skips⟩ := skips_skipTriviaWithin place eq
    obtain ⟨piece, ends⟩ := ends_readToken read
    have inHand := read ▸ inHand_readToken skipped
    have span : token.span = Span.around (before ++ gap) piece := by
      rw [ends.span, skips.start, ends.place, skips.place, ← Position.after_append]
      rfl
    refine ⟨⟨⟨before ++ gap, piece, ?_, span, ends.empty.1⟩, inHand⟩, ?_⟩
    · rw [whole, skips.rest, ends.rest]
      simp
    · rw [span, place]
      exact byte_after_le before gap
  · cases read

/-- The token after one that is held, with the lexer behind it. -/
theorem Holds.next (holds : Holds text token lexer) (read : lexer.next = (.ok token', behind)) :
    Holds text token' behind ∧ token.span.stop.byte ≤ token'.span.start.byte := by
  obtain ⟨⟨before, piece, whole, span, -⟩, inHand⟩ := holds
  have place : lexer.place = token.span.stop := congrArg Span.stop inHand
  rw [← place]
  exact holds_next whole (place.trans (congrArg Span.stop span)) read

/-- A token that is read again as a regular expression begins where it did. -/
theorem Holds.rereadRegexp (holds : Holds text token lexer) (going : token.isEof = false)
    {lead : String} (read : lexer.rereadRegexp lead = (.ok token', behind)) :
    Holds text token' behind ∧ token'.span.start = token.span.start := by
  obtain ⟨⟨before, piece, whole, span, empty⟩, inHand⟩ := holds
  have filled : piece ≠ [] := fun nil => by simp [empty nil] at going
  have begun : lexer.start = token.span.start := congrArg Span.start inHand
  have start : lexer.start = Position.origin.after before :=
    begun.trans (congrArg Span.start span)
  have place : lexer.place = Position.origin.after (before ++ piece) :=
    (congrArg Span.stop inHand).trans (congrArg Span.stop span)
  have moved := lexer.moved_cross (regexpRest lexer.rest).width
  obtain ⟨result, -, ended⟩ := accept_ok read
  cases ended
  refine ⟨⟨⟨before, piece ++ lexer.rest.take (regexpRest lexer.rest).width, ?_, ?_, ?_⟩, rfl⟩, ?_⟩
  · rw [whole, moved.rest]
    simp [Lexer.cross]
  · simp only [Lexer.span, moved.start, moved.place, start, place, Span.around,
      ← Position.after_append, List.append_assoc]
  · simp [filled]
  · exact begun

end Lexer

end Stencil
