import Stencil.Proofs.Lexing.Restarts
import Stencil.Proofs.Parsing.Sides
/-!
# Where the token in hand was begun

The token of a cursor was read by a lexer that stood where the token begins (`Cursor.Begun`). This is
kept by consuming a token and by reading a slash again. A new lexer that is started there reads the token
again, whatever stands before it in the text (`Cursor.Begun.restart`).
-/

set_option autoImplicit false

namespace Stencil.Grammar

open Stencil.Text (Position Span normalize)

variable {text : List Char} {c behind : Cursor} {token : Token} {lexer : Lexer}

/-- The lexer stands at the token of the cursor, and reads it. -/
structure Cursor.BegunBy (text : List Char) (c : Cursor) (s : Lexer) : Prop where
  settled : s.Settled
  stands : ∃ before, text = before ++ s.rest ∧ s.place = Position.origin.after before
  start : c.token.span.start = s.place
  reads : ∃ token, s.readToken = (.ok token, c.lexer) ∧ token.kind = c.token.kind

/-- The token of the cursor was read by a lexer that stood at it in the text. -/
def Cursor.Begun (text : List Char) (c : Cursor) : Prop := ∃ s, c.BegunBy text s

/-- The next token of a lexer that stands in the text. -/
theorem begun_next {l : Lexer} (before : List Char) (whole : text = before ++ l.rest)
    (place : l.place = Position.origin.after before) (read : l.next = (.ok token, lexer))
    (hand : c.lexer = lexer ∧ c.token = token) : c.Begun text := by
  obtain ⟨rfl, rfl⟩ := hand
  unfold Lexer.next at read
  split at read
  · next s moved =>
    obtain ⟨gap, found, skips⟩ := Lexer.skips_skipTriviaWithin place moved
    obtain ⟨piece, ends⟩ := Lexer.ends_readToken read
    refine ⟨s, Lexer.settled_skipTrivia moved, ⟨before ++ gap, ?_, skips.place⟩, ?_, _, read, rfl⟩
    · rw [whole, skips.rest, List.append_assoc]
    · rw [ends.span, skips.start]
  · cases read

theorem begun_ofSource {template : Bool} {source : List Char}
    (begun : Cursor.ofSource template source = .ok c) : c.Begun (normalize source) := by
  unfold Cursor.ofSource at begun
  split at begun
  · next token lexer read =>
    cases begun
    exact begun_next [] rfl rfl read ⟨rfl, rfl⟩
  · cases begun

theorem Cursor.Begun.advance (begun : c.Begun text) (read : c.lexer.next = (.ok token, lexer)) :
    (behindToken c token lexer).Begun text := by
  obtain ⟨s, -, ⟨before, whole, place⟩, -, token', reads, -⟩ := begun
  obtain ⟨piece, ends⟩ := Lexer.ends_readToken reads
  refine begun_next (before ++ piece) ?_ ?_ read ⟨rfl, rfl⟩
  · rw [whole, ends.rest, List.append_assoc]
  · rw [ends.place, place, Position.after_append]

/-- What a slash is read again with. -/
theorem Cursor.AtSlash.isSlash (slash : c.AtSlash) {token : Token} (kind : token.kind = c.token.kind) :
    Lexer.IsSlash token c.slashLead := by
  obtain single | double := slash
  · have other : c.token.isOperator "/=" = false := by
      rw [Token.isOperator, kind_of_operator single]
      decide
    exact .inl ⟨kind.trans (kind_of_operator single), by simp [Cursor.slashLead, other]⟩
  · exact .inr ⟨kind.trans (kind_of_operator double), by simp [Cursor.slashLead, double]⟩

theorem Cursor.Begun.reread (begun : c.Begun text) (slash : c.AtSlash)
    (again : c.lexer.rereadRegexp c.slashLead = (.ok token, lexer)) :
    (c.reread token lexer).Begun text := by
  obtain ⟨s, settled, stands, start, token', reads, kind⟩ := begun
  have isSlash := slash.isSlash kind
  obtain ⟨symbol, -, symbolic⟩ := isSlash.operator
  have code : s.mode ≠ .text :=
    Lexer.code_of_readToken reads (going_of_kind symbolic (by simp)) (by simp [symbolic])
      (by simp [symbolic])
  obtain ⟨begins, token'', anew, kind'⟩ := isSlash.reread code reads again
  exact ⟨s.anew, settled.anew code, stands, begins.trans settled.start, token'', anew, kind'⟩

/-- A lexer that is started anew at the token of a cursor, on a text that ends behind the token, reads
the token, and goes on as the lexer of the cursor does. -/
theorem Cursor.Begun.restart (begun : c.Begun text) (going : c.token.isEof = false)
    (unmarked : ∀ marker, c.token.kind ≠ .marker marker)
    (noHtml : ∀ text, c.token.kind ≠ .html text) (other : ¬ c.AtSlash) :
    ∃ before rest, text = before ++ rest ∧ c.token.span.start = Position.origin.after before ∧
      ∀ slice tail, rest = slice ++ tail → tail.length ≤ c.lexer.rest.length →
        ∃ token m, (Lexer.ofText false slice).next = (.ok token, m) ∧ token.kind = c.token.kind ∧
          token.afterBreak = false ∧ Lexer.Cut tail c.lexer m := by
  obtain ⟨s, settled, ⟨before, whole, place⟩, start, token, reads, kind⟩ := begun
  rw [← kind] at unmarked noHtml
  have going' : token.isEof = false := by rwa [isEof_congr kind]
  have code : s.mode ≠ .text := Lexer.code_of_readToken reads going' unmarked noHtml
  refine ⟨before, s.rest, whole, start.trans place, fun slice tail parts within => ?_⟩
  have slash (following : List Char) (rest : s.rest = '/' :: following) : s.regexpAllowed = true := by
    cases operator : s.regexpAllowed with
    | true => rfl
    | false =>
      obtain ⟨lead, ⟨single, -⟩ | ⟨double, -⟩⟩ :=
        Lexer.isSlash_of_readToken code rest operator reads
      · exact absurd (.inl (by simp [Token.isOperator, ← kind, single])) other
      · exact absurd (.inr (by simp [Token.isOperator, ← kind, double])) other
  obtain ⟨token', m, read, kind', broke, cut⟩ :=
    settled.restart code slash reads going' unmarked parts within
  exact ⟨token', m, read, kind'.trans kind, broke, cut⟩

end Stencil.Grammar
