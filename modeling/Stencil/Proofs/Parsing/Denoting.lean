import Stencil.Proofs.Lexing.Breaks
import Stencil.Proofs.Parsing.ExcerptRuns
import Stencil.Proofs.Parsing.Finishing
/-!
# What the span of an expression denotes

The text of a span, parsed on its own, is the expression that has the span (`Denoted`). What a rule
reads of a text up to some cursor, it reads of the excerpt as well; there the text then ends, and so do
all the rules that the expression is read by on its own (`Leads.denoted`).

An operand and the loop behind it are not read by one rule, for the loop may go on behind the
expression. So a lead (`Leads`) takes note of what is left to do behind the expression: on every excerpt
that goes on there, reading all is going on with the rest.
-/

set_option autoImplicit false

namespace Stencil

open Stencil.Grammar
open Stencil.Grammar.Parser
open Stencil.Syntax
open Stencil.Text

/-- The bytes of the text between the ends of the span, parsed as an expression, give the expression
without its spans. -/
def Denoted (text : List Char) (strict : Bool) (e : Expr) : Prop :=
  ∀ span ∈ e.span, ∃ slice : String,
    (String.ofList text).toByteArray.extract span.start.byte span.stop.byte = slice.toByteArray ∧
      parseExpression ⟨false, strict⟩ slice = .ok e.eraseSpans

/-! ## The text of a span as a source -/

/-- No token begins with a byte order mark. -/
theorem Lexer.unmarked_of_next {text : List Char} {token : Token} {lexer : Lexer}
    (read : (Lexer.ofText false text).next = (.ok token, lexer)) : text.head? ≠ some '\ufeff' := by
  intro marked
  obtain ⟨rest, rfl⟩ := List.head?_eq_some_iff.1 marked
  have stops := Lexer.next_mark rest
  rw [read] at stops
  cases stops

/-- A piece of a normalized text that begins with a token is normalized. -/
theorem normalize_piece {piece : List Char} (unbroken : ∀ c ∈ piece, isForeignBreak c = false)
    {token : Token} {lexer : Lexer} (read : (Lexer.ofText false piece).next = (.ok token, lexer)) :
    normalize piece = piece :=
  normalize_of_unbroken unbroken (Lexer.unmarked_of_next read)

variable {text : List Char} {strict : Bool} {depth : Nat} {e : Expr}

/-- A source that the rule for expressions finishes is parsed. -/
theorem parse_of_finishes {piece : List Char} {token : Token} {lexer : Lexer}
    (unbroken : ∀ c ∈ piece, isForeignBreak c = false)
    (read : (Lexer.ofText false piece).next = (.ok token, lexer))
    (finishes : Finishes (expression (.upTo depth) true false) (withoutSpans strict)
      ⟨lexer, token, .origin⟩ e) (room : (⟨lexer, token, .origin⟩ : Cursor).ahead < depth) :
    parseExpression ⟨false, strict⟩ (String.ofList piece) = .ok e := by
  obtain ⟨behind, ran, ended⟩ := finishes
  have begun : Cursor.ofSource false (String.ofList piece).toList = .ok ⟨lexer, token, .origin⟩ := by
    unfold Cursor.ofSource Lexer.ofSource
    rw [String.toList_ofList, normalize_piece unbroken read, read]
  have whole : wholeExpression (.upTo depth) (withoutSpans strict) ⟨lexer, token, .origin⟩ =
      .ok (e, behind) := by
    unfold wholeExpression
    rw [run_behind ran, run_behind (a := behind.token) rfl, if_pos ended]
    rfl
  have enough : (⟨lexer, token, .origin⟩ : Cursor).ahead ≤ lexer.rest.length + 2 := by
    unfold Cursor.ahead
    dsimp only
    split_ifs <;> omega
  have same := (same_wholeExpression (o := withoutSpans strict)
    (agree_upTo (Nat.le_of_lt room) enough) (Nat.le_refl _)).eq
  unfold parseExpression run
  rw [begun]
  change Except.mapError _ (wholeExpression _ (withoutSpans strict) _ >>= fun read => .ok read.1) = _
  rw [← same, whole]
  rfl

namespace Grammar

/-! ## Leads -/

/-- Where the excerpt goes on, it has the token of the text. -/
theorem Excerpt.Beside.kind {X : Excerpt text} {c d : Cursor} (beside : X.Beside depth c d)
    (onward : X.last.ahead < c.ahead) : d.token.kind = c.token.kind := by
  obtain ⟨kind, -⟩ | ⟨-, last⟩ := beside.alike
  · exact kind
  · rw [last] at onward
    exact absurd onward (Nat.lt_irrefl _)

/-- From the one cursor to the other an expression is read, without spans on every excerpt that goes on
there; and what is left of the whole rule is the rest. -/
structure Leads (text : List Char) (strict : Bool) (depth : Nat) (whole : Parser Expr)
    (rest : Position → Parser Expr) (c behind : Cursor) : Prop where
  reaches : c.Reaches IsCode behind
  consumed : behind.ahead < c.ahead
  /-- The text of a slash that is read as an operator may not stand at the beginning of a text. -/
  fresh : ¬ c.AtSlash
  goes : ∀ (X : Excerpt text) d, behind.Reaches IsCode X.last → X.Beside depth c d →
    ∃ behind', X.Beside depth behind behind' ∧
      whole (withoutSpans strict) d = rest d.token.span.start (withoutSpans strict) behind'

variable {α β : Type} {c middle behind : Cursor} {whole : Parser Expr}
  {rest rest' : Position → Parser Expr}

/-- A rule that reads the excerpt as the text, and what is left behind it. -/
theorem Rereads.leads {p : Parser Expr} {q : Position → Parser Expr}
    {f : Position → Expr → Parser Expr}
    (rereads : ∀ start, Rereads text strict depth Expr.eraseSpans c p (q start))
    (ran : p (withSpans strict) c = .ok (e, behind)) (consumed : behind.ahead < c.ahead)
    (fresh : ¬ c.AtSlash)
    (begins : ∀ d : Cursor, d.token.kind = c.token.kind → whole (withoutSpans strict) d =
      (q d.token.span.start >>= f d.token.span.start) (withoutSpans strict) d) :
    Leads text strict depth whole (fun start => f start e.eraseSpans) c behind where
  reaches := (rereads .origin e behind ran).1
  consumed := consumed
  fresh := fresh
  goes X d onward beside := by
    obtain ⟨behind', ran', beside'⟩ :=
      (rereads d.token.span.start e behind ran).2 X d onward beside
    refine ⟨behind', beside', ?_⟩
    rw [begins d (beside.kind (Nat.lt_of_le_of_lt onward.ahead consumed)), run_behind ran']

/-- One step more of what is left. -/
theorem Leads.then (leads : Leads text strict depth whole rest c middle) {erase : α → β}
    {p : Parser α} {q : Position → Parser β} {a : α}
    (rereads : ∀ start, Rereads text strict depth erase middle p (q start))
    (ran : p (withSpans strict) middle = .ok (a, behind)) (consumed : behind.ahead < middle.ahead)
    (step : ∀ start d d', d.token.kind = middle.token.kind → d'.ahead < depth →
      q start (withoutSpans strict) d = .ok (erase a, d') →
      rest start (withoutSpans strict) d = rest' start (withoutSpans strict) d') :
    Leads text strict depth whole rest' c behind where
  reaches := leads.reaches.trans (rereads .origin a behind ran).1
  consumed := Nat.lt_trans consumed leads.consumed
  fresh := leads.fresh
  goes X d onward beside := by
    obtain ⟨d', beside', first⟩ :=
      leads.goes X d ((rereads .origin a behind ran).1.trans onward) beside
    obtain ⟨behind', second, beside''⟩ :=
      (rereads d.token.span.start a behind ran).2 X d' onward beside'
    refine ⟨behind', beside'', first.trans (step _ _ _ ?_ beside''.room second)⟩
    exact beside'.kind (Nat.lt_of_le_of_lt onward.ahead consumed)

/-- The span from the one cursor to the other denotes the expression, when at the end of a text the rest
leaves the expression as it is, and the rule for all expressions finishes where the rule does. -/
theorem Leads.denoted (leads : Leads text strict depth whole rest c behind) (placed : c.Placed text)
    (room : c.ahead < depth) (unbroken : ∀ char ∈ text, isForeignBreak char = false)
    (ends : ∀ start d, d.token.isEof = true →
      rest start (withoutSpans strict) d = .ok (e.eraseSpans, d))
    (climbs : ∀ d, Finishes whole (withoutSpans strict) d e.eraseSpans →
      Finishes (expression (.upTo depth) true false) (withoutSpans strict) d e.eraseSpans)
    (own : e.span = spanAt (withSpans strict) behind c.token.span.start) : Denoted text strict e := by
  intro span here
  obtain rfl : span = ⟨c.token.span.start, behind.stop⟩ := by
    rw [own] at here
    exact (Option.some.inj here).symm
  have onward : behind ≠ c := fun same => absurd leads.consumed (same ▸ Nat.lt_irrefl _)
  obtain same | ⟨token, lexer, code, read, reaches⟩ | ⟨_, _, _, _, slash, -⟩ := leads.reaches.first
  · exact absurd same onward
  · obtain ⟨before, more, parts, start, restart⟩ :=
      placed.begun.restart code.1 code.2.2 code.2.1 leads.fresh
    obtain ⟨through, ⟨tail, there⟩, counts⟩ := (leads.reaches.placed placed).inText.stop
    have stop := counts.unique (counts_after through)
    have le := Nat.le_of_lt (leads.reaches.start_lt placed.inText onward)
    rw [start, stop] at le
    obtain ⟨piece, rfl⟩ := prefix_of_byte_le ⟨more, parts.symm⟩ ⟨tail, there⟩ le
    have excerpt : more = piece ++ tail := by
      have same := parts.symm.trans there.symm
      rwa [List.append_assoc, List.append_cancel_left_eq] at same
    let X : Excerpt text := ⟨behind, before ++ piece, tail, there.symm, stop⟩
    have within : tail.length ≤ c.lexer.rest.length :=
      X.length_le placed.inText (reaches.stop_le (placed.inText.advance read))
    obtain ⟨token', m, anew, kind, -, cut⟩ := restart piece tail excerpt within
    let d : Cursor := ⟨m, token', .origin⟩
    have shorter : d.ahead ≤ c.ahead := by
      have length := cut.length
      unfold Cursor.ahead
      rw [show d.token.isEof = c.token.isEof from isEof_congr kind]
      show m.rest.length + _ ≤ _
      omega
    -- the excerpt has no line break before its first token, which makes no difference
    have beside : X.Beside depth c (d.broken c.token.afterBreak) :=
      ⟨placed.inText, Nat.lt_of_le_of_lt shorter room, .inl ⟨kind, rfl, cut⟩⟩
    obtain ⟨behind', beside', goes⟩ := leads.goes X _ (.refl behind) beside
    have ended := beside'.ended
    obtain ⟨last, ran, ended⟩ := climbs _ ⟨behind', goes.trans (ends _ _ ended), ended⟩
    rw [ignoresBreak_expression] at ran
    have around := extract_around before piece tail
    rw [there] at around
    refine ⟨String.ofList piece, ?_, parse_of_finishes (fun char listed => unbroken char ?_) anew
      ⟨last, ran, ended⟩ (Nat.lt_of_le_of_lt shorter room)⟩
    · rw [start, stop]
      exact around
    · rw [← there]
      simp [listed]
  · exact absurd slash leads.fresh

end Grammar

end Stencil
