import Stencil.Proofs.Lexing.TokenPlaces
import Stencil.Proofs.Parsing.Erasing
import Stencil.Proofs.Syntax.SpanTree
/-!
# What a rule reads from where to where

A rule that is run with spans takes its trees from the stretch of text that it goes over. There are
two ways to say where the stretch begins. Parts that are laid (`Cursor.Lays`) stand behind the token
that was consumed last before them; that is enough to put them behind others, and holds also of a
rule that consumes nothing. Parts that fill a stretch (`Cursor.Fills`) stand behind the beginning of
the current token, which is consumed; that is what a span from this token on can go round
(`Cursor.Fills.enclose`).
-/

set_option autoImplicit false

namespace Stencil.Grammar

open Stencil.Error (Fault ParseError)
open Stencil.Syntax
open Stencil.Text (Position Span)
open Stencil.Grammar.Parser

variable {α β σ : Type}

namespace Cursor

/-- The cursor stands in the text: its token is a piece of it, behind what was consumed. -/
structure InText (text : List Char) (c : Cursor) : Prop where
  stop : c.stop.TrueIn text
  token : c.lexer.Holds text c.token
  behind : c.stop.byte ≤ c.token.span.start.byte

/-- The parts stand, nested, between what was consumed before the one cursor and before the
other. -/
structure Lays (text : List Char) (c : Cursor) (parts : List Part) (behind : Cursor) : Prop where
  here : c.InText text
  there : behind.InText text
  nested : Nested text c.stop.byte behind.stop.byte parts

/-- The parts stand, nested, between the beginning of the current token, which was consumed, and
what was consumed last. -/
structure Fills (text : List Char) (c : Cursor) (parts : List Part) (behind : Cursor) : Prop where
  here : c.InText text
  there : behind.InText text
  consumed : c.token.span.start.byte < behind.stop.byte
  nested : Nested text c.token.span.start.byte behind.stop.byte parts

variable {text : List Char} {c middle behind : Cursor} {parts more : List Part}

/-- The token of a cursor lies in the text. -/
theorem InText.span (inText : c.InText text) : c.token.span.LiesIn text := by
  obtain ⟨before, piece, whole, span, -⟩ := inText.token.stands
  exact ⟨before, piece, c.lexer.rest, whole, span⟩

/-- A token that is not the end of the text is not empty. -/
theorem InText.filled (inText : c.InText text) (going : c.token.isEof = false) :
    c.token.span.start.byte < c.token.span.stop.byte := by
  obtain ⟨before, piece, -, span, empty⟩ := inText.token.stands
  have filled : piece ≠ [] := fun nil => by simp [empty nil] at going
  rw [span]
  exact Text.byte_after_lt before filled

/-- Nothing is laid where nothing is consumed. -/
theorem Lays.refl (inText : c.InText text) : c.Lays text [] c :=
  ⟨inText, inText, .nil (Nat.le_refl _)⟩

/-- Parts that are laid one behind the other. -/
theorem Lays.trans (first : c.Lays text parts middle) (second : middle.Lays text more behind) :
    c.Lays text (parts ++ more) behind :=
  ⟨first.here, second.there, first.nested.append second.nested⟩

/-- Parts that are laid behind those that fill a stretch. -/
theorem Fills.trans (first : c.Fills text parts middle) (second : middle.Lays text more behind) :
    c.Fills text (parts ++ more) behind :=
  ⟨first.here, second.there, Nat.lt_of_lt_of_le first.consumed second.nested.le,
    first.nested.append second.nested⟩

/-- What fills a stretch is laid there. -/
theorem Fills.lays (fills : c.Fills text parts behind) : c.Lays text parts behind :=
  ⟨fills.here, fills.there, fills.nested.widen fills.here.behind (Nat.le_refl _)⟩

/-- What fills a stretch from a cursor fills it from another one with a token that begins there. -/
theorem Fills.of_start {c' : Cursor} (fills : c'.Fills text parts behind) (here : c.InText text)
    (start : c'.token.span.start = c.token.span.start) : c.Fills text parts behind :=
  ⟨here, fills.there, start ▸ fills.consumed, start ▸ fills.nested⟩

/-- Parts may be left out of the tree. -/
theorem Lays.forget (lays : c.Lays text parts behind) : c.Lays text [] behind :=
  ⟨lays.here, lays.there, .nil lays.nested.le⟩

/-- A missing expression, of which nothing is consumed. -/
theorem Lays.missing (lays : c.Lays text parts behind) :
    c.Lays text (parts ++ [.missing]) behind :=
  ⟨lays.here, lays.there, lays.nested.append (.missing (.nil (Nat.le_refl _)))⟩

/-- One more part behind others. -/
theorem Lays.snoc {make : α → Part} {items : List α} {item : α}
    (laid : c.Lays text (items.map make) middle) (next : middle.Fills text [make item] behind) :
    c.Lays text ((items ++ [item]).map make) behind := by
  rw [List.map_append]
  exact laid.trans next.lays

/-- The parts of one more item behind those of others. -/
theorem Lays.snocAll {below : α → List Part} {items : List α} {item : α}
    (laid : c.Lays text (items.flatMap below) middle)
    (next : middle.Lays text (below item) behind) :
    c.Lays text ((items ++ [item]).flatMap below) behind := by
  rw [List.flatMap_append, List.flatMap_singleton]
  exact laid.trans next

/-- A part whose span goes from the current token to the end of what was consumed. -/
theorem Fills.enclose (fills : c.Fills text parts behind) {part : Part}
    (own : part.span = some ⟨c.token.span.start, behind.stop⟩) (below : part.children = parts) :
    c.Fills text [part] behind where
  here := fills.here
  there := fills.there
  consumed := fills.consumed
  nested := by
    have lies : Span.LiesIn text ⟨c.token.span.start, behind.stop⟩ :=
      fills.here.span.start.liesIn fills.there.stop (Nat.le_of_lt fills.consumed)
    exact .part own lies fills.consumed (Nat.le_refl _) (below ▸ fills.nested)
      (.nil (Nat.le_refl _))

end Cursor

section Laws

variable {o : Options} {text : List Char} {c : Cursor} {good : α → Cursor → Prop}

/-! ## Rules that build no tree -/

/-- Consuming a token. -/
theorem gives_advance (inText : c.InText text) :
    Gives o c advance fun _ behind =>
      c.Lays text [] behind ∧ (c.token.isEof = false → c.Fills text [] behind) := by
  rw [Gives, ends_advance]
  split
  · next token lexer read =>
    obtain ⟨holds, le⟩ := inText.token.next read
    have there : (behindToken c token lexer).InText text := ⟨inText.span.stop, holds, le⟩
    have ordered := inText.span.ordered
    have behind := inText.behind
    refine ⟨⟨inText, there, .nil ?_⟩,
      fun going => ⟨inText, there, inText.filled going, .nil ordered⟩⟩
    show c.stop.byte ≤ c.token.span.stop.byte
    omega
  · trivial

/-- Consuming a token, whatever it is. -/
theorem lays_advance (inText : c.InText text) :
    Gives o c advance fun _ behind => c.Lays text [] behind :=
  (gives_advance inText).next fun _ _ => And.left

/-- Consuming a token that is not the end of the text. -/
theorem fills_advance (inText : c.InText text) (going : c.token.isEof = false) :
    Gives o c advance fun _ behind => c.Fills text [] behind :=
  (gives_advance inText).next fun _ _ both => both.2 going

/-- Reading a slash again moves the end of the current token only. -/
theorem gives_rereadRegexp (inText : c.InText text) (going : c.token.isEof = false) :
    Gives o c rereadRegexp fun _ behind =>
      behind.InText text ∧ behind.token.span.start = c.token.span.start := by
  unfold rereadRegexp
  rw [Gives, ends_bind, ends_get]
  dsimp only
  split
  · next token lexer read =>
    obtain ⟨holds, start⟩ := inText.token.rereadRegexp going read
    refine ⟨⟨inText.stop, ⟨holds.stands, holds.inHand⟩, ?_⟩, start⟩
    rw [show _ = c.token.span.start from start]
    exact inText.behind
  · trivial

theorem fills_expectPunctuation (inText : c.InText text) (char : Char) :
    Gives o c (expectPunctuation char) fun _ behind => c.Fills text [] behind := by
  simp only [Gives, expectPunctuation, ends_bind, ends_current, ends_ite]
  split_ifs with here
  · exact fills_advance inText (going_of_punctuation here)
  · trivial

theorem fills_expectMarker (inText : c.InText text) (marker : Marker) :
    Gives o c (expectMarker marker) fun _ behind => c.Fills text [] behind := by
  simp only [Gives, expectMarker, ends_bind, ends_current, ends_ite]
  split_ifs with here
  · exact fills_advance inText (going_of_marker here)
  · trivial

/-- The end of a statement, where its semicolon may be left out. -/
theorem lays_semicolon (inText : c.InText text) :
    Gives o c semicolon fun _ behind => c.Lays text [] behind := by
  simp only [Gives, semicolon, mayOmitSemicolon, ends_bind, ends_atPunctuation, ends_ite,
    ends_current, ends_read, ends_pure]
  split_ifs
  · exact lays_advance inText
  · exact .refl inText
  · exact gives_unexpected

/-- Consuming the current token for a result. -/
theorem lays_advance_pure (inText : c.InText text) (a : α) :
    Gives o c (do advance; return a) fun _ behind => c.Lays text [] behind := by
  rw [Gives, ends_bind]
  exact lays_advance inText

theorem lays_plainName (inText : c.InText text) :
    Gives o c plainName fun _ behind => c.Lays text [] behind := by
  simp only [Gives, plainName, ends_bind, ends_currentKind]
  split
  · exact lays_advance_pure inText _
  · exact gives_unexpected

theorem lays_anyName (inText : c.InText text) :
    Gives o c anyName fun _ behind => c.Lays text [] behind := by
  simp only [Gives, anyName, ends_bind, ends_currentKind]
  split
  · exact lays_advance_pure inText _
  · exact lays_advance_pure inText _
  · exact lays_advance_pure inText _
  · rw [ends_ite]
    split_ifs
    · exact lays_advance_pure inText _
    · exact gives_unexpected
  · exact gives_unexpected

theorem lays_propertyKey (inText : c.InText text) :
    Gives o c propertyKey fun _ behind => c.Lays text [] behind := by
  simp only [Gives, propertyKey, ends_bind, ends_currentKind]
  split
  · exact lays_advance_pure inText _
  · exact lays_advance_pure inText _
  · exact lays_anyName inText

/-- The parameters of a function, with the parenthesis behind them. -/
theorem lays_parameters (inText : c.InText text) :
    Gives o c parameters fun _ behind => c.Lays text [] behind := by
  simp only [Gives, parameters, ends_bind, ends_pure]
  refine gives_loop (fun _ behind => c.Lays text [] behind) ?_ [] (.refl inText)
  intro names behind laid
  simp only [ends_bind, ends_atPunctuation, ends_ite]
  split_ifs
  · exact (lays_advance laid.there).next fun _ _ closed => laid.trans closed
  · refine (fills_expectPunctuation laid.there ',').next fun _ _ comma => ?_
    exact (lays_plainName comma.there).next fun _ _ named => laid.trans (comma.lays.trans named)
  · exact (lays_plainName laid.there).next fun _ _ named => laid.trans named

theorem lays_jumpTarget (inText : c.InText text) (around : Surroundings) (keyword : Keyword) :
    Gives o c (jumpTarget around keyword) fun _ behind => c.Lays text [] behind := by
  simp only [Gives, jumpTarget, mayOmitSemicolon, ends_bind, ends_current, ends_read, ends_pure,
    ends_currentKind]
  split
  · simp only [ends_bind, ends_ite, ends_pure]
    refine (lays_advance inText).next fun _ behind label => ?_
    split_ifs
    · exact gives_faultHere _
    · exact (lays_semicolon label.there).next fun _ _ ended => label.trans ended
  · simp only [ends_bind, ends_ite, ends_pure]
    split_ifs
    · exact gives_faultHere _
    · exact lays_semicolon inText

theorem lays_closeBlock (inText : c.InText text) (name : String) (opening : Span) :
    Gives o c (closeBlock name opening) fun _ behind => c.Lays text [] behind := by
  simp only [Gives, closeBlock, ends_bind, ends_current, ends_ite]
  refine (fills_expectMarker inText .closerOpen).next fun _ _ opened => ?_
  split_ifs
  · trivial
  · refine (lays_advance opened.there).next fun _ _ named => ?_
    exact (fills_expectMarker named.there .commandClose).next fun _ _ closed =>
      (opened.trans (named.trans closed.lays)).lays

end Laws

end Stencil.Grammar
