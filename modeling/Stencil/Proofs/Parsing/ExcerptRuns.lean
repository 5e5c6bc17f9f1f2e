import Stencil.Proofs.Parsing.BegunTokens
import Stencil.Proofs.Parsing.Extents
import Stencil.Proofs.Parsing.SidedChunks
import Stencil.Proofs.Parsing.SpanlessRules
/-!
# A text and its excerpts

A rule that goes over a text from one cursor to another does the same on every excerpt of the text that
ends at the second cursor, or further behind (`Excerpt.sides`). While the excerpt goes on, the cursors
over both texts have like tokens, and their lexers read alike; where it ends, the run over the excerpt
sees the end of a text, and the run over the whole text may not go on. `Rereads` says what comes of it for
a rule that is run over the text with spans, and over the excerpt without.
-/

set_option autoImplicit false

namespace Stencil.Grammar

open Stencil.Syntax
open Stencil.Text (Position Span byte_after_le)
open Stencil.Grammar.Parser

/-! ## From cursor to cursor -/

/-- A token of a script or an expression: no end of the text, no text of a template and no marker. -/
def IsCode (token : Token) : Prop :=
  token.isEof = false ∧ (∀ text, token.kind ≠ .html text) ∧ ∀ marker, token.kind ≠ .marker marker

namespace Cursor

variable {text : List Char} {c behind : Cursor} {token : Token} {lexer : Lexer}

/-- The cursor stands in the text, and its token was begun there. -/
structure Placed (text : List Char) (c : Cursor) : Prop where
  inText : c.InText text
  begun : c.Begun text

theorem InText.advance (inText : c.InText text) (read : c.lexer.next = (.ok token, lexer)) :
    (behindToken c token lexer).InText text := by
  obtain ⟨holds, le⟩ := inText.token.next read
  exact ⟨inText.span.stop, holds, le⟩

/-- A slash that is read again begins where it began before. -/
theorem InText.reread (inText : c.InText text) (slash : c.AtSlash)
    (again : c.lexer.rereadRegexp c.slashLead = (.ok token, lexer)) :
    (c.reread token lexer).InText text ∧
      (c.reread token lexer).token.span.start = c.token.span.start := by
  obtain ⟨holds, start⟩ := inText.token.rereadRegexp slash.going again
  refine ⟨⟨inText.stop, ⟨holds.stands, holds.inHand⟩, ?_⟩, start⟩
  rw [show (c.reread token lexer).token.span.start = c.token.span.start from start]
  exact inText.behind

theorem Placed.advance (placed : c.Placed text) (read : c.lexer.next = (.ok token, lexer)) :
    (behindToken c token lexer).Placed text :=
  ⟨placed.inText.advance read, placed.begun.advance read⟩

theorem Placed.reread (placed : c.Placed text) (slash : c.AtSlash)
    (again : c.lexer.rereadRegexp c.slashLead = (.ok token, lexer)) :
    (c.reread token lexer).Placed text :=
  ⟨(placed.inText.reread slash again).1, placed.begun.reread slash again⟩

theorem Reaches.placed {Plain : Token → Prop} (reaches : c.Reaches Plain behind)
    (placed : c.Placed text) : behind.Placed text := by
  induction reaches with
  | refl => exact placed
  | advance _ read _ ih => exact ih (placed.advance read)
  | reread slash again read _ ih => exact ih ((placed.reread slash again).advance read)

/-- What was consumed is not given back. -/
theorem Reaches.stop_le {Plain : Token → Prop} (reaches : c.Reaches Plain behind)
    (inText : c.InText text) : c.stop.byte ≤ behind.stop.byte := by
  induction reaches with
  | refl => exact Nat.le_refl _
  | advance _ read _ ih =>
    have token := Nat.le_trans inText.behind inText.span.ordered
    exact Nat.le_trans token (ih (inText.advance read))
  | reread slash again read _ ih =>
    have inText' := (inText.reread slash again).1
    have token := Nat.le_trans inText'.behind inText'.span.ordered
    exact Nat.le_trans token (ih (inText'.advance read))

/-- Who comes to another cursor consumes a token that is not empty. -/
theorem Reaches.start_lt (reaches : c.Reaches IsCode behind) (inText : c.InText text)
    (onward : behind ≠ c) : c.token.span.start.byte < behind.stop.byte := by
  obtain here | ⟨_, _, code, read, rest⟩ | ⟨_, _, _, _, slash, again, read, rest⟩ := reaches.first
  · exact absurd here onward
  · exact Nat.lt_of_lt_of_le (inText.filled code.1) (rest.stop_le (inText.advance read))
  · obtain ⟨inText', start⟩ := inText.reread slash again
    obtain ⟨_, _, kind⟩ := kind_reread again
    have filled := inText'.filled (going_of_kind kind (by simp))
    rw [start] at filled
    exact Nat.lt_of_lt_of_le filled (rest.stop_le (inText'.advance read))

end Cursor

/-! ## Excerpts -/

/-- An excerpt of a text ends where a cursor stands, behind the token that was consumed last. -/
structure Excerpt (text : List Char) where
  last : Cursor
  /-- The text before the end of the excerpt. -/
  head : List Char
  /-- The text behind the end of the excerpt. -/
  tail : List Char
  whole : text = head ++ tail
  stop : last.stop = Position.origin.after head

namespace Excerpt

variable {text : List Char} (X : Excerpt text) {c d : Cursor}

/-- A token that ends within the excerpt leaves the text behind the excerpt. -/
theorem length_le (inText : c.InText text) (le : c.token.span.stop.byte ≤ X.last.stop.byte) :
    X.tail.length ≤ c.lexer.rest.length := by
  obtain ⟨before, piece, whole, span, -⟩ := inText.token.stands
  rw [span, X.stop] at le
  obtain ⟨more, head⟩ := @prefix_of_byte_le text _ _ ⟨c.lexer.rest, whole.symm⟩
    ⟨X.tail, X.whole.symm⟩ le
  have same := congrArg List.length (whole.symm.trans X.whole)
  rw [← head] at same
  simp only [List.length_append] at same
  omega

theorem byte_le (inText : c.InText text) (le : X.tail.length ≤ c.lexer.rest.length) :
    c.token.span.stop.byte ≤ X.last.stop.byte := by
  obtain ⟨before, piece, whole, span, -⟩ := inText.token.stands
  have same := congrArg List.length (whole.symm.trans X.whole)
  simp only [List.length_append] at same
  obtain ⟨more, head⟩ := @List.prefix_of_prefix_length_le _ _ _ text ⟨c.lexer.rest, whole.symm⟩
    ⟨X.tail, X.whole.symm⟩ (by rw [List.length_append]; omega)
  rw [span, X.stop, ← head]
  exact byte_after_le _ _

theorem length_eq (inText : c.InText text) (stop : c.token.span.stop = X.last.stop) :
    c.lexer.rest.length = X.tail.length := by
  obtain ⟨before, piece, whole, span, -⟩ := inText.token.stands
  rw [span, X.stop] at stop
  have le := Nat.le_of_eq (congrArg Position.byte stop)
  obtain ⟨more, one⟩ := @prefix_of_byte_le text _ _ ⟨c.lexer.rest, whole.symm⟩
    ⟨X.tail, X.whole.symm⟩ le
  obtain ⟨more', other⟩ := @prefix_of_byte_le text _ _ ⟨X.tail, X.whole.symm⟩
    ⟨c.lexer.rest, whole.symm⟩ (Nat.le_of_eq (congrArg Position.byte stop.symm))
  have same := congrArg List.length (whole.symm.trans X.whole)
  have one := congrArg List.length one
  have other := congrArg List.length other
  simp only [List.length_append] at same one other
  omega

/-- A cursor over the text, and one over the excerpt. The bound is one on the depth of rules. -/
structure Beside (depth : Nat) (c d : Cursor) : Prop where
  inText : c.InText text
  room : d.ahead < depth
  alike : d.token.kind = c.token.kind ∧ d.token.afterBreak = c.token.afterBreak ∧
      Lexer.Cut X.tail c.lexer d.lexer ∨
    d.token.kind = .eof ∧ c = X.last

variable {X} {depth : Nat}

/-- At its end the excerpt has ended. -/
theorem Beside.ended (beside : X.Beside depth X.last d) : d.token.isEof = true := by
  obtain ⟨kind, -, cut⟩ | ⟨kind, -⟩ := beside.alike
  · rw [isEof_congr kind]
    cases going : X.last.token.isEof with
    | true => rfl
    | false =>
      have within := X.byte_le beside.inText (by rw [cut.length]; omega)
      have filled := beside.inText.filled going
      have behind := beside.inText.behind
      omega
  · simp [Token.isEof, kind]

/-- The next token of the excerpt. -/
theorem Beside.advance (beside : X.Beside depth c d) (code : IsCode c.token) {token : Token}
    {lexer : Lexer} (read : c.lexer.next = (.ok token, lexer))
    (onward : (behindToken c token lexer).Reaches IsCode X.last) :
    ∃ token' lexer', d.lexer.next = (.ok token', lexer') ∧
      X.Beside depth (behindToken c token lexer) (behindToken d token' lexer') := by
  have inText := beside.inText.advance read
  have room {token' : Token} {lexer' : Lexer} (read' : d.lexer.next = (.ok token', lexer')) :
      (behindToken d token' lexer').ahead < depth :=
    Nat.lt_of_le_of_lt (Cursor.leads_behindToken read').1.ahead beside.room
  obtain ⟨-, -, cut⟩ | ⟨-, rfl⟩ := beside.alike
  · -- what goes on with the token that was read, if that is not behind the excerpt
    have goes (going : token.isEof = false) (marker : ∀ marker, token.kind ≠ .marker marker)
        (within : X.tail.length ≤ lexer.rest.length) :
        ∃ token' lexer', d.lexer.next = (.ok token', lexer') ∧
          X.Beside depth (behindToken c token lexer) (behindToken d token' lexer') := by
      obtain ⟨token', lexer', read', kind, broke, cut'⟩ := cut.next read going marker within
      exact ⟨token', lexer', read', inText, room read', .inl ⟨kind, broke, cut'⟩⟩
    by_cases last : behindToken c token lexer = X.last
    · have stop : c.token.span.stop = X.last.stop := congrArg Cursor.stop last
      obtain ⟨token', lexer', read', ended⟩ := cut.next_end (X.length_eq beside.inText stop)
      exact ⟨token', lexer', read', inText, room read', .inr ⟨kind_of_isEof ended, last⟩⟩
    · obtain here | ⟨_, _, code', read', rest⟩ | ⟨_, _, _, _, slash, again, read', rest⟩ :=
        onward.first
      · exact absurd here.symm last
      · exact goes code'.1 code'.2.2 (X.length_le inText (rest.stop_le (inText.advance read')))
      · obtain ⟨inText', -⟩ := inText.reread slash again
        have within := X.length_le inText' (rest.stop_le (inText'.advance read'))
        have shorter := (Lexer.rereadRegexp_le again).1
        refine goes slash.going (fun marker => ?_) (Nat.le_trans within shorter)
        obtain single | double := slash
        · rw [show token.kind = _ from kind_of_operator single]
          simp
        · rw [show token.kind = _ from kind_of_operator double]
          simp
  · -- the run over the text may not go on
    have filled := beside.inText.filled code.1
    have le := onward.stop_le inText
    have behind := beside.inText.behind
    change X.last.token.span.stop.byte ≤ X.last.stop.byte at le
    omega

/-- A slash of the excerpt that is read again, as a regular expression. -/
theorem Beside.reread (beside : X.Beside depth c d) (slash : c.AtSlash)
    (lead : d.slashLead = c.slashLead) {token : Token} {lexer : Lexer}
    (again : c.lexer.rereadRegexp c.slashLead = (.ok token, lexer))
    (onward : (c.reread token lexer).Reaches IsCode X.last) :
    ∃ token' lexer', d.lexer.rereadRegexp c.slashLead = (.ok token', lexer') ∧
      X.Beside depth (c.reread token lexer) (d.reread token' lexer') := by
  obtain ⟨inText, start⟩ := beside.inText.reread slash again
  obtain ⟨_, _, kind⟩ := Cursor.kind_reread again
  have filled := beside.inText.filled slash.going
  have behind := beside.inText.behind
  obtain ⟨kind', broke, cut⟩ | ⟨-, last⟩ := beside.alike
  · obtain here | ⟨_, _, code, read, rest⟩ | ⟨_, _, _, _, slash', -⟩ := onward.first
    · -- the excerpt would end before the slash, which it holds
      have within := X.byte_le beside.inText (by rw [cut.length]; omega)
      rw [here] at within
      change c.token.span.stop.byte ≤ c.stop.byte at within
      omega
    · have within := X.length_le inText (rest.stop_le (inText.advance read))
      obtain ⟨token', lexer', again', kind'', -, cut'⟩ := cut.toShortens.readRegexp again within
      have slash' : d.AtSlash := by
        unfold Cursor.AtSlash at slash ⊢
        rwa [isOperator_congr kind', isOperator_congr kind']
      refine ⟨token', lexer', again', inText, ?_, .inl ⟨kind'', broke, cut'⟩⟩
      exact Nat.lt_of_le_of_lt (Cursor.ahead_reread slash' (lead ▸ again')) beside.room
    · simp [Cursor.AtSlash, Token.isOperator, kind] at slash'
  · by_cases same : X.last = c.reread token lexer
    · rw [← same, ← last] at kind
      simp [Cursor.AtSlash, Token.isOperator, kind] at slash
    · have beyond := onward.start_lt inText same
      rw [start, ← last] at beyond
      omega

/-- The two runs over a text and over an excerpt of it, without spans. -/
def sides (X : Excerpt text) (strict : Bool) (depth : Nat) : Sides where
  first := withoutSpans strict
  second := withoutSpans strict
  spans := rfl
  stricter := id
  Plain := IsCode
  code _ going html marker := ⟨going, html, marker⟩
  Good _ := True
  others _ _ := trivial
  missing := trivial
  Stands _ := True
  stands_advance _ _ := trivial
  stands_reread _ _ _ := trivial
  Beside := X.Beside depth
  Admits _ c := c.Reaches IsCode X.last
  admits reaches _ onward := reaches.trans onward
  names _ onward := onward
  places _ positions := by simp [withoutSpans] at positions
  alike {c d} beside := by
    obtain ⟨kind, broke, -⟩ | ⟨kind, last⟩ := beside.alike
    · exact .inl ⟨kind, broke⟩
    · refine .inr ⟨kind, fun _ behind reaches shorter onward => ?_⟩
      rw [last] at shorter
      exact absurd onward.ahead (Nat.not_le_of_gt shorter)
  advance beside code read reaches onward := beside.advance code read (reaches.trans onward)
  reread beside slash lead again reaches onward :=
    beside.reread slash lead again (reaches.trans onward)
  Broken _ := True
  broken _ _ _ _ := trivial
  jumps differ := absurd rfl differ

end Excerpt

/-! ## Reading an excerpt again -/

section Rereads

variable {text : List Char} {strict : Bool} {depth : Nat} {c : Cursor} {α β : Type}

/-- What the one rule reads of a text with spans, the other reads without, on every excerpt that ends
where the first stops, or further behind. -/
def Rereads (text : List Char) (strict : Bool) (depth : Nat) (erase : α → β) (c : Cursor)
    (p : Parser α) (q : Parser β) : Prop :=
  ∀ a behind, p (withSpans strict) c = .ok (a, behind) → c.Reaches IsCode behind ∧
    ∀ (X : Excerpt text) d, behind.Reaches IsCode X.last → X.Beside depth c d →
      ∃ d', q (withoutSpans strict) d = .ok (erase a, d') ∧ X.Beside depth behind d'

/-- A rule that ends alike with spans and without, and whose run without is followed on excerpts. -/
theorem rereads_of {erase : α → β} {p : Parser α} {q q' : Parser β}
    {post : Excerpt text → List Part → β → Cursor → Prop} (erases : Erases strict c erase p q)
    (follows : ∀ (X : Excerpt text) d, (X.sides strict depth).Follows c d q q' (post X)) :
    Rereads text strict depth erase c p q' := by
  intro a behind ran
  have ran' : q (withoutSpans strict) c = .ok (erase a, behind) := by
    unfold Erases at erases
    rw [ran] at erases
    cases second : q (withoutSpans strict) c with
    | error failure =>
      rw [second] at erases
      exact erases.elim
    | ok outcome =>
      rw [second] at erases
      rw [← erases.1, ← erases.2]
  have whole : Excerpt text := ⟨{ c with stop := .origin }, [], text, rfl, rfl⟩
  obtain ⟨-, reaches, -⟩ := follows whole c _ _ trivial ran'
  refine ⟨reaches, fun X d onward beside => ?_⟩
  obtain ⟨-, -, _, -, second⟩ := follows X d _ _ trivial ran'
  exact second beside X.last onward False.elim (.refl _)

end Rereads

end Stencil.Grammar
