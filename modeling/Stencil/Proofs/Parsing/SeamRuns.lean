import Stencil.Proofs.Lexing.Seams
import Stencil.Proofs.Parsing.Finishing
import Stencil.Proofs.Parsing.SidedChunks
import Stencil.Proofs.Parsing.SpanlessRules
/-!
# A text with more behind it

A rule is run over a text, and over the same text with more behind it, which begins on a new line. As
long as the first text goes on the two runs are at like tokens (`Alongside`), and the second run follows
the first (`seamSides`). Where the first text ends, the second goes on with a token that closes what was
read: a closing parenthesis, or a slash that divides (`Closer`). A rule that reads the first text to its
end gives the same over the second text, and leaves the closer (`Closes`).

A slash divides only behind a token that ends an operand, so before a slash the last token of the text
matters; it is told from the result.
-/

set_option autoImplicit false

namespace Stencil.Grammar

open Stencil.Syntax
open Stencil.Text (Position)
open Stencil.Lexing
open Stencil.Grammar.Parser

variable {more : List Char} {c d : Cursor} {token : Token} {lexer : Lexer}

/-! ## Cursors at like tokens -/

/-- A cursor over a text, and one over the text with more behind it, are at like tokens, and their lexers
read alike. The text goes on, unless nothing was put behind it. -/
structure Alongside (more : List Char) (c d : Cursor) : Prop where
  kind : d.token.kind = c.token.kind
  broke : d.token.afterBreak = c.token.afterBreak
  seam : Lexer.Seam more c.lexer d.lexer
  regexp : c.lexer.regexpAllowed = c.token.kind.precedesExpression
  going : c.token.isEof = false ∨ more = []

theorem Alongside.advance (alongside : Alongside more c d)
    (read : c.lexer.next = (.ok token, lexer)) (going : token.isEof = false ∨ more = []) :
    ∃ token' lexer', d.lexer.next = (.ok token', lexer') ∧
      Alongside more (behindToken c token lexer) (behindToken d token' lexer') := by
  obtain ⟨token', lexer', read', kind, broke, seam, regexp⟩ := alongside.seam.next read going
  exact ⟨token', lexer', read', kind, broke, seam, regexp, going⟩

theorem Alongside.reread (alongside : Alongside more c d)
    (again : c.lexer.rereadRegexp c.slashLead = (.ok token, lexer)) :
    ∃ token' lexer', d.lexer.rereadRegexp c.slashLead = (.ok token', lexer') ∧
      Alongside more (c.reread token lexer) (d.reread token' lexer') := by
  obtain ⟨token', lexer', again', kind, -, seam, regexp⟩ := alongside.seam.rereadRegexp again
  obtain ⟨pattern, flags, fresh⟩ := Cursor.kind_reread again
  exact ⟨token', lexer', again', kind, alongside.broke, seam, regexp,
    .inl (going_of_kind fresh (by simp))⟩

/-- Where the first text does not go on, nothing is consumed. -/
theorem reaches_ended {behind : Cursor} (reaches : c.Reaches (fun token => token.isEof = false) behind)
    (going : behind.token.isEof = false) : c.token.isEof = false := by
  obtain rfl | ⟨_, _, plain, -⟩ | ⟨_, _, _, _, slash, -⟩ := reaches.first
  · exact going
  · exact plain
  · exact slash.going

/-- Neither of the two runs gives trees spans. -/
theorem seam_spans (strict : Bool) :
    (withoutSpans strict).positions = (withoutSpans strict).positions := rfl

/-- The two runs are equally strict. -/
theorem seam_strictness (strict : Bool) :
    (withoutSpans strict).strict = true → (withoutSpans strict).strict = true := id

/-- The run over a text, without spans, and the run over the text with more behind it. -/
def seamSides (more : List Char) (strict : Bool) : Sides where
  first := withoutSpans strict
  second := withoutSpans strict
  spans := seam_spans strict
  stricter := seam_strictness strict
  Plain token := token.isEof = false
  code _ going _ _ := going
  Good _ := True
  others _ _ := trivial
  missing := trivial
  Stands _ := True
  stands_advance _ _ := trivial
  stands_reread _ _ _ := trivial
  Beside := Alongside more
  Admits _ behind := behind.token.isEof = false ∨ more = []
  admits reaches _ admits := admits.imp_left (reaches_ended reaches)
  names _ admits := admits
  places _ positions := by simp [withoutSpans] at positions
  alike beside := .inl ⟨beside.kind, beside.broke⟩
  advance beside _ read reaches admits :=
    beside.advance read (admits.imp_left (reaches_ended reaches))
  reread beside _ _ again _ _ := beside.reread again
  Broken _ := True
  broken _ _ _ _ := trivial
  jumps differ := absurd rfl differ

section Following

variable {strict : Bool} {α β : Type} {p q : Parser α} {post : List Part → α → Cursor → Prop}

/-- What the first run reads without coming to the end of its text, the second reads as well. -/
theorem Alongside.carried (alongside : Alongside more c d)
    (follows : (seamSides more strict).Follows c d p q post) {a : α} {behind : Cursor}
    (ran : p (withoutSpans strict) c = .ok (a, behind))
    (going : behind.token.isEof = false ∨ more = []) :
    ∃ behind', q (withoutSpans strict) d = .ok (a, behind') ∧ Alongside more behind behind' := by
  obtain ⟨-, -, _, -, second⟩ := follows a behind trivial ran
  exact second alongside behind (.refl behind) False.elim going

/-- The two runs see the same kind of token. -/
theorem follows_alike {stalls : β → Cursor → Prop} {goal : List Part → β → Cursor → Prop}
    {f g : Token → Parser β}
    (next : ∀ token, token.kind = c.token.kind →
      (seamSides more strict).FollowsOn stalls c d (f c.token) (g token) goal) :
    (seamSides more strict).FollowsOn stalls c d (current >>= f) (current >>= g) goal := by
  by_cases alike : d.token.kind = c.token.kind
  · exact follows_of_looks rfl rfl (next d.token alike)
  · intro b behind stands ran
    obtain ⟨stands, reaches, parts, known, -⟩ := next c.token rfl b behind stands ran
    exact ⟨stands, reaches, parts, known, fun beside _ _ _ _ => absurd beside.kind alike⟩

theorem follows_alikePunctuation {stalls : β → Cursor → Prop}
    {goal : List Part → β → Cursor → Prop} {f g : Bool → Parser β} {char : Char}
    (next : (seamSides more strict).FollowsOn stalls c d (f (c.token.isPunctuation char))
      (g (c.token.isPunctuation char)) goal) :
    (seamSides more strict).FollowsOn stalls c d (atPunctuation char >>= f)
      (atPunctuation char >>= g) goal :=
  follows_alike (f := fun token => f (token.isPunctuation char))
    (g := fun token => g (token.isPunctuation char)) fun token kind => by
      rwa [isPunctuation_congr kind]

end Following

/-! ## Tokens that close -/

/-- What may stand behind a text that is read to its end. -/
inductive Closer where
  | parenthesis
  | slash

namespace Closer

/-- How it is written. -/
def char : Closer → Char
  | parenthesis => ')'
  | slash => '/'

/-- What it is read as. -/
def kind : Closer → TokenKind
  | parenthesis => .punctuation ')'
  | slash => .operator "/"

/-- Behind a token of the kind it is read as such. -/
def Ends (closer : Closer) (kind : TokenKind) : Prop :=
  closer = .slash → kind.precedesExpression = false

/-- The text begins, behind blanks, with the closer; a slash is followed by a space. -/
def Begins (closer : Closer) (rest more : List Char) : Prop :=
  ∃ blanks, blanks.all Text.isBlank = true ∧ more = blanks ++ ([closer.char] ++ rest) ∧
    (closer = .slash → rest.head? = some ' ')

/-- The cursor stands before the closer, and its lexer behind it. -/
structure Closed (closer : Closer) (rest : List Char) (d : Cursor) : Prop where
  kind : d.token.kind = closer.kind
  ready : d.lexer.Ready closer.kind.precedesExpression rest

/-- Behind what was read there is nothing but the closer. -/
theorem Closed.punctuation {closer : Closer} {rest : List Char} (closed : closer.Closed rest d)
    {char : Char} (other : char ≠ ')') : d.token.isPunctuation char = false := by
  unfold Token.isPunctuation
  rw [closed.kind]
  cases closer with
  | parenthesis => exact decide_eq_false other.symm
  | slash => rfl

end Closer

variable {closer : Closer} {rest : List Char}

/-- Where the first text ends, the second goes on with the closer. -/
theorem Alongside.closes (alongside : Alongside more c d) (begins : closer.Begins rest more)
    (ends : closer.Ends c.token.kind) (read : c.lexer.next = (.ok token, lexer))
    (ended : token.isEof = true) :
    ∃ token' lexer', d.lexer.next = (.ok token', lexer') ∧
      closer.Closed rest (behindToken d token' lexer') := by
  obtain ⟨behind, text, script, regexp, same⟩ := alongside.seam.next_end read ended
  obtain ⟨blanks, blank, rfl, space⟩ := begins
  have allowed : behind.regexpAllowed = c.token.kind.precedesExpression := by
    rw [regexp, alongside.seam.regexp, alongside.regexp]
  have both : Word behind.regexpAllowed closer.kind [closer.char] ∧ StopsBefore closer.kind rest := by
    cases closer with
    | parenthesis => exact ⟨.punctuation (by decide), fun _ _ => by simp [Closer.kind, stopsAt]⟩
    | slash =>
      refine ⟨.symbol (by decide : "/" ∈ symbolOperators) fun _ => ?_, fun c first => ?_⟩
      · rw [allowed]
        exact ends rfl
      · rw [space rfl] at first
        obtain rfl := Option.some.inj first
        decide
  obtain ⟨token', lexer', read', kind, ready⟩ :=
    Lexer.next_word script text blank both.1 both.2
  exact ⟨token', lexer', same.trans read', kind, ready⟩

/-! ## Rules that read to the end -/

section Closes

variable {strict : Bool} {α β : Type} {p q : Parser α} {f g : α → Parser β}
  {post : List Part → α → Cursor → Prop} {first : α → Prop} {cold : β → Prop}

/-- When the run of the one rule reads its text to the end, and its result ends in a way that lets the
closer be read, the run of the other gives the same result and leaves the closer. -/
def Closes (closer : Closer) (rest : List Char) (strict : Bool) (cold : α → Prop) (c d : Cursor)
    (p q : Parser α) : Prop :=
  ∀ a behind, p (withoutSpans strict) c = .ok (a, behind) → behind.token.isEof = true → cold a →
    ∃ behind', q (withoutSpans strict) d = .ok (a, behind') ∧ closer.Closed rest behind'

/-- What the one rule gives at the end of the text, the other gives before the closer; that the result
ends well tells that something before it did. -/
def Rests (closer : Closer) (rest : List Char) (strict : Bool) (cold : α → Prop) (before : Prop)
    (p q : Parser α) : Prop :=
  ∀ a c behind, c.token.isEof = true → p (withoutSpans strict) c = .ok (a, behind) → cold a →
    before ∧ ∀ d, closer.Closed rest d →
      ∃ behind', q (withoutSpans strict) d = .ok (a, behind') ∧ closer.Closed rest behind'

theorem rests_pure {a : α} {cold : α → Prop} {before : Prop} (known : cold a → before) :
    Rests closer rest strict cold before (pure a) (pure a) := by
  intro _ c behind _ ran fine
  cases ran
  exact ⟨known fine, fun d closed => ⟨d, rfl, closed⟩⟩

/-- A rule that gives no result at the end of a text. -/
theorem rests_never {cold : α → Prop} {before : Prop}
    (never : ∀ a c behind, c.token.isEof = true → p (withoutSpans strict) c ≠ .ok (a, behind)) :
    Rests closer rest strict cold before p q :=
  fun a c behind ended ran => absurd ran (never a c behind ended)

theorem rests_stuck {cold : β → Prop} {before : Prop}
    (never : ∀ a c behind, c.token.isEof = true → p (withoutSpans strict) c ≠ .ok (a, behind)) :
    Rests closer rest strict cold before (p >>= f) (q >>= g) := by
  refine rests_never fun b c behind ended ran => ?_
  obtain ⟨a, _, ran, -⟩ := run_bind ran
  exact never a c _ ended ran

theorem rests_spanFrom {start start' : Position} {cold : β → Prop} {before : Prop}
    {f g : Option Text.Span → Parser β} (next : Rests closer rest strict cold before (f none) (g none)) :
    Rests closer rest strict cold before (spanFrom start >>= f) (spanFrom start' >>= g) := by
  intro b c behind ended ran fine
  rw [run_behind (run_spanFrom _ _ _)] at ran
  obtain ⟨known, second⟩ := next b c behind ended ran fine
  refine ⟨known, fun d closed => ?_⟩
  rw [run_behind (run_spanFrom _ _ _)]
  exact second d closed

/-- The text goes on where the runs are at like tokens. -/
theorem Alongside.filled (alongside : Alongside more c d) (begins : closer.Begins rest more) :
    c.token.isEof = false := by
  obtain going | rfl := alongside.going
  · exact going
  · obtain ⟨blanks, -, none_, -⟩ := begins
    simp at none_

/-- A rule that consumes nothing does not come to the end of the text. -/
theorem closes_pure {cold : α → Prop} {a : α} (begins : closer.Begins rest more)
    (alongside : Alongside more c d) : Closes closer rest strict cold c d (pure a) q := by
  intro _ behind ran ended
  cases ran
  rw [alongside.filled begins] at ended
  cases ended

/-- Looking for an opening token. -/
theorem rests_atPunctuation {char : Char} (other : char ≠ ')') {f g : Bool → Parser β} {before : Prop}
    (next : Rests closer rest strict cold before (f false) (g false)) :
    Rests closer rest strict cold before (atPunctuation char >>= f) (atPunctuation char >>= g) := by
  intro b c behind ended ran fine
  rw [run_behind (a := c.token.isPunctuation char) rfl,
    show c.token.isPunctuation char = false by simp [Token.isPunctuation, kind_of_isEof ended]] at ran
  obtain ⟨known, second⟩ := next b c behind ended ran fine
  refine ⟨known, fun d closed => ?_⟩
  rw [run_behind (a := d.token.isPunctuation char) rfl, closed.punctuation other]
  exact second d closed

/-- Rules behind each other. Either the first comes to the end of the text, and the second rests there;
or the second reads on. -/
theorem closes_bind (alongside : Alongside more c d)
    (follows : (seamSides more strict).Follows c d p q post)
    (ending : Closes closer rest strict first c d p q)
    (resting : ∀ a, Rests closer rest strict cold (first a) (f a) (g a))
    (onward : ∀ a behind behind', Alongside more behind behind' → behind.token.isEof = false →
      p (withoutSpans strict) c = .ok (a, behind) →
      Closes closer rest strict cold behind behind' (f a) (g a)) :
    Closes closer rest strict cold c d (p >>= f) (q >>= g) := by
  intro b later ran ended fine
  obtain ⟨a, behind, ranFirst, ranSecond⟩ := run_bind ran
  cases going : behind.token.isEof with
  | true =>
    obtain ⟨known, second⟩ := resting a b behind later going ranSecond fine
    obtain ⟨behind', same, closed⟩ := ending a behind ranFirst going known
    rw [run_behind same]
    exact second behind' closed
  | false =>
    obtain ⟨behind', same, alongside'⟩ := alongside.carried follows ranFirst (.inl going)
    rw [run_behind same]
    exact onward a behind behind' alongside' going ranFirst b later ranSecond ended fine

/-- Rules behind each other, of which the second does not rest. -/
theorem closes_next (alongside : Alongside more c d)
    (follows : (seamSides more strict).Follows c d p q post)
    (never : ∀ a b c behind, c.token.isEof = true → f a (withoutSpans strict) c ≠ .ok (b, behind))
    (onward : ∀ a behind behind', Alongside more behind behind' → behind.token.isEof = false →
      p (withoutSpans strict) c = .ok (a, behind) →
      Closes closer rest strict cold behind behind' (f a) (g a)) :
    Closes closer rest strict cold c d (p >>= f) (q >>= g) := by
  have none_ : Closes closer rest strict (fun _ => False) c d p q := fun _ _ _ _ => False.elim
  exact closes_bind alongside follows none_ (fun a => rests_never (never a)) onward

/-- Both runs look, and go on by what they see. -/
theorem closes_looks {look look' : Parser α} {a a' : α}
    (looks : look (withoutSpans strict) c = .ok (a, c))
    (looks' : look' (withoutSpans strict) d = .ok (a', d))
    (next : Closes closer rest strict cold c d (f a) (g a')) :
    Closes closer rest strict cold c d (look >>= f) (look' >>= g) := by
  intro b behind ran ended fine
  rw [run_behind looks] at ran
  rw [run_behind looks']
  exact next b behind ran ended fine

theorem closes_atPunctuation (alongside : Alongside more c d) {char : Char} {f g : Bool → Parser β}
    (next : Closes closer rest strict cold c d (f (c.token.isPunctuation char))
      (g (c.token.isPunctuation char))) :
    Closes closer rest strict cold c d (atPunctuation char >>= f) (atPunctuation char >>= g) :=
  closes_looks rfl (by rw [← isPunctuation_congr alongside.kind]; rfl) next

theorem closes_atOperator (alongside : Alongside more c d) {spelling : String}
    {f g : Bool → Parser β}
    (next : Closes closer rest strict cold c d (f (c.token.isOperator spelling))
      (g (c.token.isOperator spelling))) :
    Closes closer rest strict cold c d (atOperator spelling >>= f) (atOperator spelling >>= g) :=
  closes_looks rfl (by rw [← isOperator_congr alongside.kind]; rfl) next

theorem closes_kind (alongside : Alongside more c d) {f g : TokenKind → Parser β}
    (next : Closes closer rest strict cold c d (f c.token.kind) (g c.token.kind)) :
    Closes closer rest strict cold c d (currentKind >>= f) (currentKind >>= g) :=
  closes_looks rfl (by rw [← alongside.kind]; rfl) next

theorem closes_current (alongside : Alongside more c d) {f g : Token → Parser β}
    (next : ∀ token, token.kind = c.token.kind →
      Closes closer rest strict cold c d (f c.token) (g token)) :
    Closes closer rest strict cold c d (current >>= f) (current >>= g) :=
  closes_looks rfl rfl (next d.token alongside.kind)

theorem closes_spanFrom {start start' : Position} {f g : Option Text.Span → Parser β}
    (next : Closes closer rest strict cold c d (f none) (g none)) :
    Closes closer rest strict cold c d (spanFrom start >>= f) (spanFrom start' >>= g) :=
  closes_looks (run_spanFrom _ _ _) (run_spanFrom _ _ _) next

theorem closes_startOfToken {f g : Position → Parser β}
    (next : ∀ start start', Closes closer rest strict cold c d (f start) (g start')) :
    Closes closer rest strict cold c d (startOfToken >>= f) (startOfToken >>= g) := by
  intro b behind ran ended fine
  exact next c.token.span.start d.token.span.start b behind ran ended fine

/-- The last token of the text is consumed. -/
theorem closes_advance {cold : Unit → Prop} (begins : closer.Begins rest more)
    (alongside : Alongside more c d) (ends : cold () → closer.Ends c.token.kind) :
    Closes closer rest strict cold c d Parser.advance Parser.advance := by
  intro _ behind ran ended fine
  obtain ⟨token, lexer, read, rfl⟩ := advance_ok ran
  obtain ⟨token', lexer', read', closed⟩ := alongside.closes begins (ends fine) read ended
  exact ⟨_, run_advance read', closed⟩

/-- Both runs consume a token. -/
theorem closes_take (begins : closer.Begins rest more) (alongside : Alongside more c d)
    (going : c.token.isEof = false) {f g : Unit → Parser β}
    (resting : Rests closer rest strict cold (closer.Ends c.token.kind) (f ()) (g ()))
    (onward : ∀ behind behind', Alongside more behind behind' → behind.token.isEof = false →
      Closes closer rest strict cold behind behind' (f ()) (g ())) :
    Closes closer rest strict cold c d (Parser.advance >>= f) (Parser.advance >>= g) := by
  have plain : (seamSides more strict).Plain c.token := going
  have ending : Closes closer rest strict (fun _ => closer.Ends c.token.kind) c d Parser.advance
      Parser.advance := closes_advance begins alongside id
  exact closes_bind alongside (follows_takeOnly plain going) ending (fun _ => resting)
    fun _ behind behind' alongside going _ => onward behind behind' alongside going

/-- A rule at whose end a token is consumed. -/
theorem closes_takes (begins : closer.Begins rest more) (alongside : Alongside more c d)
    (going : c.token.isEof = false) {b : β} (ends : cold b → closer.Ends c.token.kind) :
    Closes closer rest strict cold c d (do Parser.advance; return b)
      (do Parser.advance; return b) := by
  refine closes_take begins alongside going (rests_pure ends) fun behind behind' _ going => ?_
  intro _ later ran ended
  cases ran
  exact absurd ended (by simp [going])

end Closes

end Stencil.Grammar
