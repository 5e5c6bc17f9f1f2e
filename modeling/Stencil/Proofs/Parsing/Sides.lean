import Stencil.Proofs.Parsing.ParsingEnds
import Stencil.Proofs.Syntax.Parts
/-!
# Two runs side by side

The grammar is run twice, at two cursors that stand beside each other, and the second run is to give
what the first gave. `Sides` says what the two runs are: how their options differ, which cursors stand
beside each other, and which trees and places the first run must stay within (`Sides.Admits`), for the
second run may not follow it everywhere. `Sides.Follows` is then carried through the rules of the
grammar, with one law for each way rules are put together.

Where the second text ends, the first may go on. So the second run may see the end of the text where
the first sees a token; but a first run that consumes that token has left the places that are
admitted. For this reason the laws of rules that look at a token ask that the run consumes it, unless
the end of the text would be answered in the same way.
-/

set_option autoImplicit false

namespace Stencil.Syntax

open Stencil.Text (Span)

/-- The span of a jump that names what it jumps with: a `return` with a value, or a `break` or
`continue` with a label. -/
def Part.jumpSpan? : Part → Option Span
  | .stmt (.return span (some _)) => span
  | .stmt (.break span (some _)) => span
  | .stmt (.continue span (some _)) => span
  | _ => none

end Stencil.Syntax

namespace Stencil.Grammar

open Stencil.Error (Fault ParseError)
open Stencil.Syntax
open Stencil.Text (Position Span)
open Stencil.Grammar.Parser

variable {α β σ : Type}

/-! ## From cursor to cursor -/

namespace Cursor

/-- The cursor at which the token is read again, as a regular expression. -/
def reread (c : Cursor) (token : Token) (lexer : Lexer) : Cursor :=
  { c with
    lexer
    token := { token with afterBreak := c.token.afterBreak, comments := c.token.comments } }

/-- What a slash that is read again begins with, behind the slash. -/
def slashLead (c : Cursor) : String := if c.token.isOperator "/=" then "=" else ""

/-- Whether the token is a slash that may be read again. -/
def AtSlash (c : Cursor) : Prop := c.token.isOperator "/" = true ∨ c.token.isOperator "/=" = true

theorem AtSlash.going {c : Cursor} (slash : c.AtSlash) : c.token.isEof = false :=
  slash.elim going_of_operator going_of_operator

/-- Going from one cursor to another over tokens that may be consumed. A slash that is read again is
consumed as a regular expression. -/
inductive Reaches (Plain : Token → Prop) : Cursor → Cursor → Prop where
  | refl (c : Cursor) : Reaches Plain c c
  | advance {c behind : Cursor} {token : Token} {lexer : Lexer} (plain : Plain c.token)
      (read : c.lexer.next = (.ok token, lexer))
      (rest : Reaches Plain (behindToken c token lexer) behind) : Reaches Plain c behind
  | reread {c behind : Cursor} {token token' : Token} {lexer lexer' : Lexer} (slash : c.AtSlash)
      (again : c.lexer.rereadRegexp c.slashLead = (.ok token, lexer))
      (read : lexer.next = (.ok token', lexer'))
      (rest : Reaches Plain (behindToken (c.reread token lexer) token' lexer') behind) :
      Reaches Plain c behind

variable {Plain : Token → Prop} {c middle behind : Cursor}

theorem Reaches.trans (first : c.Reaches Plain middle) (second : middle.Reaches Plain behind) :
    c.Reaches Plain behind := by
  induction first with
  | refl => exact second
  | advance plain read _ ih => exact .advance plain read (ih second)
  | reread slash again read _ ih => exact .reread slash again read (ih second)

/-- A slash that is read again leaves no more ahead. -/
theorem ahead_reread {token : Token} {lexer : Lexer} (slash : c.AtSlash)
    (read : c.lexer.rereadRegexp c.slashLead = (.ok token, lexer)) :
    (c.reread token lexer).ahead ≤ c.ahead := by
  obtain ⟨shorter, pattern, flags, kind⟩ := Lexer.rereadRegexp_le read
  have fresh : (c.reread token lexer).token.isEof = false := going_of_kind kind (by simp)
  unfold ahead
  rw [slash.going, fresh]
  exact Nat.add_le_add_right shorter _

/-- What is read again is a regular expression. -/
theorem kind_reread {token : Token} {lexer : Lexer}
    (again : c.lexer.rereadRegexp c.slashLead = (.ok token, lexer)) :
    ∃ pattern flags, (c.reread token lexer).token.kind = .regexp pattern flags :=
  (Lexer.rereadRegexp_le again).2

theorem Reaches.ahead (reaches : c.Reaches Plain behind) : behind.ahead ≤ c.ahead := by
  induction reaches with
  | refl => exact Nat.le_refl _
  | advance _ read _ ih => exact Nat.le_trans ih (Cursor.leads_behindToken read).1.ahead
  | reread slash again read _ ih =>
    exact Nat.le_trans ih (Nat.le_trans (leads_behindToken read).1.ahead (ahead_reread slash again))

/-- Nothing is consumed, or a token is, or a slash that is read again. -/
theorem Reaches.first (reaches : c.Reaches Plain behind) :
    behind = c ∨
      (∃ token lexer, Plain c.token ∧ c.lexer.next = (.ok token, lexer) ∧
        (behindToken c token lexer).Reaches Plain behind) ∨
      ∃ token lexer token' lexer', c.AtSlash ∧
        c.lexer.rereadRegexp c.slashLead = (.ok token, lexer) ∧
        lexer.next = (.ok token', lexer') ∧
        (behindToken (c.reread token lexer) token' lexer').Reaches Plain behind := by
  cases reaches with
  | refl => exact .inl rfl
  | advance plain read rest => exact .inr (.inl ⟨_, _, plain, read, rest⟩)
  | reread slash again read rest => exact .inr (.inr ⟨_, _, _, _, slash, again, read, rest⟩)

/-- A slash that is read again, and consumed. -/
theorem Reaches.rereading {token : Token} {lexer : Lexer} (slash : c.AtSlash)
    (again : c.lexer.rereadRegexp c.slashLead = (.ok token, lexer))
    (rest : (c.reread token lexer).Reaches Plain behind)
    (shorter : behind.ahead < (c.reread token lexer).ahead) : c.Reaches Plain behind := by
  obtain rfl | ⟨_, _, -, read, rest⟩ | ⟨_, _, _, _, slash', -⟩ := rest.first
  · exact absurd shorter (Nat.lt_irrefl _)
  · exact .reread slash again read rest
  · obtain ⟨pattern, flags, kind⟩ := kind_reread again
    simp [AtSlash, Token.isOperator, kind] at slash'

end Cursor

/-! ## The two runs -/

/-- Two runs of the grammar. -/
structure Sides where
  first : Options
  second : Options
  /-- Both runs give trees spans, or none does. -/
  spans : second.positions = first.positions
  /-- The first run is at least as strict. -/
  stricter : second.strict = true → first.strict = true
  /-- Whether a token may be consumed. -/
  Plain : Token → Prop
  /-- The tokens of code may. -/
  code : ∀ token, token.isEof = false → (∀ text, token.kind ≠ .html text) →
    (∀ marker, token.kind ≠ .marker marker) → Plain token
  /-- A condition on the expressions that are read. -/
  Good : Part → Prop
  others : ∀ part, (∀ e, part ≠ .expr e) → Good part
  missing : Good (.expr (.atom none .undefined))
  /-- An invariant of the cursors of the first run. -/
  Stands : Cursor → Prop
  stands_advance : ∀ {c token lexer}, Stands c → c.lexer.next = (.ok token, lexer) →
    Stands (behindToken c token lexer)
  stands_reread : ∀ {c token lexer}, Stands c → c.AtSlash →
    c.lexer.rereadRegexp c.slashLead = (.ok token, lexer) → Stands (c.reread token lexer)
  /-- The cursors of the two runs stand beside each other. -/
  Beside : Cursor → Cursor → Prop
  /-- The first run may have read the parts up to the cursor. -/
  Admits : List Part → Cursor → Prop
  admits : ∀ {parts more c behind}, c.Reaches Plain behind → parts ⊆ more → Admits more behind →
    Admits parts c
  /-- Names do not matter. -/
  names : ∀ {names parts c}, (∀ part ∈ names, ∃ span name, part = .expr (.name span name)) →
    Admits parts c → Admits (names ++ parts) c
  places : ∀ {c d}, Beside c d → first.positions = true →
    d.token.span.start = c.token.span.start ∧ d.stop = c.stop
  /-- The tokens are alike, or the second text has ended and the first run may not go on. -/
  alike : ∀ {c d}, Beside c d →
    d.token.kind = c.token.kind ∧ d.token.afterBreak = c.token.afterBreak ∨
    d.token.kind = .eof ∧ ∀ parts behind, c.Reaches Plain behind → behind.ahead < c.ahead →
      ¬ Admits parts behind
  advance : ∀ {c d behind token lexer parts}, Beside c d → Plain c.token →
    c.lexer.next = (.ok token, lexer) → (behindToken c token lexer).Reaches Plain behind →
    Admits parts behind →
    ∃ token' lexer', d.lexer.next = (.ok token', lexer') ∧
      Beside (behindToken c token lexer) (behindToken d token' lexer')
  reread : ∀ {c d behind token lexer parts}, Beside c d → c.AtSlash → d.slashLead = c.slashLead →
    c.lexer.rereadRegexp c.slashLead = (.ok token, lexer) →
    (c.reread token lexer).Reaches Plain behind → Admits parts behind →
    ∃ token' lexer', d.lexer.rereadRegexp c.slashLead = (.ok token', lexer') ∧
      Beside (c.reread token lexer) (d.reread token' lexer')
  /-- A line break stands behind the keyword that begins at the position. -/
  Broken : Position → Prop
  broken : ∀ {c token lexer keyword}, Stands c → c.token.kind = .keyword keyword →
    c.lexer.next = (.ok token, lexer) → token.afterBreak = true → Broken c.token.span.start
  /-- Where only the first run is strict, no line break stands behind the keyword of a jump that names
  what it jumps with. -/
  jumps : second.strict ≠ first.strict → first.positions = true ∧
    ∀ {parts c part span}, Admits parts c → part ∈ parts → part.jumpSpan? = some span →
      ¬ Broken span.start

namespace Sides

variable (S : Sides)

/-- The two runs are at the same cursor, and any token may be consumed. -/
structure Whole : Prop where
  same : ∀ {c d}, S.Beside c d → d = c
  plain : ∀ token, S.Plain token

/-- When the run of the one rule gives a result, so does the run of the other, as far as the first may
go on: the same result, and the cursors stand beside each other again. The parts of the tree that the
first run reads on the way, its result and the cursor behind it are as described. A rule may stall: then
the second run follows when the first goes on to consume the token that it stopped before. -/
def FollowsOn (stalls : α → Cursor → Prop) (c d : Cursor) (p q : Parser α)
    (post : List Part → α → Cursor → Prop) : Prop :=
  ∀ a behind, S.Stands c → p S.first c = .ok (a, behind) →
    S.Stands behind ∧ c.Reaches S.Plain behind ∧ ∃ parts, post parts a behind ∧
      (S.Beside c d → ∀ final, behind.Reaches S.Plain final →
        (stalls a behind → final.ahead < behind.ahead) → S.Admits parts final →
        ∃ behind', q S.second d = .ok (a, behind') ∧ S.Beside behind behind')

/-- The same of a rule that does not stall. -/
abbrev Follows (c d : Cursor) (p q : Parser α) (post : List Part → α → Cursor → Prop) : Prop :=
  S.FollowsOn (fun _ _ => False) c d p q post

/-- What is known of a tree that was read: its parts, among them those that were read on the way, meet
the condition. -/
def Holds (parts : α → List Part) (read : List Part) (a : α) : Prop :=
  read ⊆ parts a ∧ Everywhere S.Good (parts a)

/-- What a rule that consumes a token leaves behind. -/
def Read (parts : α → List Part) (c : Cursor) (read : List Part) (a : α) (behind : Cursor) : Prop :=
  S.Holds parts read a ∧ behind.ahead < c.ahead

end Sides

/-- Nothing is read of a result without parts. -/
theorem holds_nothing {S : Sides} (a : α) : S.Holds (fun _ => []) [] a :=
  ⟨List.Subset.refl _, fun _ none_ => nomatch none_⟩

section Laws

variable {S : Sides} {c d : Cursor} {p q : Parser α} {f g : α → Parser β}
  {post post' : List Part → α → Cursor → Prop} {goal : List Part → β → Cursor → Prop}
  {stops : α → Cursor → Prop} {stalls : β → Cursor → Prop}

/-- What two rules behind each other gave, each gave. -/
theorem run_bind {o : Options} {b : β} {later : Cursor} (ran : (p >>= f) o c = .ok (b, later)) :
    ∃ a behind, p o c = .ok (a, behind) ∧ f a o behind = .ok (b, later) := by
  change (p o c >>= fun read => f read.1 o read.2) = _ at ran
  cases ranFirst : p o c with
  | error failure =>
    rw [ranFirst] at ran
    cases ran
  | ok outcome =>
    rw [ranFirst] at ran
    exact ⟨outcome.1, outcome.2, rfl, ran⟩

/-- Behind a rule that gave a result. -/
theorem run_behind {o : Options} {a : α} {behind : Cursor} (ran : p o c = .ok (a, behind)) :
    (p >>= f) o c = f a o behind := by
  show (p o c >>= fun read => f read.1 o read.2) = _
  rw [ran]
  rfl

theorem run_of_ends {o : Options} {a : α} {behind : Cursor}
    (ends : Ends p o c (fun result later => result = a ∧ later = behind) fun _ => False) :
    p o c = .ok (a, behind) := by
  unfold Ends at ends
  cases ran : p o c with
  | error failure =>
    rw [ran] at ends
    exact ends.elim
  | ok outcome =>
    rw [ran] at ends
    obtain ⟨rfl, rfl⟩ := ends
    rfl

theorem ends_of_run {o : Options} {a : α} {behind : Cursor} {g : α → Cursor → Prop}
    {bad : Failure → Prop} (ran : p o c = .ok (a, behind)) (ends : Ends p o c g bad) :
    g a behind := by
  unfold Ends at ends
  rwa [ran] at ends

/-- Weaker conditions, and more parts. -/
theorem Sides.FollowsOn.weaken (follows : S.FollowsOn stops c d p q post)
    (weaker : ∀ parts a behind, post parts a behind →
      ∃ more, parts ⊆ more ∧ post' more a behind) : S.FollowsOn stops c d p q post' := by
  intro a behind stands ran
  obtain ⟨stands, reaches, parts, known, second⟩ := follows a behind stands ran
  obtain ⟨more, subset, known⟩ := weaker parts a behind known
  exact ⟨stands, reaches, more, known, fun beside final onward goes admits =>
    second beside final onward goes (S.admits (.refl final) subset admits)⟩

theorem Sides.FollowsOn.mono (follows : S.FollowsOn stops c d p q post)
    (weaker : ∀ parts a behind, post parts a behind → post' parts a behind) :
    S.FollowsOn stops c d p q post' :=
  follows.weaken fun parts _ _ known => ⟨parts, List.Subset.refl parts, weaker _ _ _ known⟩

/-- Nothing is given back. -/
theorem Sides.FollowsOn.ahead (follows : S.FollowsOn stops c d p q post) :
    S.FollowsOn stops c d p q fun parts a behind =>
      post parts a behind ∧ behind.ahead ≤ c.ahead := by
  intro a behind stands ran
  obtain ⟨stands, reaches, parts, known, second⟩ := follows a behind stands ran
  exact ⟨stands, reaches, parts, ⟨known, reaches.ahead⟩, second⟩

/-- A rule that does not stall is a case of one that may. -/
theorem Sides.FollowsOn.on (follows : S.Follows c d p q post) : S.FollowsOn stops c d p q post := by
  intro a behind stands ran
  obtain ⟨stands, reaches, parts, known, second⟩ := follows a behind stands ran
  exact ⟨stands, reaches, parts, known, fun beside final onward _ admits =>
    second beside final onward False.elim admits⟩

/-- The invariant may be used. -/
theorem follows_standing (follows : S.Stands c → S.FollowsOn stops c d p q post) :
    S.FollowsOn stops c d p q post :=
  fun a behind stands ran => follows stands a behind stands ran

/-- Rules behind each other. The second premise is used at the cursor that the second run comes to, if
it comes to one. A first rule that stalls is followed by one that consumes the token. -/
theorem Sides.FollowsOn.bindOn (first : S.FollowsOn stops c d p q post)
    (second : ∀ parts a behind behind', post parts a behind → behind.ahead ≤ c.ahead →
      S.FollowsOn stalls behind behind' (f a) (g a) fun more b later =>
        goal (parts ++ more) b later ∧ (stops a behind → later.ahead < behind.ahead)) :
    S.FollowsOn stalls c d (p >>= f) (q >>= g) goal := by
  intro b later stands ran
  obtain ⟨a, behind, ranFirst, ranSecond⟩ := run_bind ran
  obtain ⟨stands, reaches, parts, known, mirrored⟩ := first a behind stands ranFirst
  by_cases comes : ∃ behind', q S.second d = .ok (a, behind') ∧ S.Beside behind behind'
  · obtain ⟨behind', same, beside⟩ := comes
    obtain ⟨stands, reaches', more, known, mirrored'⟩ :=
      second parts a behind behind' known reaches.ahead b later stands ranSecond
    refine ⟨stands, reaches.trans reaches', parts ++ more, known.1,
      fun _ final onward goes admits => ?_⟩
    obtain ⟨later', same', beside'⟩ := mirrored' beside final onward goes
      (S.admits (.refl final) (List.subset_append_right parts more) admits)
    refine ⟨later', ?_, beside'⟩
    show (q S.second d >>= fun read => g read.1 S.second read.2) = _
    rw [same]
    exact same'
  · obtain ⟨stands, reaches', more, known, -⟩ :=
      second parts a behind d known reaches.ahead b later stands ranSecond
    exact ⟨stands, reaches.trans reaches', parts ++ more, known.1, fun beside final onward _ admits =>
      absurd (mirrored beside final (reaches'.trans onward)
        (fun stopped => Nat.lt_of_le_of_lt onward.ahead (known.2 stopped))
        (S.admits (.refl final) (List.subset_append_left parts more) admits)) comes⟩

theorem Sides.FollowsOn.bind (first : S.Follows c d p q post)
    (second : ∀ parts a behind behind', post parts a behind → behind.ahead ≤ c.ahead →
      S.FollowsOn stalls behind behind' (f a) (g a) fun more b later =>
        goal (parts ++ more) b later) :
    S.FollowsOn stalls c d (p >>= f) (q >>= g) goal :=
  first.bindOn fun parts a behind behind' known shorter =>
    (second parts a behind behind' known shorter).mono fun _ _ _ known => ⟨known, False.elim⟩

/-- A rule behind one that consumes a token. -/
theorem Sides.FollowsOn.then {parts : α → List Part} (first : S.Follows c d p q (S.Read parts c))
    (second : ∀ a behind behind', Everywhere S.Good (parts a) → behind.ahead < c.ahead →
      S.FollowsOn stalls behind behind' (f a) (g a) fun more b later =>
        goal (parts a ++ more) b later) :
    S.FollowsOn stalls c d (p >>= f) (q >>= g) fun read b later =>
      goal read b later ∧ later.ahead < c.ahead := by
  have whole : S.Follows c d p q fun read a behind =>
      read = parts a ∧ Everywhere S.Good (parts a) ∧ behind.ahead < c.ahead :=
    first.weaken fun read a behind known => ⟨parts a, known.1.1, rfl, known.1.2, known.2⟩
  refine whole.bind fun read a behind behind' known _ => ?_
  obtain ⟨rfl, good, shorter⟩ := known
  exact (second a behind behind' good shorter).ahead.mono fun more b later known =>
    ⟨known.1, Nat.lt_of_le_of_lt known.2 shorter⟩

theorem Sides.FollowsOn.next {parts : α → List Part} (first : S.Follows c d p q (S.Read parts c))
    (second : ∀ a behind behind', Everywhere S.Good (parts a) → behind.ahead < c.ahead →
      S.FollowsOn stalls behind behind' (f a) (g a) fun more b later =>
        goal (parts a ++ more) b later) :
    S.FollowsOn stalls c d (p >>= f) (q >>= g) goal :=
  (first.then second).mono fun _ _ _ known => known.1

/-- A rule behind one that reads trees. -/
theorem Sides.FollowsOn.onward {parts : α → List Part}
    (first : S.Follows c d p q fun read a _ => S.Holds parts read a)
    (second : ∀ a behind behind', Everywhere S.Good (parts a) → behind.ahead ≤ c.ahead →
      S.FollowsOn stalls behind behind' (f a) (g a) fun more b later =>
        goal (parts a ++ more) b later) :
    S.FollowsOn stalls c d (p >>= f) (q >>= g) goal := by
  have whole : S.Follows c d p q fun read a _ => read = parts a ∧ Everywhere S.Good (parts a) :=
    first.weaken fun read a behind known => ⟨parts a, known.1, rfl, known.2⟩
  refine whole.bind fun read a behind behind' known shorter => ?_
  obtain ⟨rfl, good⟩ := known
  exact second a behind behind' good shorter

/-- That a token is consumed may be said twice. -/
theorem Sides.FollowsOn.consumes
    (first : S.FollowsOn stops c d p q fun read a behind =>
      post read a behind ∧ behind.ahead < c.ahead) :
    S.FollowsOn stops c d p q fun read a behind =>
      (post read a behind ∧ behind.ahead < c.ahead) ∧ behind.ahead < c.ahead :=
  first.mono fun _ _ _ known => ⟨known, known.2⟩

/-- A rule behind one that builds a tree around another. -/
theorem Sides.FollowsOn.around {parts : α → List Part} {inner : List Part}
    (first : S.Follows c d p q fun read a _ => inner ⊆ parts a ∧ S.Holds parts read a)
    (second : ∀ a behind behind', inner ⊆ parts a → Everywhere S.Good (parts a) →
      behind.ahead ≤ c.ahead →
      S.FollowsOn stalls behind behind' (f a) (g a) fun more b later =>
        goal (parts a ++ more) b later) :
    S.FollowsOn stalls c d (p >>= f) (q >>= g) goal := by
  have whole : S.Follows c d p q fun read a _ =>
      read = parts a ∧ inner ⊆ parts a ∧ Everywhere S.Good (parts a) :=
    first.weaken fun read a behind known => ⟨parts a, known.2.1, rfl, known.1, known.2.2⟩
  refine whole.bind fun read a behind behind' known shorter => ?_
  obtain ⟨rfl, kept, good⟩ := known
  exact second a behind behind' kept good shorter

/-- A rule that gives a result at once. The parts may be chosen. -/
theorem follows_pure {a : α} (parts : List Part) (known : post parts a c) :
    S.FollowsOn stops c d (pure a) (pure a) post := by
  intro _ _ stands ran
  cases ran
  exact ⟨stands, .refl c, parts, known, fun beside _ _ _ _ => ⟨d, rfl, beside⟩⟩

/-- A first run that fails. -/
theorem follows_fails (failure : Failure) (fails : p S.first c = .error failure) :
    S.FollowsOn stops c d p q post := by
  intro a behind _ ran
  rw [fails] at ran
  cases ran

/-- A first run that gives no result. -/
theorem follows_never (never : ∀ a behind, p S.first c ≠ .ok (a, behind)) :
    S.FollowsOn stops c d p q post :=
  fun a behind _ ran => absurd ran (never a behind)

theorem follows_unexpected : S.FollowsOn stops c d (unexpected : Parser α) q post :=
  follows_fails _ rfl

/-! ## Looking -/

/-- Both runs look, and go on by what they see. -/
theorem follows_of_looks {look look' : Parser α} {f g : α → Parser β} {a a' : α}
    (looks : look S.first c = .ok (a, c)) (looks' : look' S.second d = .ok (a', d))
    (next : S.FollowsOn stalls c d (f a) (g a') goal) : S.FollowsOn stalls c d (look >>= f) (look' >>= g) goal := by
  intro b behind stands ran
  rw [run_behind looks] at ran
  obtain ⟨stands, reaches, parts, known, second⟩ := next b behind stands ran
  refine ⟨stands, reaches, parts, known, fun beside final onward goes admits => ?_⟩
  rw [run_behind looks']
  exact second beside final onward goes admits

theorem follows_read {f g : Options → Parser β}
    (next : S.FollowsOn stalls c d (f S.first) (g S.second) goal) :
    S.FollowsOn stalls c d (read >>= f) (read >>= g) goal := follows_of_looks rfl rfl next

/-- Both runs look at their tokens, and the run consumes the token. -/
theorem follows_current {f g : Token → Parser β}
    (next : ∀ token, token.kind = c.token.kind → token.afterBreak = c.token.afterBreak →
      S.FollowsOn stalls c d (f c.token) (g token) fun read b behind =>
        goal read b behind ∧ behind.ahead < c.ahead) :
    S.FollowsOn stalls c d (current >>= f) (current >>= g) goal := by
  by_cases alike : d.token.kind = c.token.kind ∧ d.token.afterBreak = c.token.afterBreak
  · exact follows_of_looks rfl rfl ((next d.token alike.1 alike.2).mono fun _ _ _ known => known.1)
  · -- the second text has ended, so what the first run consumes is not admitted
    intro b behind stands ran
    obtain ⟨stands, reaches, parts, known, -⟩ := next c.token rfl rfl b behind stands ran
    refine ⟨stands, reaches, parts, known.1, fun beside final onward goes admits => ?_⟩
    obtain same | ⟨-, ended⟩ := S.alike beside
    · exact absurd same alike
    · exact absurd admits (ended parts final (reaches.trans onward)
        (Nat.lt_of_le_of_lt onward.ahead known.2))

/-- Both runs look at their tokens, and the end of the text is answered too. -/
theorem follows_current_end {f g : Token → Parser β}
    (next : ∀ token, token.kind = c.token.kind → token.afterBreak = c.token.afterBreak →
      S.FollowsOn stalls c d (f c.token) (g token) goal)
    (ended : ∀ token, token.kind = .eof → S.FollowsOn stalls c d (f c.token) (g token) goal) :
    S.FollowsOn stalls c d (current >>= f) (current >>= g) goal := by
  by_cases alike : d.token.kind = c.token.kind ∧ d.token.afterBreak = c.token.afterBreak
  · exact follows_of_looks rfl rfl (next d.token alike.1 alike.2)
  · by_cases last : d.token.kind = .eof
    · exact follows_of_looks rfl rfl (ended d.token last)
    · -- the cursors are not beside each other, and only the first run matters
      intro b behind stands ran
      obtain ⟨stands, reaches, parts, known, -⟩ := next c.token rfl rfl b behind stands ran
      refine ⟨stands, reaches, parts, known, fun beside _ _ _ _ => ?_⟩
      obtain same | ⟨eof, -⟩ := S.alike beside
      · exact absurd same alike
      · exact absurd eof last

theorem follows_kind {f g : TokenKind → Parser β}
    (next : S.FollowsOn stalls c d (f c.token.kind) (g c.token.kind) fun read b behind =>
      goal read b behind ∧ behind.ahead < c.ahead) :
    S.FollowsOn stalls c d (currentKind >>= f) (currentKind >>= g) goal :=
  follows_current (f := fun token => f token.kind) (g := fun token => g token.kind)
    fun token kind _ => by rwa [kind]

theorem follows_kind_end {f g : TokenKind → Parser β}
    (next : S.FollowsOn stalls c d (f c.token.kind) (g c.token.kind) goal)
    (ended : S.FollowsOn stalls c d (f c.token.kind) (g .eof) goal) :
    S.FollowsOn stalls c d (currentKind >>= f) (currentKind >>= g) goal :=
  follows_current_end (f := fun token => f token.kind) (g := fun token => g token.kind)
    (fun token kind _ => by rwa [kind]) fun token kind => by rwa [kind]

/-- Both runs ask whether their token is of a kind that the end of the text is not. -/
theorem follows_asks (asks : Token → Bool) {look : Parser Bool} {f g : Bool → Parser β}
    (looks : ∀ o (c : Cursor), look o c = .ok (asks c.token, c))
    (congr : ∀ token token' : Token, token.kind = token'.kind → asks token = asks token')
    (last : ∀ token : Token, token.kind = .eof → asks token = false)
    (yes : asks c.token = true → S.FollowsOn stalls c d (f true) (g true) fun read b behind =>
      goal read b behind ∧ behind.ahead < c.ahead)
    (no : asks c.token = false → S.FollowsOn stalls c d (f false) (g false) goal) :
    S.FollowsOn stalls c d (look >>= f) (look >>= g) goal := by
  have asked : look = current >>= fun token => pure (asks token) := by
    funext o c
    exact looks o c
  subst asked
  cases seen : asks c.token with
  | true =>
    refine follows_current (f := fun token => f (asks token)) (g := fun token => g (asks token))
      fun token kind _ => ?_
    rw [congr token c.token kind, seen]
    exact yes seen
  | false =>
    refine follows_current_end (f := fun token => f (asks token)) (g := fun token => g (asks token))
      (fun token kind _ => ?_) fun token kind => ?_
    · rw [congr token c.token kind, seen]
      exact no seen
    · rw [last token kind, seen]
      exact no seen

/-- Two tokens of one kind are asked for punctuation, operators, keywords and markers alike. -/
theorem isPunctuation_congr {token token' : Token} (kind : token.kind = token'.kind) (char : Char) :
    token.isPunctuation char = token'.isPunctuation char := by
  unfold Token.isPunctuation
  rw [kind]

theorem isOperator_congr {token token' : Token} (kind : token.kind = token'.kind)
    (spelling : String) : token.isOperator spelling = token'.isOperator spelling := by
  unfold Token.isOperator
  rw [kind]

theorem isKeyword_congr {token token' : Token} (kind : token.kind = token'.kind)
    (keyword : Keyword) : token.isKeyword keyword = token'.isKeyword keyword := by
  unfold Token.isKeyword
  rw [kind]

theorem isEof_congr {token token' : Token} (kind : token.kind = token'.kind) :
    token.isEof = token'.isEof := by
  unfold Token.isEof
  rw [kind]

theorem kind_of_isEof {token : Token} (ended : token.isEof = true) : token.kind = .eof := by
  unfold Token.isEof at ended
  split at ended
  · assumption
  · cases ended

section

variable {f g : Bool → Parser β}

theorem follows_atPunctuation {char : Char}
    (yes : c.token.isPunctuation char = true → S.FollowsOn stalls c d (f true) (g true) fun read b behind =>
      goal read b behind ∧ behind.ahead < c.ahead)
    (no : c.token.isPunctuation char = false → S.FollowsOn stalls c d (f false) (g false) goal) :
    S.FollowsOn stalls c d (atPunctuation char >>= f) (atPunctuation char >>= g) goal :=
  follows_asks (·.isPunctuation char) (fun _ _ => rfl)
    (fun _ _ kind => isPunctuation_congr kind char)
    (fun token kind => by simp [Token.isPunctuation, kind]) yes no

theorem follows_atOperator {spelling : String}
    (yes : c.token.isOperator spelling = true → S.FollowsOn stalls c d (f true) (g true) fun read b behind =>
      goal read b behind ∧ behind.ahead < c.ahead)
    (no : c.token.isOperator spelling = false → S.FollowsOn stalls c d (f false) (g false) goal) :
    S.FollowsOn stalls c d (atOperator spelling >>= f) (atOperator spelling >>= g) goal :=
  follows_asks (·.isOperator spelling) (fun _ _ => rfl)
    (fun _ _ kind => isOperator_congr kind spelling)
    (fun token kind => by simp [Token.isOperator, kind]) yes no

theorem follows_atKeyword {keyword : Keyword}
    (yes : c.token.isKeyword keyword = true → S.FollowsOn stalls c d (f true) (g true) fun read b behind =>
      goal read b behind ∧ behind.ahead < c.ahead)
    (no : c.token.isKeyword keyword = false → S.FollowsOn stalls c d (f false) (g false) goal) :
    S.FollowsOn stalls c d (atKeyword keyword >>= f) (atKeyword keyword >>= g) goal :=
  follows_asks (·.isKeyword keyword) (fun _ _ => rfl)
    (fun _ _ kind => isKeyword_congr kind keyword)
    (fun token kind => by simp [Token.isKeyword, kind]) yes no

end

/-- A look that leaves the token to what comes behind, which consumes it. -/
theorem follows_leaves {char : Char} {f g : Bool → Parser β} {b : β}
    (here : c.token.isPunctuation char = true) (first : f true = pure b) (second : g true = pure b)
    (left : stalls b c) (known : goal [] b c) :
    S.FollowsOn stalls c d (atPunctuation char >>= f) (atPunctuation char >>= g) goal := by
  have looks (o : Options) (c : Cursor) :
      atPunctuation char o c = .ok (c.token.isPunctuation char, c) := rfl
  intro a behind stands ran
  rw [run_behind (looks _ _), here, first] at ran
  cases ran
  refine ⟨stands, .refl c, [], known, fun beside final onward goes admits => ?_⟩
  obtain ⟨kind, -⟩ | ⟨-, ended⟩ := S.alike beside
  · refine ⟨d, ?_, beside⟩
    rw [run_behind (looks _ _), isPunctuation_congr kind, here, second]
    rfl
  · exact absurd admits (ended [] final onward (goes left))

/-- Both runs take note of where a tree begins. -/
theorem follows_startOfToken {f g : Position → Parser β}
    (next : ∀ start, (S.first.positions = true → start = c.token.span.start) →
      S.FollowsOn stalls c d (f c.token.span.start) (g start) goal) :
    S.FollowsOn stalls c d (startOfToken >>= f) (startOfToken >>= g) goal := by
  by_cases placed : S.first.positions = true → d.token.span.start = c.token.span.start
  · exact follows_of_looks rfl rfl (next d.token.span.start placed)
  · intro b behind stands ran
    obtain ⟨stands, reaches, parts, known, -⟩ :=
      next c.token.span.start (fun _ => rfl) b behind stands ran
    exact ⟨stands, reaches, parts, known,
      fun beside _ _ _ _ => absurd (fun positions => (S.places beside positions).1) placed⟩

theorem run_spanFrom (o : Options) (c : Cursor) (start : Position) :
    spanFrom start o c = .ok (spanAt o c start, c) := by
  unfold spanAt
  show (if o.positions then _ else _ : Parser (Option Span)) o c = _
  cases o.positions <;> rfl

/-- Both runs give a tree its span. -/
theorem follows_spanFrom {start start' : Position}
    (placed : S.first.positions = true → start' = start) {f g : Option Span → Parser β}
    (next : S.FollowsOn stalls c d (f (spanAt S.first c start)) (g (spanAt S.first c start)) goal) :
    S.FollowsOn stalls c d (spanFrom start >>= f) (spanFrom start' >>= g) goal := by
  by_cases same : spanAt S.second d start' = spanAt S.first c start
  · exact follows_of_looks (run_spanFrom _ _ _) (run_spanFrom _ _ _) (same ▸ next)
  · intro b behind stands ran
    rw [run_behind (run_spanFrom _ _ _)] at ran
    obtain ⟨stands, reaches, parts, known, -⟩ := next b behind stands ran
    refine ⟨stands, reaches, parts, known, fun beside _ _ _ _ => absurd ?_ same⟩
    unfold spanAt
    rw [S.spans]
    split_ifs with positions
    · rw [placed positions, (S.places beside positions).2]
    · rfl

/-! ## Consuming -/

/-- What is behind a token, where the next one can be read. -/
theorem run_advance {o : Options} {token : Token} {lexer : Lexer}
    (read : c.lexer.next = (.ok token, lexer)) :
    Parser.advance o c = .ok ((), behindToken c token lexer) := by
  refine run_of_ends (ends_advance.2 ?_)
  rw [read]
  exact ⟨rfl, rfl⟩

theorem advance_ok {o : Options} {a : Unit} {behind : Cursor}
    (ran : Parser.advance o c = .ok (a, behind)) :
    ∃ token lexer, c.lexer.next = (.ok token, lexer) ∧ behind = behindToken c token lexer := by
  have both : Ends Parser.advance o c (fun _ behind =>
      ∃ token lexer, c.lexer.next = (.ok token, lexer) ∧ behind = behindToken c token lexer)
      fun _ => True := by
    rw [ends_advance]
    rcases c.lexer.next with ⟨error | token, lexer⟩
    · trivial
    · exact ⟨token, lexer, rfl, rfl⟩
  exact ends_of_run ran both

/-- Both runs consume a token. -/
theorem follows_advance (plain : S.Plain c.token) {f g : Unit → Parser β}
    (next : ∀ token lexer behind', c.lexer.next = (.ok token, lexer) →
      S.FollowsOn stalls (behindToken c token lexer) behind' (f ()) (g ()) goal) :
    S.FollowsOn stalls c d (Parser.advance >>= f) (Parser.advance >>= g) goal := by
  intro b later stands ran
  obtain ⟨_, _, advanced, ran⟩ := run_bind ran
  obtain ⟨token, lexer, read, rfl⟩ := advance_ok advanced
  have stands' := S.stands_advance stands read
  by_cases comes : ∃ token' lexer', d.lexer.next = (.ok token', lexer') ∧
      S.Beside (behindToken c token lexer) (behindToken d token' lexer')
  · obtain ⟨token', lexer', read', beside⟩ := comes
    obtain ⟨stands, reaches, parts, known, second⟩ := next token lexer _ read b later stands' ran
    refine ⟨stands, .advance plain read reaches, parts, known,
      fun _ final onward goes admits => ?_⟩
    rw [run_behind (run_advance read')]
    exact second beside final onward goes admits
  · obtain ⟨stands, reaches, parts, known, -⟩ := next token lexer d read b later stands' ran
    exact ⟨stands, .advance plain read reaches, parts, known,
      fun beside _ onward _ admits =>
        absurd (S.advance beside plain read (reaches.trans onward) admits) comes⟩

/-- Both runs consume a token that is not the end of the text. -/
theorem follows_take (plain : S.Plain c.token) (going : c.token.isEof = false)
    {f g : Unit → Parser β}
    (next : ∀ behind behind', behind.ahead < c.ahead → S.FollowsOn stalls behind behind' (f ()) (g ()) goal) :
    S.FollowsOn stalls c d (Parser.advance >>= f) (Parser.advance >>= g) fun read b behind =>
      goal read b behind ∧ behind.ahead < c.ahead := by
  refine follows_advance plain fun token lexer behind' read => ?_
  have shorter := (Cursor.leads_behindToken read).2 going
  exact (next _ behind' shorter).ahead.mono fun _ _ _ known =>
    ⟨known.1, Nat.lt_of_le_of_lt known.2 shorter⟩

/-- Tokens of code may be consumed. -/
theorem plain_of_kind {kind : TokenKind} (here : c.token.kind = kind) (going : kind ≠ .eof)
    (html : ∀ text, kind ≠ .html text) (marker : ∀ marker, kind ≠ .marker marker) :
    S.Plain c.token :=
  S.code _ (going_of_kind here going) (by simpa [here] using html) (by simpa [here] using marker)

theorem plain_of_punctuation {char : Char} (here : c.token.isPunctuation char = true) :
    S.Plain c.token :=
  plain_of_kind (kind_of_punctuation here) (by simp) (by simp) (by simp)

theorem plain_of_operator {spelling : String} (here : c.token.isOperator spelling = true) :
    S.Plain c.token :=
  plain_of_kind (kind_of_operator here) (by simp) (by simp) (by simp)

theorem plain_of_keyword {keyword : Keyword} (here : c.token.isKeyword keyword = true) :
    S.Plain c.token :=
  plain_of_kind (kind_of_keyword here) (by simp) (by simp) (by simp)

/-- Taking punctuation that the token was seen to be. -/
theorem follows_takePunctuation {char : Char} (here : c.token.isPunctuation char = true)
    {f g : Unit → Parser β}
    (next : ∀ behind behind', behind.ahead < c.ahead →
      S.FollowsOn stalls behind behind' (f ()) (g ()) goal) :
    S.FollowsOn stalls c d (Parser.advance >>= f) (Parser.advance >>= g) fun read b behind =>
      goal read b behind ∧ behind.ahead < c.ahead :=
  follows_take (plain_of_punctuation here) (going_of_punctuation here) next

theorem follows_takeOnly (plain : S.Plain c.token) (going : c.token.isEof = false) :
    S.Follows c d Parser.advance Parser.advance (S.Read (fun _ => []) c) := by
  rw [← bind_pure Parser.advance]
  exact follows_take plain going fun _ _ _ => follows_pure [] (holds_nothing _)

/-- A rule that consumes a token for its result. -/
theorem follows_takes (plain : S.Plain c.token) (going : c.token.isEof = false) (a : α) :
    S.Follows c d (do Parser.advance; return a) (do Parser.advance; return a)
      (S.Read (fun _ => []) c) :=
  follows_take plain going fun _ _ _ => follows_pure [] (holds_nothing _)

theorem follows_expectPunctuation (char : Char) :
    S.Follows c d (expectPunctuation char) (expectPunctuation char) (S.Read (fun _ => []) c) := by
  unfold expectPunctuation
  refine follows_current fun token kind _ => ?_
  rw [isPunctuation_congr kind]
  split_ifs with here
  · exact (follows_takeOnly (plain_of_punctuation here) (going_of_punctuation here)).consumes
  · exact follows_fails _ rfl

theorem follows_plainName :
    S.Follows c d plainName plainName (S.Read (fun _ => []) c) := by
  unfold plainName
  refine follows_kind (Sides.FollowsOn.consumes ?_)
  split
  · next kind =>
    exact follows_takes (plain_of_kind kind (by simp) (by simp) (by simp))
      (going_of_kind kind (by simp)) _
  · exact follows_unexpected

theorem follows_anyName : S.Follows c d anyName anyName (S.Read (fun _ => []) c) := by
  have takes {kind : TokenKind} {name : String} (here : c.token.kind = kind) (going : kind ≠ .eof)
      (html : ∀ text, kind ≠ .html text) (marker : ∀ marker, kind ≠ .marker marker) :
      S.Follows c d (do Parser.advance; return name) (do Parser.advance; return name)
        (S.Read (fun _ => []) c) :=
    follows_takes (plain_of_kind here going html marker) (going_of_kind here going) name
  unfold anyName
  refine follows_kind (Sides.FollowsOn.consumes ?_)
  split
  · next kind => exact takes kind (by simp) (by simp) (by simp)
  · next kind => exact takes kind (by simp) (by simp) (by simp)
  · next kind => exact takes kind (by simp) (by simp) (by simp)
  · next kind =>
    split_ifs
    · exact takes kind (by simp) (by simp) (by simp)
    · exact follows_unexpected
  · exact follows_unexpected

theorem follows_propertyKey :
    S.Follows c d propertyKey propertyKey (S.Read (fun _ => []) c) := by
  unfold propertyKey
  refine follows_kind (Sides.FollowsOn.consumes ?_)
  split
  · next kind =>
    exact follows_takes (plain_of_kind kind (by simp) (by simp) (by simp))
      (going_of_kind kind (by simp)) _
  · next kind =>
    exact follows_takes (plain_of_kind kind (by simp) (by simp) (by simp))
      (going_of_kind kind (by simp)) _
  · exact follows_anyName

/-! ## Looking ahead, and reading again -/

/-- What is behind the current token, where it can be read. -/
theorem run_following {o : Options} {token : Token} {lexer : Lexer}
    (read : c.lexer.next = (.ok token, lexer)) : following o c = .ok (token, c) := by
  refine run_of_ends (ends_following.2 ?_)
  rw [read]
  exact ⟨rfl, rfl⟩

theorem following_ok {o : Options} {token : Token} {behind : Cursor}
    (ran : following o c = .ok (token, behind)) :
    (∃ lexer, c.lexer.next = (.ok token, lexer)) ∧ c = behind := by
  have both : Ends following o c (fun token behind =>
      (∃ lexer, c.lexer.next = (.ok token, lexer)) ∧ c = behind) fun _ => True := by
    rw [ends_following]
    rcases c.lexer.next with ⟨error | token, lexer⟩
    · trivial
    · exact ⟨⟨lexer, rfl⟩, rfl⟩
  exact ends_of_run ran both

/-- Beyond a token that is no slash a run comes by consuming it. -/
theorem Cursor.Reaches.behind {Plain : Token → Prop} {c later : Cursor} {token : Token} {lexer : Lexer}
    (reaches : c.Reaches Plain later) (other : ¬ c.AtSlash) (shorter : later.ahead < c.ahead)
    (read : c.lexer.next = (.ok token, lexer)) : (behindToken c token lexer).Reaches Plain later := by
  cases reaches with
  | refl => exact absurd shorter (Nat.lt_irrefl _)
  | advance _ read' rest =>
    rw [read] at read'
    cases read'
    exact rest
  | reread slash => exact absurd slash other

/-- Both runs look at the token behind the current one, and consume it if it is the punctuation. -/
theorem follows_nextPunctuation {char : Char} (plain : S.Plain c.token) (other : ¬ c.AtSlash)
    {p q p' q' : Parser β}
    (yes : ∀ token lexer behind', c.lexer.next = (.ok token, lexer) →
      token.isPunctuation char = true →
      S.FollowsOn stalls (behindToken c token lexer) behind' p q fun read b behind =>
        goal read b behind ∧ behind.ahead < (behindToken c token lexer).ahead)
    (no : S.FollowsOn stalls c d p' q' fun read b behind =>
      goal read b behind ∧ behind.ahead < c.ahead) :
    S.FollowsOn stalls c d
      (do if (← following).isPunctuation char then do advance; p else p')
      (do if (← following).isPunctuation char then do advance; q else q') goal := by
  intro b later stands ran
  obtain ⟨token, _, looked, ran⟩ := run_bind ran
  obtain ⟨⟨lexer, read⟩, rfl⟩ := following_ok looked
  by_cases comes : ∃ token' lexer', d.lexer.next = (.ok token', lexer') ∧
      S.Beside (behindToken c token lexer) (behindToken d token' lexer')
  · obtain ⟨token', lexer', read', beside'⟩ := comes
    have same : token.isPunctuation char = false → token'.isPunctuation char = false := fun here => by
      obtain ⟨kind, -⟩ | ⟨kind, -⟩ := S.alike beside'
      · exact (isPunctuation_congr kind char).trans here
      · change token'.kind = .eof at kind
        simp [Token.isPunctuation, kind]
    cases here : token.isPunctuation char with
    | true =>
      rw [here, if_pos rfl, run_behind (run_advance read)] at ran
      obtain ⟨stands', reaches, parts, known, second⟩ := yes token lexer (behindToken d token' lexer')
        read here b later (S.stands_advance stands read) ran
      refine ⟨stands', .advance plain read reaches, parts, known.1,
        fun _ final onward goes admits => ?_⟩
      rw [run_behind (run_following read')]
      obtain ⟨kind, -⟩ | ⟨-, ended⟩ := S.alike beside'
      · have here' : token'.isPunctuation char = true := (isPunctuation_congr kind char).trans here
        rw [here', if_pos rfl, run_behind (run_advance read')]
        exact second beside' final onward goes admits
      · exact absurd admits (ended parts final (reaches.trans onward)
          (Nat.lt_of_le_of_lt onward.ahead known.2))
    | false =>
      rw [here, if_neg (by simp)] at ran
      obtain ⟨stands', reaches, parts, known, second⟩ := no b later stands ran
      refine ⟨stands', reaches, parts, known.1, fun beside final onward goes admits => ?_⟩
      rw [run_behind (run_following read'), same here, if_neg (by simp)]
      exact second beside final onward goes admits
  · cases here : token.isPunctuation char with
    | true =>
      rw [here, if_pos rfl, run_behind (run_advance read)] at ran
      obtain ⟨stands', reaches, parts, known, -⟩ :=
        yes token lexer d read here b later (S.stands_advance stands read) ran
      exact ⟨stands', .advance plain read reaches, parts, known.1, fun beside _ onward _ admits =>
        absurd (S.advance beside plain read (reaches.trans onward) admits) comes⟩
    | false =>
      rw [here, if_neg (by simp)] at ran
      obtain ⟨stands', reaches, parts, known, -⟩ := no b later stands ran
      exact ⟨stands', reaches, parts, known.1, fun beside _ onward _ admits =>
        absurd (S.advance beside plain read ((reaches.behind other known.2 read).trans onward) admits)
          comes⟩

/-- Where a slash can be read again. -/
theorem run_rereadRegexp {o : Options} {token : Token} {lexer : Lexer}
    (read : c.lexer.rereadRegexp c.slashLead = (.ok token, lexer)) :
    rereadRegexp o c = .ok ((), c.reread token lexer) := by
  refine run_of_ends ?_
  unfold Cursor.slashLead at read
  unfold rereadRegexp
  rw [ends_bind, ends_get]
  dsimp only
  rw [read]
  exact ⟨rfl, rfl⟩

theorem rereadRegexp_ok {o : Options} {a : Unit} {behind : Cursor}
    (ran : rereadRegexp o c = .ok (a, behind)) :
    ∃ token lexer, c.lexer.rereadRegexp c.slashLead = (.ok token, lexer) ∧
      behind = c.reread token lexer := by
  have both : Ends rereadRegexp o c (fun _ behind =>
      ∃ token lexer, c.lexer.rereadRegexp c.slashLead = (.ok token, lexer) ∧
        behind = c.reread token lexer) fun _ => True := by
    unfold rereadRegexp Cursor.slashLead
    rw [ends_bind, ends_get]
    dsimp only
    rcases c.lexer.rereadRegexp _ with ⟨error | token, lexer⟩
    · trivial
    · exact ⟨token, lexer, rfl, rfl⟩
  exact ends_of_run ran both

/-- Both runs read a slash again, and go on. -/
theorem follows_reread {p q : Parser β} (slash : c.AtSlash)
    (next : ∀ token lexer behind', c.lexer.rereadRegexp c.slashLead = (.ok token, lexer) →
      S.FollowsOn stalls (c.reread token lexer) behind' p q fun read b behind =>
        goal read b behind ∧ behind.ahead < (c.reread token lexer).ahead) :
    S.FollowsOn stalls c d
      (do
        if (← atOperator "/") || (← atOperator "/=") then rereadRegexp
        p)
      (do
        if (← atOperator "/") || (← atOperator "/=") then rereadRegexp
        q) goal := by
  have run {o : Options} {c : Cursor} (slash : c.AtSlash) (p : Parser β) :
      (do
        if (← atOperator "/") || (← atOperator "/=") then rereadRegexp
        p : Parser β) o c = (rereadRegexp >>= fun _ => p) o c := by
    rw [run_behind (a := c.token.isOperator "/") rfl, run_behind (a := c.token.isOperator "/=") rfl,
      if_pos]
    unfold Cursor.AtSlash at slash
    simpa using slash
  intro b later stands ran
  rw [run slash] at ran
  obtain ⟨_, _, again, ran⟩ := run_bind ran
  obtain ⟨token, lexer, read, rfl⟩ := rereadRegexp_ok again
  have standing := S.stands_reread stands slash read
  by_cases comes : ∃ token' lexer', d.lexer.rereadRegexp c.slashLead = (.ok token', lexer') ∧
      S.Beside (c.reread token lexer) (d.reread token' lexer')
  · obtain ⟨token', lexer', read', beside'⟩ := comes
    obtain ⟨stands', reaches, parts, known, second⟩ := next token lexer _ read b later standing ran
    refine ⟨stands', .rereading slash read reaches known.2, parts, known.1,
      fun beside final onward goes admits => ?_⟩
    obtain ⟨kind, -⟩ | ⟨-, ended⟩ := S.alike beside
    · have slash' : d.AtSlash := by
        unfold Cursor.AtSlash at slash ⊢
        rwa [isOperator_congr kind, isOperator_congr kind]
      have lead : d.slashLead = c.slashLead := by
        unfold Cursor.slashLead
        rw [isOperator_congr kind]
      rw [run slash', run_behind (run_rereadRegexp (lead ▸ read'))]
      exact second beside' final onward goes admits
    · refine absurd admits (ended parts final
        (.rereading slash read (reaches.trans onward)
          (Nat.lt_of_le_of_lt onward.ahead known.2)) ?_)
      exact Nat.lt_of_lt_of_le (Nat.lt_of_le_of_lt onward.ahead known.2)
        (Cursor.ahead_reread slash read)
  · obtain ⟨stands', reaches, parts, known, -⟩ := next token lexer d read b later standing ran
    refine ⟨stands', .rereading slash read reaches known.2, parts, known.1,
      fun beside final onward goes admits => ?_⟩
    obtain ⟨kind, -⟩ | ⟨-, ended⟩ := S.alike beside
    · have lead : d.slashLead = c.slashLead := by
        unfold Cursor.slashLead
        rw [isOperator_congr kind]
      exact absurd (S.reread beside slash lead read (reaches.trans onward) admits) comes
    · refine absurd admits (ended parts final
        (.rereading slash read (reaches.trans onward)
          (Nat.lt_of_le_of_lt onward.ahead known.2)) ?_)
      exact Nat.lt_of_lt_of_le (Nat.lt_of_le_of_lt onward.ahead known.2)
        (Cursor.ahead_reread slash read)

/-! ## Semicolons and jumps -/

theorem looks_mayOmit (o : Options) (c : Cursor) :
    mayOmitSemicolon o c = .ok (omits o c, c) := rfl

/-- Where the first run may leave out a semicolon the second may. -/
theorem follows_mayOmit {f g : Bool → Parser β} (omitted : omits S.first c = true)
    (next : S.FollowsOn stalls c d (f true) (g true) goal) :
    S.FollowsOn stalls c d (mayOmitSemicolon >>= f) (mayOmitSemicolon >>= g) goal := by
  have lenient : S.second.strict = false := by
    cases strict : S.second.strict with
    | false => rfl
    | true => simp [omits, S.stricter strict] at omitted
  by_cases same : omits S.second d = true
  · exact follows_of_looks (looks_mayOmit _ _) (looks_mayOmit _ _) (by rwa [omitted, same])
  · intro b behind stands ran
    rw [run_behind (looks_mayOmit _ _), omitted] at ran
    obtain ⟨stands, reaches, parts, known, -⟩ := next b behind stands ran
    refine ⟨stands, reaches, parts, known, fun beside _ _ _ _ => absurd ?_ same⟩
    obtain ⟨kind, broke⟩ | ⟨kind, -⟩ := S.alike beside
    · unfold omits at omitted ⊢
      rw [broke, isEof_congr kind, isPunctuation_congr kind, lenient]
      exact (Bool.and_eq_true_iff.1 omitted).2
    · simp [omits, lenient, Token.isEof, kind]

/-- A jump whose keyword begins at the position is among the parts. -/
def JumpsFrom (start : Position) (parts : List Part) : Prop :=
  ∃ part ∈ parts, ∃ stop, part.jumpSpan? = some ⟨start, stop⟩

/-- Where the first run may not leave out a semicolon, and goes on to what a jump names, the second
goes on too: it might only stop at a line break, and there is none behind the keyword. -/
theorem follows_mayNotOmit {f g : Bool → Parser β} {start : Position}
    (required : omits S.first c = false)
    (broken : c.token.afterBreak = true → S.Broken start)
    (begins : c.token.isEof = false ∧ c.token.isPunctuation '\x7d' = false)
    (next : S.FollowsOn stalls c d (f false) (g false) fun read b behind =>
      (goal read b behind ∧ (S.first.positions = true → JumpsFrom start read)) ∧
        behind.ahead < c.ahead) :
    S.FollowsOn stalls c d (mayOmitSemicolon >>= f) (mayOmitSemicolon >>= g) goal := by
  by_cases same : omits S.second d = false
  · refine follows_of_looks (looks_mayOmit _ _) (looks_mayOmit _ _) ?_
    rw [required, same]
    exact next.mono fun _ _ _ known => known.1.1
  · intro b behind stands ran
    rw [run_behind (looks_mayOmit _ _), required] at ran
    obtain ⟨stands, reaches, parts, known, -⟩ := next b behind stands ran
    refine ⟨stands, reaches, parts, known.1.1, fun beside final onward _ admits => absurd ?_ same⟩
    obtain ⟨kind, broke⟩ | ⟨-, ended⟩ := S.alike beside
    · by_cases strict : S.second.strict = S.first.strict
      · unfold omits at required ⊢
        rwa [broke, isEof_congr kind, isPunctuation_congr kind, strict]
      · obtain ⟨positions, unbroken⟩ := S.jumps strict
        obtain ⟨part, listed, stop, jump⟩ := known.1.2 positions
        have joined : c.token.afterBreak = false := by
          cases afterBreak : c.token.afterBreak with
          | false => rfl
          | true => exact absurd (broken afterBreak) (unbroken admits listed jump)
        unfold omits
        rw [broke, isEof_congr kind, isPunctuation_congr kind, joined, begins.1, begins.2]
        simp
    · exact absurd admits (ended parts final (reaches.trans onward)
        (Nat.lt_of_le_of_lt onward.ahead known.2))

theorem follows_semicolon :
    S.Follows c d semicolon semicolon fun read a _ => S.Holds (fun _ => []) read a := by
  unfold semicolon
  refine follows_atPunctuation (fun here => ?_) fun _ => ?_
  · exact follows_takeOnly (plain_of_punctuation here) (going_of_punctuation here)
  · cases omitted : omits S.first c with
    | true => exact follows_mayOmit omitted (follows_pure [] (holds_nothing _))
    | false =>
      refine follows_fails (.refused
        (.ofFault (.unexpected c.token.kind.describe c.token.isEof) c.token.span)) ?_
      rw [if_neg (by simp), run_behind (looks_mayOmit _ _), omitted]
      rfl

/-! ## Loops -/

/-- A loop whose steps make something smaller is its step, and then the loop again. -/
theorem loop_unfold {size : σ → Cursor → Nat} {step : σ → Parser (σ ⊕ α)}
    (descends : Descends Failure.Any size step) (within : ∀ state c, size state c ≤ c.ahead)
    (state : σ) : loop step state = step state >>= Sum.elim (loop step) pure := by
  have stable {n m : Nat} {o : Options} {state : σ} {c : Cursor} (first : size state c < n)
      (second : size state c < m) : loopWithin step n state o c = loopWithin step m state o c := by
    induction n generalizing m state c with
    | zero => exact absurd first (Nat.not_lt_zero _)
    | succ n ih =>
      obtain ⟨m, rfl⟩ := Nat.exists_eq_succ_of_ne_zero (Nat.ne_of_gt (Nat.zero_lt_of_lt second))
      have smaller := descends o c state
      unfold Ends at smaller
      show (step state o c >>= fun read => _) = (step state o c >>= fun read => _)
      cases ran : step state o c with
      | error failure => rfl
      | ok outcome =>
        obtain ⟨next | result, behind⟩ := outcome
        · rw [ran] at smaller
          have less : size next behind < size state c := smaller next rfl
          exact ih (Nat.lt_of_lt_of_le less (Nat.le_of_lt_succ first))
            (Nat.lt_of_lt_of_le less (Nat.le_of_lt_succ second))
        · rfl
  have enough (c : Cursor) (state : σ) : size state c < c.lexer.rest.length + 2 := by
    have bound := within state c
    unfold Cursor.ahead at bound
    split_ifs at bound <;> omega
  funext o c
  have smaller := descends o c state
  unfold Ends at smaller
  show (step state o c >>= fun read => _) = (step state o c >>= fun read => _)
  cases ran : step state o c with
  | error failure => rfl
  | ok outcome =>
    obtain ⟨next | result, behind⟩ := outcome
    · rw [ran] at smaller
      have less : size next behind < size state c := smaller next rfl
      exact stable (Nat.lt_of_lt_of_le less (Nat.le_of_lt_succ (enough c state)))
        (enough behind next)
    · rfl

/-- What goes on behind the last step of a loop, as part of that step. -/
def behindLast (finish : α → Parser β) : σ ⊕ α → Parser (σ ⊕ β)
  | .inl next => pure (.inl next)
  | .inr result => do return .inr (← finish result)

/-- What a step of a loop adds to what was read before, and keeps of it. -/
def Sides.Grows (S : Sides) (parts : σ → List Part) (result : β → List Part) (state : σ)
    (read : List Part) : σ ⊕ β → Prop
  | .inl next => parts state ⊆ parts next ∧ S.Holds parts read next
  | .inr b => parts state ⊆ result b ∧ S.Holds result read b

/-- Two loops whose steps follow each other, and what goes on behind them. A step may leave a token to
the next one, which consumes it. By induction on the bound of the first loop; the second is unfolded
step by step. -/
theorem follows_stallingLoop {size : σ → Cursor → Nat} {step step' : σ → Parser (σ ⊕ α)}
    {finish finish' : α → Parser β} (parts : σ → List Part) (result : β → List Part)
    (stalls : σ → Cursor → Prop) (descends : Descends Failure.Any size step')
    (within : ∀ state c, size state c ≤ c.ahead)
    (steps : ∀ state c' d', Everywhere S.Good (parts state) → c'.ahead ≤ c.ahead →
      S.FollowsOn (fun outcome behind => ∃ next, outcome = .inl next ∧ stalls next behind) c' d'
        (step state >>= behindLast finish) (step' state >>= behindLast finish')
        fun read outcome behind => S.Grows parts result state read outcome ∧
          (stalls state c' → behind.ahead < c'.ahead))
    {state : σ} (good : Everywhere S.Good (parts state)) :
    S.Follows c d (loop step state >>= finish) (loop step' state >>= finish') fun read b _ =>
      parts state ⊆ result b ∧ S.Holds result read b := by
  have rounds {n : Nat} {c' d' : Cursor} {state : σ} (good : Everywhere S.Good (parts state))
      (room : c'.ahead ≤ c.ahead) :
      S.Follows c' d' (loopWithin step n state >>= finish) (loop step' state >>= finish')
        fun read b later => (parts state ⊆ result b ∧ S.Holds result read b) ∧
          (stalls state c' → later.ahead < c'.ahead) := by
    induction n generalizing c' d' state with
    | zero => exact follows_fails .exhausted rfl
    | succ n ih =>
      have first : loopWithin step (n + 1) state >>= finish =
          (step state >>= behindLast finish) >>=
            Sum.elim (fun next => loopWithin step n next >>= finish) pure := by
        rw [loopWithin, bind_assoc, bind_assoc]
        refine bind_congr fun outcome => ?_
        cases outcome <;> simp [behindLast]
      have second : loop step' state >>= finish' =
          (step' state >>= behindLast finish') >>=
            Sum.elim (fun next => loop step' next >>= finish') pure := by
        rw [loop_unfold descends within, bind_assoc, bind_assoc]
        refine bind_congr fun outcome => ?_
        cases outcome <;> simp [behindLast]
      rw [first, second]
      refine (steps state c' d' good room).bindOn fun read outcome behind behind' known shorter => ?_
      obtain ⟨grows, consumes⟩ := known
      cases outcome with
      | inl next =>
        obtain ⟨kept, read_, good⟩ := grows
        refine (ih good (Nat.le_trans shorter room)).ahead.mono fun more b later known => ?_
        obtain ⟨⟨⟨kept', read', good⟩, onward⟩, shorter'⟩ := known
        refine ⟨⟨⟨List.Subset.trans kept kept',
            List.append_subset.2 ⟨List.Subset.trans read_ kept', read'⟩, good⟩,
          fun stalled => Nat.lt_of_le_of_lt shorter' (consumes stalled)⟩, ?_⟩
        rintro ⟨_, same, stalled⟩
        cases same
        exact onward stalled
      | inr b =>
        obtain ⟨kept, read_, good⟩ := grows
        refine follows_pure [] ⟨⟨⟨kept, by simpa using read_, good⟩, consumes⟩, ?_⟩
        rintro ⟨_, same, -⟩
        cases same
  rw [Parser.loop]
  have looks : (get : Parser Cursor) S.first c = .ok (c, c) := rfl
  intro b behind stands ran
  rw [bind_assoc, run_behind looks] at ran
  obtain ⟨stands, reaches, read, known, second⟩ := rounds good (Nat.le_refl _) b behind stands ran
  exact ⟨stands, reaches, read, known.1, second⟩

/-- Two loops whose steps follow each other, and what goes on behind them. -/
theorem follows_loop {size : σ → Cursor → Nat} {step step' : σ → Parser (σ ⊕ α)}
    {finish finish' : α → Parser β} (parts : σ → List Part) (result : β → List Part)
    (descends : Descends Failure.Any size step') (within : ∀ state c, size state c ≤ c.ahead)
    (steps : ∀ state c' d', Everywhere S.Good (parts state) → c'.ahead ≤ c.ahead →
      S.Follows c' d' (step state >>= behindLast finish) (step' state >>= behindLast finish')
        fun read outcome _ => S.Grows parts result state read outcome)
    {state : σ} (good : Everywhere S.Good (parts state)) :
    S.Follows c d (loop step state >>= finish) (loop step' state >>= finish') fun read b _ =>
      parts state ⊆ result b ∧ S.Holds result read b :=
  follows_stallingLoop parts result (fun _ _ => False) descends within (fun state c' d' good room =>
    ((steps state c' d' good room).mono fun _ _ _ grows => ⟨grows, False.elim⟩).on) good

/-- Loops with nothing behind them. -/
theorem follows_loopOnly {size : σ → Cursor → Nat} {step step' : σ → Parser (σ ⊕ α)}
    (parts : σ → List Part) (result : α → List Part)
    (descends : Descends Failure.Any size step') (within : ∀ state c, size state c ≤ c.ahead)
    (steps : ∀ state c' d', Everywhere S.Good (parts state) → c'.ahead ≤ c.ahead →
      S.Follows c' d' (step state) (step' state)
        fun read outcome _ => S.Grows parts result state read outcome)
    {state : σ} (good : Everywhere S.Good (parts state)) :
    S.Follows c d (loop step state) (loop step' state) fun read b _ =>
      parts state ⊆ result b ∧ S.Holds result read b := by
  have last : (behindLast pure : σ ⊕ α → Parser (σ ⊕ α)) = pure := by
    funext outcome
    cases outcome <;> simp [behindLast]
  rw [← bind_pure (loop step state), ← bind_pure (loop step' state)]
  refine follows_loop parts result descends within (fun state c' d' good room => ?_) good
  rw [last, bind_pure, bind_pure]
  exact steps state c' d' good room

/-- Closes a list: consumes the closing punctuation. -/
def close (items : α) : Parser α := do
  advance
  return items

/-- Before a comma, a list that is not empty goes on with that comma. -/
def BeforeComma (items : List α) (c : Cursor) : Prop :=
  items ≠ [] ∧ c.token.isPunctuation ',' = true

/-- A list up to its closing punctuation, of which the items follow each other. An item may leave a
comma to the next step. -/
theorem follows_list {closing : Char} {item item' : List α → Parser (List α ⊕ List α)}
    (parts : List α → List Part) (apart : closing ≠ ',') (ends : ItemEnds Failure.Any item')
    (items : ∀ items c' d', Everywhere S.Good (parts items) → c'.ahead ≤ c.ahead →
      S.FollowsOn (fun outcome behind => ∃ next, outcome = .inl next ∧ BeforeComma next behind) c' d'
        (item items >>= behindLast close) (item' items >>= behindLast close)
        fun read outcome _ => S.Grows parts parts items read outcome)
    (none_ : parts [] = []) :
    S.Follows c d (loop (listStep closing item) [] >>= close)
      (loop (listStep closing item') [] >>= close) fun read items _ => S.Holds parts read items := by
  have descends : Descends Failure.Any listSize (listStep closing item') := fun _ _ _ =>
    (ends.listStep closing).mono (fun _ _ both next same => (both next same).1) fun _ real => real
  refine (follows_stallingLoop parts parts BeforeComma descends listSize_le
    (fun state c' d' good room => ?_) (by simp [none_])).mono fun _ _ _ known => known.2
  unfold listStep
  simp only [bind_assoc]
  refine follows_atPunctuation (fun here => ?_) fun open_ => ?_
  · have other : ¬ BeforeComma state c' := fun before => by
      have both := (kind_of_punctuation here).symm.trans (kind_of_punctuation before.2)
      exact apart (by simpa using both)
    simp only [if_true, pure_bind, behindLast, close, bind_assoc]
    exact follows_takePunctuation here fun _ _ _ => follows_pure []
      ⟨⟨List.Subset.refl _, by simp, good⟩, fun before => absurd before other⟩
  · simp only [Bool.false_eq_true, if_false]
    split_ifs with some_
    · simp only [bind_assoc]
      refine ((follows_expectPunctuation ',').then fun _ c'' d'' _ shorter =>
        items state c'' d'' good (by omega)).mono fun _ _ _ known => ⟨known.1, fun _ => known.2⟩
    · have none_ : state = [] := by simpa using some_
      exact (items state c' d' good room).mono fun _ _ _ known =>
        ⟨known, fun before => absurd none_ before.1⟩

end Laws

end Stencil.Grammar
