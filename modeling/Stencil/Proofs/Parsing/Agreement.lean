import Stencil.Proofs.Lexing.Closers
import Stencil.Proofs.Parsing.Run
/-!
# The bound of the recursion does not matter

Each rule of the grammar enters another one only behind a token that it has consumed. So two
collections of rules that agree before short texts give, unfolded, rules that agree before texts
that are one token longer: the rules for nestings up to two depths agree wherever both depths
exceed what lies ahead.

`Same` says that two rules do the same at a cursor. It is carried through every rule of the
grammar, together with what reading does to a cursor (`Cursor.Leads`): no text is given back.
-/

set_option autoImplicit false

namespace Stencil.Grammar

open Stencil.Syntax
open Stencil.Text (Position Span)
open Stencil.Grammar.Parser

variable {α β σ : Type}

/-! ## What lies ahead -/

namespace Cursor

/-- The size of what lies ahead of a cursor: its token, if that is not the end, and the text. -/
def ahead (c : Cursor) : Nat := c.lexer.rest.length + if c.token.isEof then 0 else 1

/-- Behind the marker of a closer, the lexer is before the closer's name. -/
def InCloser (c : Cursor) : Prop :=
  c.token.kind = .marker .closerOpen → ∃ closer tail, c.lexer.BeforeCloser closer tail

/-- What reading from one cursor to another keeps. -/
structure Leads (c behind : Cursor) : Prop where
  ahead : behind.ahead ≤ c.ahead
  closer : c.InCloser → behind.InCloser

theorem Leads.refl (c : Cursor) : c.Leads c := ⟨Nat.le_refl _, id⟩

theorem Leads.trans {c middle behind : Cursor} (first : c.Leads middle)
    (second : middle.Leads behind) : c.Leads behind :=
  ⟨Nat.le_trans second.ahead first.ahead, second.closer ∘ first.closer⟩

end Cursor

section Same

variable {o : Options} {c : Cursor} {p q : Parser α} {f g : α → Parser β}

/-- A rule consumes a token if it gives a result. -/
def Takes (o : Options) (c : Cursor) (p : Parser α) : Prop :=
  Ends p o c (fun _ behind => c.Leads behind ∧ behind.ahead < c.ahead) fun _ => True

/-- Two rules do the same at a cursor, and give no text back. -/
structure Same (o : Options) (c : Cursor) (p q : Parser α) : Prop where
  eq : p o c = q o c
  leads : Ends p o c (fun _ behind => c.Leads behind) fun _ => True

/-- Two rules behind two others. -/
theorem Same.bind (first : Same o c p q)
    (second : ∀ a behind, c.Leads behind → Same o behind (f a) (g a)) :
    Same o c (p >>= f) (q >>= g) := by
  obtain ⟨eq, leads⟩ := first
  constructor
  · show (p o c >>= fun read => f read.1 o read.2) = (q o c >>= fun read => g read.1 o read.2)
    rw [← eq]
    unfold Ends at leads
    cases read : p o c with
    | error failure => rfl
    | ok outcome =>
      rw [read] at leads
      exact (second outcome.1 outcome.2 leads).eq
  · rw [ends_bind]
    exact leads.mono (fun a behind first => (second a behind first).leads.mono
      (fun _ _ then_ => first.trans then_) fun _ _ => trivial) fun _ _ => trivial

theorem Takes.same (takes : Takes o c p) : Same o c p p :=
  ⟨rfl, takes.mono (fun _ _ taken => taken.1) fun _ _ => trivial⟩

/-- Two rules do the same at a cursor, and consume a token. -/
structure Consumes (o : Options) (c : Cursor) (p q : Parser α) : Prop where
  eq : p o c = q o c
  takes : Takes o c p

theorem Consumes.same (consumes : Consumes o c p q) : Same o c p q :=
  ⟨consumes.eq, consumes.takes.same.leads⟩

/-- What goes on behind a token that was consumed has less ahead of it. -/
theorem Takes.followed (first : Takes o c p)
    (second : ∀ a behind, c.Leads behind → behind.ahead < c.ahead → Same o behind (f a) (g a)) :
    Consumes o c (p >>= f) (p >>= g) := by
  have both := first
  unfold Takes Ends at both
  constructor
  · show (p o c >>= fun read => f read.1 o read.2) = (p o c >>= fun read => g read.1 o read.2)
    cases read : p o c with
    | error failure => rfl
    | ok outcome =>
      rw [read] at both
      exact (second outcome.1 outcome.2 both.1 both.2).eq
  · unfold Takes
    rw [ends_bind]
    refine first.mono (fun a behind taken => ?_) fun _ _ => trivial
    refine (second a behind taken.1 taken.2).leads.mono (fun _ _ then_ => ?_) fun _ _ => trivial
    exact ⟨taken.1.trans then_, Nat.lt_of_le_of_lt then_.ahead taken.2⟩

theorem Consumes.followed (first : Consumes o c p q)
    (second : ∀ a behind, c.Leads behind → Same o behind (f a) (g a)) :
    Consumes o c (p >>= f) (q >>= g) := by
  have both := first.takes.followed (f := f) (g := g) fun a behind leads _ => second a behind leads
  refine ⟨?_, both.takes⟩
  rw [both.eq]
  show (p o c >>= fun read => g read.1 o read.2) = (q o c >>= fun read => g read.1 o read.2)
  rw [first.eq]

/-- What consumes a token behind a rule that gives no text back. -/
theorem Same.before (first : Same o c p q)
    (second : ∀ a behind, c.Leads behind → Consumes o behind (f a) (g a)) :
    Consumes o c (p >>= f) (q >>= g) := by
  refine ⟨(first.bind fun a behind leads => (second a behind leads).same).eq, ?_⟩
  unfold Takes
  rw [ends_bind]
  refine first.leads.mono (fun a behind leads => ?_) fun _ _ => trivial
  refine (second a behind leads).takes.mono (fun _ _ taken => ?_) fun _ _ => trivial
  exact ⟨leads.trans taken.1, Nat.lt_of_lt_of_le taken.2 leads.ahead⟩

theorem Takes.bind (first : Takes o c p)
    (second : ∀ a behind, c.Leads behind → behind.ahead < c.ahead → Same o behind (f a) (g a)) :
    Same o c (p >>= f) (p >>= g) := (first.followed second).same

theorem same_pure (a : α) : Same o c (pure a) (pure a) := ⟨rfl, .refl c⟩

/-- A rule that only fails. -/
theorem same_refuse (error : Error.ParseError) :
    Same o c (refuse error : Parser α) (refuse error) := ⟨rfl, trivial⟩

/-- Nothing goes on behind a failure. -/
theorem same_fails {failure : Failure} (fails : p o c = .error failure) :
    Same o c (p >>= f) (p >>= g) := by
  have given (h : α → Parser β) : (p >>= h) o c = .error failure := by
    show (p o c >>= fun read => h read.1 o read.2) = _
    rw [fails]
    rfl
  refine ⟨(given f).trans (given g).symm, ?_⟩
  unfold Ends
  rw [given f]
  trivial

theorem same_unexpected : Same o c (unexpected : Parser α) unexpected := ⟨rfl, trivial⟩

theorem same_faultHere (fault : Error.Fault) :
    Same o c (faultHere fault : Parser α) (faultHere fault) := ⟨rfl, trivial⟩

/-- Behind a look at the cursor. -/
theorem same_of_looks {a : α} (looks : p o c = .ok (a, c)) :
    Same o c (p >>= f) (p >>= g) ↔ Same o c (f a) (g a) := by
  have given (h : α → Parser β) : (p >>= h) o c = h a o c := by
    show (p o c >>= fun read => h read.1 o read.2) = _
    rw [looks]
    rfl
  constructor
  · rintro ⟨eq, leads⟩
    unfold Ends at leads
    rw [given f] at eq leads
    rw [given g] at eq
    exact ⟨eq, leads⟩
  · rintro ⟨eq, leads⟩
    refine ⟨by rw [given f, given g, eq], ?_⟩
    unfold Ends
    rw [given f]
    exact leads

@[simp] theorem same_pureBind {a : α} :
    Same o c (pure a >>= f) (pure a >>= g) ↔ Same o c (f a) (g a) := same_of_looks rfl

@[simp] theorem same_current {f g : Token → Parser β} :
    Same o c (current >>= f) (current >>= g) ↔ Same o c (f c.token) (g c.token) := same_of_looks rfl

@[simp] theorem same_currentKind {f g : TokenKind → Parser β} :
    Same o c (currentKind >>= f) (currentKind >>= g) ↔
      Same o c (f c.token.kind) (g c.token.kind) := same_of_looks rfl

@[simp] theorem same_startOfToken {f g : Position → Parser β} :
    Same o c (startOfToken >>= f) (startOfToken >>= g) ↔
      Same o c (f c.token.span.start) (g c.token.span.start) := same_of_looks rfl

@[simp] theorem same_read {f g : Options → Parser β} :
    Same o c (read >>= f) (read >>= g) ↔ Same o c (f o) (g o) := same_of_looks rfl

@[simp] theorem same_atPunctuation {char : Char} {f g : Bool → Parser β} :
    Same o c (atPunctuation char >>= f) (atPunctuation char >>= g) ↔
      Same o c (f (c.token.isPunctuation char)) (g (c.token.isPunctuation char)) :=
  same_of_looks rfl

@[simp] theorem same_atOperator {spelling : String} {f g : Bool → Parser β} :
    Same o c (atOperator spelling >>= f) (atOperator spelling >>= g) ↔
      Same o c (f (c.token.isOperator spelling)) (g (c.token.isOperator spelling)) :=
  same_of_looks rfl

@[simp] theorem same_atKeyword {keyword : Keyword} {f g : Bool → Parser β} :
    Same o c (atKeyword keyword >>= f) (atKeyword keyword >>= g) ↔
      Same o c (f (c.token.isKeyword keyword)) (g (c.token.isKeyword keyword)) := same_of_looks rfl

@[simp] theorem same_atMarker {marker : Marker} {f g : Bool → Parser β} :
    Same o c (atMarker marker >>= f) (atMarker marker >>= g) ↔
      Same o c (f (c.token.isMarker marker)) (g (c.token.isMarker marker)) := same_of_looks rfl

/-- Behind a look at the cursor. -/
theorem consumes_of_looks {a : α} (looks : p o c = .ok (a, c)) :
    Consumes o c (p >>= f) (p >>= g) ↔ Consumes o c (f a) (g a) := by
  have given (h : α → Parser β) : (p >>= h) o c = h a o c := by
    show (p o c >>= fun read => h read.1 o read.2) = _
    rw [looks]
    rfl
  have takes : Takes o c (p >>= f) ↔ Takes o c (f a) := by
    unfold Takes Ends
    rw [given f]
  constructor
  · rintro ⟨eq, taken⟩
    exact ⟨by rw [← given f, ← given g, eq], takes.1 taken⟩
  · rintro ⟨eq, taken⟩
    exact ⟨by rw [given f, given g, eq], takes.2 taken⟩

@[simp] theorem consumes_current {f g : Token → Parser β} :
    Consumes o c (current >>= f) (current >>= g) ↔ Consumes o c (f c.token) (g c.token) :=
  consumes_of_looks rfl

@[simp] theorem consumes_currentKind {f g : TokenKind → Parser β} :
    Consumes o c (currentKind >>= f) (currentKind >>= g) ↔
      Consumes o c (f c.token.kind) (g c.token.kind) := consumes_of_looks rfl

@[simp] theorem consumes_startOfToken {f g : Position → Parser β} :
    Consumes o c (startOfToken >>= f) (startOfToken >>= g) ↔
      Consumes o c (f c.token.span.start) (g c.token.span.start) := consumes_of_looks rfl

@[simp] theorem consumes_atPunctuation {char : Char} {f g : Bool → Parser β} :
    Consumes o c (atPunctuation char >>= f) (atPunctuation char >>= g) ↔
      Consumes o c (f (c.token.isPunctuation char)) (g (c.token.isPunctuation char)) :=
  consumes_of_looks rfl

@[simp] theorem consumes_atOperator {spelling : String} {f g : Bool → Parser β} :
    Consumes o c (atOperator spelling >>= f) (atOperator spelling >>= g) ↔
      Consumes o c (f (c.token.isOperator spelling)) (g (c.token.isOperator spelling)) :=
  consumes_of_looks rfl

theorem consumes_unexpected : Consumes o c (unexpected : Parser α) unexpected := ⟨rfl, trivial⟩

/-- Whether a semicolon may be left out at a cursor. -/
def omits (o : Options) (c : Cursor) : Bool :=
  !o.strict && (c.token.afterBreak || c.token.isEof || c.token.isPunctuation '\x7d')

@[simp] theorem same_mayOmitSemicolon {f g : Bool → Parser β} :
    Same o c (mayOmitSemicolon >>= f) (mayOmitSemicolon >>= g) ↔
      Same o c (f (omits o c)) (g (omits o c)) := same_of_looks rfl

@[simp] theorem same_spanFrom {start : Position} {f g : Option Span → Parser β} :
    Same o c (spanFrom start >>= f) (spanFrom start >>= g) ↔
      Same o c (f (spanAt o c start)) (g (spanAt o c start)) := by
  refine same_of_looks ?_
  unfold spanAt
  show (if o.positions then _ else _ : Parser (Option Span)) o c = _
  cases o.positions <;> rfl

/-- Two rules that depend on one condition. -/
theorem same_ite {p' q' : Parser α} {condition : Prop} [Decidable condition] :
    Same o c (if condition then p else q) (if condition then p' else q') ↔
      if condition then Same o c p p' else Same o c q q' := by
  split <;> exact Iff.rfl

/-! ## Consuming -/

/-- The next token of the lexer leads on. -/
theorem Cursor.leads_behindToken {token : Token} {lexer : Lexer}
    (read : c.lexer.next = (.ok token, lexer)) :
    c.Leads (behindToken c token lexer) ∧
      (c.token.isEof = false → (behindToken c token lexer).ahead < c.ahead) := by
  have left := Lexer.next_le read
  have behind : (behindToken c token lexer).ahead ≤ c.lexer.rest.length := left
  refine ⟨⟨?_, fun _ closer => Lexer.next_closer read closer⟩, fun going => ?_⟩
  · unfold ahead at *
    omega
  · unfold ahead at *
    simp only [going, Bool.false_eq_true, if_false]
    omega

/-- Consuming a token that is not the end. -/
theorem takes_advance (going : c.token.isEof = false) : Takes o c advance := by
  unfold Takes
  rw [ends_advance]
  split
  · next token lexer read =>
    obtain ⟨leads, shorter⟩ := Cursor.leads_behindToken read
    exact ⟨leads, shorter going⟩
  · trivial

theorem same_advance : Same o c advance advance := by
  refine ⟨rfl, ends_advance.2 ?_⟩
  split
  · next read => exact (Cursor.leads_behindToken read).1
  · trivial

theorem run_get (f : Cursor → Parser β) : ((get : Parser Cursor) >>= f) o c = f c o c := rfl

/-- Looking one token ahead. -/
theorem same_following {f g : Token → Parser β}
    (then_ : ∀ token lexer, c.lexer.next = (.ok token, lexer) → Same o c (f token) (g token)) :
    Same o c (following >>= f) (following >>= g) := by
  cases read : c.lexer.next with
  | mk outcome lexer =>
    cases outcome with
    | ok token =>
      refine (same_of_looks ?_).2 (then_ token lexer read)
      unfold following
      rw [run_get, read]
      rfl
    | error error =>
      refine @same_fails _ _ _ _ _ _ _ (.refused error) ?_
      unfold following
      rw [run_get, read]
      rfl

theorem consumes_following {f g : Token → Parser β}
    (then_ : ∀ token lexer, c.lexer.next = (.ok token, lexer) → Consumes o c (f token) (g token)) :
    Consumes o c (following >>= f) (following >>= g) := by
  have same := same_following (f := f) (g := g) fun token lexer read => (then_ token lexer read).same
  refine ⟨same.eq, ?_⟩
  unfold Takes
  rw [ends_bind, ends_following]
  split
  · next token lexer read => exact (then_ token lexer read).takes
  · trivial

/-- Punctuation is not the end of the text; nor is a marker, an operator, a keyword or a name. -/
theorem going_of_punctuation {token : Token} {char : Char}
    (here : token.isPunctuation char = true) : token.isEof = false := by
  unfold Token.isPunctuation at here
  unfold Token.isEof
  split at here
  · next kind => simp [kind]
  · cases here

theorem going_of_marker {token : Token} {marker : Marker}
    (here : token.isMarker marker = true) : token.isEof = false := by
  unfold Token.isMarker at here
  unfold Token.isEof
  split at here
  · next kind => simp [kind]
  · cases here

theorem going_of_operator {token : Token} {spelling : String}
    (here : token.isOperator spelling = true) : token.isEof = false := by
  unfold Token.isOperator at here
  unfold Token.isEof
  split at here
  · next kind => simp [kind]
  · cases here

theorem going_of_keyword {token : Token} {keyword : Keyword}
    (here : token.isKeyword keyword = true) : token.isEof = false := by
  unfold Token.isKeyword at here
  unfold Token.isEof
  split at here
  · next kind => simp [kind]
  · cases here

theorem going_of_kind {token : Token} {kind : TokenKind} (here : token.kind = kind)
    (other : kind ≠ .eof) : token.isEof = false := by
  subst here
  unfold Token.isEof
  split
  · next ended => exact absurd ended other
  · rfl

theorem takes_expectPunctuation (char : Char) : Takes o c (expectPunctuation char) := by
  simp only [Takes, expectPunctuation, ends_bind, ends_current, ends_ite]
  split_ifs with here
  · exact takes_advance (going_of_punctuation here)
  · trivial

theorem takes_expectMarker (marker : Marker) : Takes o c (expectMarker marker) := by
  simp only [Takes, expectMarker, ends_bind, ends_current, ends_ite]
  split_ifs with here
  · exact takes_advance (going_of_marker here)
  · trivial

/-- Consuming a token and giving a result. -/
theorem takes_advance_pure (going : c.token.isEof = false) (a : α) :
    Takes o c (do advance; return a) := by
  unfold Takes
  rw [ends_bind]
  exact takes_advance going

theorem takes_plainName : Takes o c plainName := by
  simp only [Takes, plainName, ends_bind, ends_currentKind]
  split
  · next kind => exact takes_advance_pure (going_of_kind kind (by simp)) _
  · trivial

theorem takes_anyName : Takes o c anyName := by
  simp only [Takes, anyName, ends_bind, ends_currentKind]
  split
  · next kind => exact takes_advance_pure (going_of_kind kind (by simp)) _
  · next kind => exact takes_advance_pure (going_of_kind kind (by simp)) _
  · next kind => exact takes_advance_pure (going_of_kind kind (by simp)) _
  · next kind =>
    rw [ends_ite]
    split_ifs
    · exact takes_advance_pure (going_of_kind kind (by simp)) _
    · trivial
  · trivial

theorem takes_propertyKey : Takes o c propertyKey := by
  simp only [Takes, propertyKey, ends_bind, ends_currentKind]
  split
  · next kind => exact takes_advance_pure (going_of_kind kind (by simp)) _
  · next kind => exact takes_advance_pure (going_of_kind kind (by simp)) _
  · exact takes_anyName

theorem same_semicolon : Same o c semicolon semicolon := by
  simp only [semicolon, same_atPunctuation]
  split_ifs with here
  · exact same_advance
  · simp only [same_mayOmitSemicolon]
    split_ifs
    · exact same_pure _
    · exact same_unexpected

/-- Reading a slash again as the beginning of a regular expression. -/
theorem same_rereadRegexp (going : c.token.isEof = false) :
    Same o c rereadRegexp rereadRegexp := by
  refine ⟨rfl, ?_⟩
  unfold rereadRegexp
  rw [ends_bind, ends_get]
  dsimp only
  split
  · next token lexer read =>
    obtain ⟨shorter, pattern, flags, kind⟩ := Lexer.rereadRegexp_le read
    constructor
    · have fresh (broke : Bool) (comments : List Comment) :
          ({ token with afterBreak := broke, comments } : Token).isEof = false :=
        going_of_kind kind (by simp)
      simpa [Cursor.ahead, going, fresh] using shorter
    · intro _ closer
      rw [show _ = TokenKind.regexp pattern flags from kind] at closer
      cases closer
  · trivial

/-! ## Loops -/

/-- A loop whose steps do the same: by induction on its bound. -/
theorem same_loopWithin {step step' : σ → Parser (σ ⊕ α)}
    (same : ∀ state behind, c.Leads behind → Same o behind (step state) (step' state)) (n : Nat)
    (state : σ) : Same o c (loopWithin step n state) (loopWithin step' n state) := by
  induction n generalizing c state with
  | zero => exact ⟨rfl, trivial⟩
  | succ n ih =>
    rw [loopWithin, loopWithin]
    refine (same state c (.refl c)).bind fun outcome behind leads => ?_
    cases outcome with
    | inl state => exact ih (fun state later second => same state later (leads.trans second)) state
    | inr result => exact same_pure result

theorem same_loop {step step' : σ → Parser (σ ⊕ α)}
    (same : ∀ state behind, c.Leads behind → Same o behind (step state) (step' state)) (state : σ) :
    Same o c (loop step state) (loop step' state) := by
  have looks : (get : Parser Cursor) o c = .ok (c, c) := rfl
  exact (same_of_looks looks).2 (same_loopWithin same _ state)

end Same

end Stencil.Grammar
