import Stencil.Grammar.Template
import Stencil.Parse
import Stencil.Proofs.Lexing.Streams
/-!
# Running rules of the grammar

`Ends` says how a run of a rule ends, in a result or in a failure, with one law for each way rules
are put together. `Gives` is the case where nothing is said of failures: its laws carry what is known
of a result from rule to rule.
-/

set_option autoImplicit false

namespace Stencil.Grammar

open Stencil.Lexing
open Stencil.Syntax
open Stencil.Text (Position Span)

variable {α β σ : Type}

/-! ## How a run ends -/

/-- The run of a rule at a cursor gives a result with the one condition, or a failure with the
other. -/
def Ends (p : Parser α) (o : Options) (c : Cursor) (good : α → Cursor → Prop)
    (bad : Failure → Prop) : Prop :=
  match p o c with
  | .ok (result, behind) => good result behind
  | .error failure => bad failure

section Ends

variable {o : Options} {c : Cursor} {good : α → Cursor → Prop} {bad : Failure → Prop}

/-- Weaker conditions. -/
theorem Ends.mono {p : Parser α} {better : α → Cursor → Prop} {worse : Failure → Prop}
    (ends : Ends p o c good bad) (weaker : ∀ result behind, good result behind → better result behind)
    (weaker' : ∀ failure, bad failure → worse failure) : Ends p o c better worse := by
  unfold Ends at *
  split at ends
  · exact weaker _ _ ends
  · exact weaker' _ ends

@[simp] theorem ends_pure (result : α) : Ends (pure result) o c good bad ↔ good result c := Iff.rfl

@[simp] theorem ends_throw (failure : Failure) :
    Ends (throw failure : Parser α) o c good bad ↔ bad failure := Iff.rfl

@[simp] theorem ends_refuse (error : Error.ParseError) :
    Ends (Parser.refuse error : Parser α) o c good bad ↔ bad (.refused error) := Iff.rfl

/-- A rule behind another. -/
@[simp] theorem ends_bind {p : Parser α} {f : α → Parser β} {good : β → Cursor → Prop} :
    Ends (p >>= f) o c good bad ↔ Ends p o c (fun a behind => Ends (f a) o behind good bad) bad := by
  unfold Ends
  rw [show (p >>= f) o c = (p o c >>= fun read => f read.1 o read.2) from rfl]
  cases p o c with
  | ok outcome => exact Iff.rfl
  | error failure => exact Iff.rfl

@[simp] theorem ends_current {good : Token → Cursor → Prop} :
    Ends Parser.current o c good bad ↔ good c.token c := Iff.rfl

@[simp] theorem ends_currentKind {good : TokenKind → Cursor → Prop} :
    Ends Parser.currentKind o c good bad ↔ good c.token.kind c := Iff.rfl

@[simp] theorem ends_startOfToken {good : Position → Cursor → Prop} :
    Ends Parser.startOfToken o c good bad ↔ good c.token.span.start c := Iff.rfl

@[simp] theorem ends_get {good : Cursor → Cursor → Prop} :
    Ends (get : Parser Cursor) o c good bad ↔ good c c := Iff.rfl

@[simp] theorem ends_read {good : Options → Cursor → Prop} :
    Ends (read : Parser Options) o c good bad ↔ good o c := Iff.rfl

@[simp] theorem ends_atPunctuation (char : Char) {good : Bool → Cursor → Prop} :
    Ends (Parser.atPunctuation char) o c good bad ↔ good (c.token.isPunctuation char) c := Iff.rfl

@[simp] theorem ends_atOperator (spelling : String) {good : Bool → Cursor → Prop} :
    Ends (Parser.atOperator spelling) o c good bad ↔ good (c.token.isOperator spelling) c := Iff.rfl

@[simp] theorem ends_atKeyword (keyword : Keyword) {good : Bool → Cursor → Prop} :
    Ends (Parser.atKeyword keyword) o c good bad ↔ good (c.token.isKeyword keyword) c := Iff.rfl

@[simp] theorem ends_atMarker (marker : Marker) {good : Bool → Cursor → Prop} :
    Ends (Parser.atMarker marker) o c good bad ↔ good (c.token.isMarker marker) c := Iff.rfl

/-- The span that a tree is given. -/
def spanAt (o : Options) (c : Cursor) (start : Position) : Option Span :=
  if o.positions then some ⟨start, c.stop⟩ else none

@[simp] theorem ends_spanFrom (start : Position) {good : Option Span → Cursor → Prop} :
    Ends (Parser.spanFrom start) o c good bad ↔ good (spanAt o c start) c := by
  unfold Parser.spanFrom spanAt
  rw [ends_bind, ends_read]
  cases o.positions with
  | true => exact Iff.rfl
  | false => exact Iff.rfl

/-- The cursor behind the current token. -/
def behindToken (c : Cursor) (token : Token) (lexer : Lexer) : Cursor :=
  { lexer, token, stop := c.token.span.stop }

/-- Consuming a token. -/
theorem ends_advance {good : Unit → Cursor → Prop} :
    Ends Parser.advance o c good bad ↔
      match c.lexer.next with
      | (.ok token, lexer) => good () (behindToken c token lexer)
      | (.error error, _) => bad (.refused error) := by
  unfold Parser.advance
  rw [ends_bind, ends_get]
  rcases c.lexer.next with ⟨token | error, lexer⟩
  · exact Iff.rfl
  · exact Iff.rfl

/-- Looking one token ahead. -/
theorem ends_following {good : Token → Cursor → Prop} :
    Ends Parser.following o c good bad ↔
      match c.lexer.next with
      | (.ok token, _) => good token c
      | (.error error, _) => bad (.refused error) := by
  unfold Parser.following
  rw [ends_bind, ends_get]
  rcases c.lexer.next with ⟨token | error, lexer⟩
  · exact Iff.rfl
  · exact Iff.rfl

/-- A rule that depends on a condition. -/
theorem ends_ite {p q : Parser α} {condition : Prop} [Decidable condition] :
    Ends (if condition then p else q) o c good bad ↔
      if condition then Ends p o c good bad else Ends q o c good bad := by
  split <;> exact Iff.rfl

end Ends

/-! ## Tokens that were asked for -/

/-- What a token is that was seen to be punctuation, an operator or a keyword. -/
theorem kind_of_punctuation {token : Token} {char : Char}
    (here : token.isPunctuation char = true) : token.kind = .punctuation char := by
  unfold Token.isPunctuation at here
  split at here
  · next kind => rw [kind, of_decide_eq_true here]
  · cases here

theorem kind_of_operator {token : Token} {spelling : String}
    (here : token.isOperator spelling = true) : token.kind = .operator spelling := by
  unfold Token.isOperator at here
  split at here
  · next kind => rw [kind, of_decide_eq_true here]
  · cases here

theorem kind_of_keyword {token : Token} {keyword : Keyword}
    (here : token.isKeyword keyword = true) : token.kind = .keyword keyword := by
  unfold Token.isKeyword at here
  split at here
  · next kind => rw [kind, of_decide_eq_true here]
  · cases here

/-! ## Runs that may fail -/

/-- If the run of a rule gives a result, it is as described. -/
abbrev Gives (o : Options) (c : Cursor) (p : Parser α) (good : α → Cursor → Prop) : Prop :=
  Ends p o c good fun _ => True

section Gives

variable {o : Options} {c : Cursor} {p : Parser α} {good good' : α → Cursor → Prop}

/-- What is known of a result is enough for what goes on behind it. -/
theorem Gives.next (gives : Gives o c p good)
    (next : ∀ a behind, good a behind → good' a behind) : Gives o c p good' :=
  gives.mono next fun _ _ => trivial

/-- A rule that fails gives no result. -/
theorem gives_faultHere (fault : Error.Fault) :
    Gives o c (Parser.faultHere fault : Parser α) good := trivial

theorem gives_unexpected : Gives o c (Parser.unexpected : Parser α) good := trivial

theorem gives_expected (wanted : String) :
    Gives o c (Parser.expected wanted : Parser α) good := trivial

/-- Looking one token ahead leaves the cursor. -/
theorem gives_following : Gives o c Parser.following fun _ behind => behind = c := by
  rw [Gives, ends_following]
  split
  · rfl
  · trivial

/-- A loop whose steps keep what is known of its state: by induction on its bound. -/
theorem gives_loopWithin (known : σ → Cursor → Prop) {step : σ → Parser (σ ⊕ α)}
    (steps : ∀ state behind, known state behind →
      Gives o behind (step state) fun outcome later =>
        match outcome with
        | .inl state => known state later
        | .inr result => good result later)
    (n : Nat) (state : σ) (start : known state c) :
    Gives o c (Parser.loopWithin step n state) good := by
  induction n generalizing c state with
  | zero => trivial
  | succ n ih =>
    rw [Parser.loopWithin, Gives, ends_bind]
    apply Gives.next (steps state c start)
    intro outcome later kept
    cases outcome with
    | inl state => exact ih state kept
    | inr result => exact kept

/-- A loop whose steps keep what is known of its state. -/
theorem gives_loop (known : σ → Cursor → Prop) {step : σ → Parser (σ ⊕ α)}
    (steps : ∀ state behind, known state behind →
      Gives o behind (step state) fun outcome later =>
        match outcome with
        | .inl state => known state later
        | .inr result => good result later)
    (state : σ) (start : known state c) : Gives o c (Parser.loop step state) good := by
  rw [Parser.loop, Gives, ends_bind, ends_get]
  exact gives_loopWithin known steps _ state start

/-- What a rule gives at the start of a text is what it reads from the whole text. -/
theorem gives_run {template : Bool} {source : List Char} {rule : Rules → Parser α} {result : α}
    (gives : ∀ depth c, Cursor.ofSource template source = .ok c →
      Gives o c (rule (.upTo depth)) good)
    (read : (run template o source rule).mapError (·.toError) = .ok result) :
    ∃ behind, good result behind := by
  unfold run at read
  cases begun : Cursor.ofSource template source with
  | error failure =>
    rw [begun] at read
    cases read
  | ok c =>
    have given := gives (c.lexer.rest.length + 2) c begun
    rw [begun] at read
    change (rule (Rules.upTo (c.lexer.rest.length + 2)) o c >>=
      fun read => .ok read.1).mapError _ = .ok result at read
    unfold Gives Ends at given
    cases ended : rule (Rules.upTo (c.lexer.rest.length + 2)) o c with
    | error failure =>
      rw [ended] at read
      cases read
    | ok outcome =>
      rw [ended] at read given
      cases read
      exact ⟨_, given⟩

end Gives

end Stencil.Grammar
