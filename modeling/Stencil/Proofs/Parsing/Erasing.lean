import Stencil.Proofs.Parsing.Bounds
import Stencil.Syntax.Erase
/-!
# Two runs of a rule: with spans and without

A rule may be run with spans and without. `Erases erase p q` says of a rule `p` run with spans, and
of a rule `q` run without, that they end alike at a cursor: in results of which the second is the
first one erased, and at one cursor, or in failures that are reported with one kind and one message.
The span of a failure may differ, since some rules report the span of a tree.

There is one law for each way rules are put together. The rules that build no tree do not ask
whether spans are wanted, and run the same both times.
-/

set_option autoImplicit false

namespace Stencil.Grammar

open Stencil.Error (Fault ParseError)
open Stencil.Syntax
open Stencil.Text (Position Span)
open Stencil.Grammar.Parser

variable {α β γ δ σ τ : Type}

/-- Two failures are reported with one kind and one message. -/
structure Failure.ReportedAlike (failure failure' : Failure) : Prop where
  kind : failure.toError.kind = failure'.toError.kind
  message : failure.toError.message = failure'.toError.message

theorem Failure.ReportedAlike.refl (failure : Failure) : failure.ReportedAlike failure := ⟨rfl, rfl⟩

/-- Parsing with spans. -/
def withSpans (strict : Bool) : Options := ⟨true, strict⟩

/-- Parsing without spans. -/
def withoutSpans (strict : Bool) : Options := ⟨false, strict⟩

/-- The end of a run with spans and that of one without: the second result is the first one erased,
or both failures are reported alike. -/
def EndsErased (erase : α → β) : Except Failure (α × Cursor) → Except Failure (β × Cursor) → Prop
  | .ok (result, behind), .ok (result', behind') => result' = erase result ∧ behind' = behind
  | .error failure, .error failure' => failure.ReportedAlike failure'
  | _, _ => False

/-- A rule run with spans, and one run without, end alike at a cursor. -/
def Erases (strict : Bool) (c : Cursor) (erase : α → β) (p : Parser α) (q : Parser β) : Prop :=
  EndsErased erase (p (withSpans strict) c) (q (withoutSpans strict) c)

section Laws

variable {strict : Bool} {c : Cursor} {erase : α → β} {erase' : γ → δ}
variable {p : Parser α} {q : Parser β} {f : α → Parser γ} {g : β → Parser δ}

/-- Two runs behind two others. -/
theorem Erases.bind (first : Erases strict c erase p q)
    (second : ∀ a behind, Erases strict behind erase' (f a) (g (erase a))) :
    Erases strict c erase' (p >>= f) (q >>= g) := by
  unfold Erases at first ⊢
  show EndsErased erase' (p (withSpans strict) c >>= fun read => f read.1 _ read.2)
    (q (withoutSpans strict) c >>= fun read => g read.1 _ read.2)
  cases run : p (withSpans strict) c with
  | error failure =>
    cases run' : q (withoutSpans strict) c with
    | error failure' =>
      rw [run, run'] at first
      exact first
    | ok outcome' =>
      rw [run, run'] at first
      exact first.elim
  | ok outcome =>
    cases run' : q (withoutSpans strict) c with
    | error failure' =>
      rw [run, run'] at first
      exact first.elim
    | ok outcome' =>
      rw [run, run'] at first
      obtain ⟨a, behind⟩ := outcome
      obtain ⟨b, behind'⟩ := outcome'
      obtain ⟨rfl, rfl⟩ := first
      exact second a behind'

/-- Two results. -/
theorem erases_pure {a : α} {b : β} (erased : b = erase a) :
    Erases strict c erase (pure a) (pure b) := ⟨erased, rfl⟩

/-- Two errors that are reported alike. -/
theorem erases_refuse {error error' : ParseError}
    (alike : (Failure.refused error).ReportedAlike (.refused error')) :
    Erases strict c erase (refuse error) (refuse error') := alike

/-- Two rules that report the same fault, each at a place of its own. -/
theorem erases_ofFault (fault : Fault) (span span' : Span) :
    Erases strict c erase (refuse (.ofFault fault span)) (refuse (.ofFault fault span')) :=
  erases_refuse ⟨rfl, rfl⟩

theorem erases_exhausted : Erases strict c erase (throw .exhausted) (throw .exhausted) :=
  Failure.ReportedAlike.refl _

/-- A rule that runs the same with spans and without, and so gives one result. -/
theorem erases_unplaced {p : Parser α} (same : p (withSpans strict) c = p (withoutSpans strict) c) :
    Erases strict c id p p := by
  unfold Erases
  rw [same]
  cases p (withoutSpans strict) c with
  | ok outcome => exact ⟨rfl, rfl⟩
  | error failure => exact Failure.ReportedAlike.refl failure

theorem erases_faultHere (fault : Fault) :
    Erases strict c erase (faultHere fault) (faultHere fault) := ⟨rfl, rfl⟩

theorem erases_unexpected : Erases strict c erase unexpected unexpected := ⟨rfl, rfl⟩

theorem erases_expected (wanted : String) :
    Erases strict c erase (expected wanted) (expected wanted) := ⟨rfl, rfl⟩

/-- Nothing goes on behind a failure. -/
theorem erases_fails {p : Parser α} {f : α → Parser γ} {g : α → Parser δ} {failure : Failure}
    (fails : ∀ o, p o c = .error failure) : Erases strict c erase' (p >>= f) (p >>= g) := by
  unfold Erases
  show EndsErased erase' (p _ c >>= fun read => f read.1 _ read.2)
    (p _ c >>= fun read => g read.1 _ read.2)
  rw [fails, fails]
  exact Failure.ReportedAlike.refl failure

/-- Behind a look at the cursor that sees `a` with spans and `b` without. -/
theorem erases_of_looks {a : α} {b : β} (looks : p (withSpans strict) c = .ok (a, c))
    (looks' : q (withoutSpans strict) c = .ok (b, c)) :
    Erases strict c erase' (p >>= f) (q >>= g) ↔ Erases strict c erase' (f a) (g b) := by
  unfold Erases
  rw [show (p >>= f) (withSpans strict) c = f a (withSpans strict) c by
      show (p _ c >>= fun read => f read.1 _ read.2) = _
      rw [looks]
      rfl,
    show (q >>= g) (withoutSpans strict) c = g b (withoutSpans strict) c by
      show (q _ c >>= fun read => g read.1 _ read.2) = _
      rw [looks']
      rfl]

@[simp] theorem erases_pureBind {a : α} {b : β} :
    Erases strict c erase' (pure a >>= f) (pure b >>= g) ↔ Erases strict c erase' (f a) (g b) :=
  erases_of_looks rfl rfl

theorem erases_get {f : Cursor → Parser γ} {g : Cursor → Parser δ} :
    Erases strict c erase' (get >>= f) (get >>= g) ↔ Erases strict c erase' (f c) (g c) :=
  erases_of_looks rfl rfl

@[simp] theorem erases_current {f : Token → Parser γ} {g : Token → Parser δ} :
    Erases strict c erase' (current >>= f) (current >>= g) ↔
      Erases strict c erase' (f c.token) (g c.token) := erases_of_looks rfl rfl

@[simp] theorem erases_currentKind {f : TokenKind → Parser γ} {g : TokenKind → Parser δ} :
    Erases strict c erase' (currentKind >>= f) (currentKind >>= g) ↔
      Erases strict c erase' (f c.token.kind) (g c.token.kind) := erases_of_looks rfl rfl

@[simp] theorem erases_startOfToken {f : Position → Parser γ} {g : Position → Parser δ} :
    Erases strict c erase' (startOfToken >>= f) (startOfToken >>= g) ↔
      Erases strict c erase' (f c.token.span.start) (g c.token.span.start) :=
  erases_of_looks rfl rfl

@[simp] theorem erases_read {f : Options → Parser γ} {g : Options → Parser δ} :
    Erases strict c erase' (read >>= f) (read >>= g) ↔
      Erases strict c erase' (f (withSpans strict)) (g (withoutSpans strict)) :=
  erases_of_looks rfl rfl

@[simp] theorem erases_atPunctuation {char : Char} {f : Bool → Parser γ} {g : Bool → Parser δ} :
    Erases strict c erase' (atPunctuation char >>= f) (atPunctuation char >>= g) ↔
      Erases strict c erase' (f (c.token.isPunctuation char)) (g (c.token.isPunctuation char)) :=
  erases_of_looks rfl rfl

@[simp] theorem erases_atOperator {spelling : String} {f : Bool → Parser γ} {g : Bool → Parser δ} :
    Erases strict c erase' (atOperator spelling >>= f) (atOperator spelling >>= g) ↔
      Erases strict c erase' (f (c.token.isOperator spelling)) (g (c.token.isOperator spelling)) :=
  erases_of_looks rfl rfl

@[simp] theorem erases_atKeyword {keyword : Keyword} {f : Bool → Parser γ} {g : Bool → Parser δ} :
    Erases strict c erase' (atKeyword keyword >>= f) (atKeyword keyword >>= g) ↔
      Erases strict c erase' (f (c.token.isKeyword keyword)) (g (c.token.isKeyword keyword)) :=
  erases_of_looks rfl rfl

@[simp] theorem erases_atMarker {marker : Marker} {f : Bool → Parser γ} {g : Bool → Parser δ} :
    Erases strict c erase' (atMarker marker >>= f) (atMarker marker >>= g) ↔
      Erases strict c erase' (f (c.token.isMarker marker)) (g (c.token.isMarker marker)) :=
  erases_of_looks rfl rfl

@[simp] theorem erases_mayOmitSemicolon {f : Bool → Parser γ} {g : Bool → Parser δ} :
    Erases strict c erase' (mayOmitSemicolon >>= f) (mayOmitSemicolon >>= g) ↔
      Erases strict c erase' (f (omits (withSpans strict) c)) (g (omits (withSpans strict) c)) :=
  erases_of_looks rfl rfl

/-- The one place where the two runs differ: a span against none. -/
@[simp] theorem erases_spanFrom {start : Position} {f : Option Span → Parser γ}
    {g : Option Span → Parser δ} :
    Erases strict c erase' (spanFrom start >>= f) (spanFrom start >>= g) ↔
      Erases strict c erase' (f (some ⟨start, c.stop⟩)) (g none) := erases_of_looks rfl rfl

/-- Two rules that depend on one condition. -/
theorem erases_ite {p' : Parser α} {q' : Parser β} {condition : Prop} [Decidable condition] :
    Erases strict c erase (if condition then p else p') (if condition then q else q') ↔
      if condition then Erases strict c erase p q else Erases strict c erase p' q' := by
  split <;> exact Iff.rfl

/-- Behind two runs that give one result. -/
theorem Erases.then {p q : Parser α} {f : α → Parser γ} {g : α → Parser δ}
    (first : Erases strict c id p q)
    (second : ∀ a behind, Erases strict behind erase' (f a) (g a)) :
    Erases strict c erase' (p >>= f) (q >>= g) :=
  first.bind second

/-- A loop whose steps end alike: by induction on its bound. -/
theorem erases_loopWithin {step : σ → Parser (σ ⊕ α)} {step' : τ → Parser (τ ⊕ β)} {known : σ → τ}
    (steps : ∀ state behind,
      Erases strict behind (Sum.map known erase) (step state) (step' (known state)))
    (n : Nat) (state : σ) :
    Erases strict c erase (loopWithin step n state) (loopWithin step' n (known state)) := by
  induction n generalizing c state with
  | zero => exact erases_exhausted
  | succ n ih =>
    rw [loopWithin, loopWithin]
    apply (steps state c).bind
    intro outcome behind
    cases outcome with
    | inl state => exact ih state
    | inr result => exact erases_pure rfl

/-- A loop whose steps end alike, from what the first state is without spans. -/
theorem erases_loop {step : σ → Parser (σ ⊕ α)} {step' : τ → Parser (τ ⊕ β)} (known : σ → τ)
    {state : σ} {state' : τ} (started : state' = known state)
    (steps : ∀ state behind,
      Erases strict behind (Sum.map known erase) (step state) (step' (known state))) :
    Erases strict c erase (loop step state) (loop step' state') := by
  subst started
  exact erases_get.2 (erases_loopWithin steps _ state)

/-! ## Rules that build no tree -/

/-- Consuming a token. -/
theorem erases_advance : Erases strict c id advance advance := by
  unfold advance
  rw [erases_get]
  split
  · exact erases_unplaced rfl
  · exact erases_refuse (.refl _)

/-- Reading a slash again. -/
theorem erases_rereadRegexp : Erases strict c id rereadRegexp rereadRegexp := by
  unfold rereadRegexp
  rw [erases_get]
  dsimp only
  split
  · exact erases_unplaced rfl
  · exact erases_refuse (.refl _)

/-- Looking one token ahead. -/
theorem erases_following : Erases strict c id following following := by
  unfold following
  rw [erases_get]
  split
  · exact erases_unplaced rfl
  · exact erases_refuse (.refl _)

theorem erases_expectPunctuation (char : Char) :
    Erases strict c id (expectPunctuation char) (expectPunctuation char) := by
  unfold expectPunctuation
  rw [erases_current]
  split_ifs
  · exact erases_advance
  · exact erases_expected _

theorem erases_expectMarker (marker : Marker) :
    Erases strict c id (expectMarker marker) (expectMarker marker) := by
  unfold expectMarker
  rw [erases_current]
  split_ifs
  · exact erases_advance
  · exact erases_expected _

theorem erases_semicolon : Erases strict c id semicolon semicolon := by
  unfold semicolon
  rw [erases_atPunctuation]
  split_ifs
  · exact erases_advance
  · rw [erases_mayOmitSemicolon]
    split_ifs
    · exact erases_pure rfl
    · exact erases_unexpected

/-- Consuming the current token for a result that is the same both times. -/
theorem erases_advance_pure (a : α) :
    Erases strict c id (do advance; return a) (do advance; return a) :=
  erases_advance.then fun _ _ => erases_pure rfl

theorem erases_plainName : Erases strict c id plainName plainName := by
  unfold plainName
  rw [erases_currentKind]
  split
  · exact erases_advance_pure _
  · exact erases_unexpected

theorem erases_anyName : Erases strict c id anyName anyName := by
  unfold anyName
  rw [erases_currentKind]
  split
  · exact erases_advance_pure _
  · exact erases_advance_pure _
  · exact erases_advance_pure _
  · split_ifs
    · exact erases_advance_pure _
    · exact erases_unexpected
  · exact erases_unexpected

theorem erases_propertyKey : Erases strict c id propertyKey propertyKey := by
  unfold propertyKey
  rw [erases_currentKind]
  split
  · exact erases_advance_pure _
  · exact erases_advance_pure _
  · exact erases_anyName

theorem erases_parameters : Erases strict c id parameters parameters := by
  unfold parameters
  have name (names : List String) (behind : Cursor) :
      Erases strict behind (Sum.map id id)
        (do return .inl (names ++ [← plainName]) : Parser (List String ⊕ List String))
        (do return .inl (names ++ [← plainName])) :=
    erases_plainName.then fun _ _ => erases_pure rfl
  apply Erases.then
  · apply erases_loop id rfl
    intro names behind
    simp only [id_eq, erases_atPunctuation]
    split_ifs
    · exact erases_pure rfl
    · exact (erases_expectPunctuation ',').then fun _ behind => name names behind
    · exact name names behind
  · intro names behind
    exact erases_advance_pure names

theorem erases_jumpTarget {around : Surroundings} {keyword : Keyword} :
    Erases strict c id (jumpTarget around keyword) (jumpTarget around keyword) := by
  unfold jumpTarget
  rw [erases_mayOmitSemicolon, erases_currentKind]
  split
  · apply erases_advance.then
    intro _ _
    split_ifs
    · exact erases_fails fun _ => rfl
    · exact erases_pureBind.2 (erases_semicolon.then fun _ _ => erases_pure rfl)
  · split_ifs
    · exact erases_fails fun _ => rfl
    · exact erases_pureBind.2 (erases_semicolon.then fun _ _ => erases_pure rfl)

theorem erases_closeBlock (name : String) (opening : Span) :
    Erases strict c id (closeBlock name opening) (closeBlock name opening) := by
  unfold closeBlock
  apply (erases_expectMarker _).then
  intro _ _
  rw [erases_current]
  split_ifs
  · exact erases_fails fun _ => rfl
  · exact erases_advance.then fun _ _ => erases_expectMarker _

end Laws

end Stencil.Grammar
