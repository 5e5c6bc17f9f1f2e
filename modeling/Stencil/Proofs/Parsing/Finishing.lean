import Stencil.Proofs.Parsing.Sides
/-!
# Expressions at the end of a text

A rule finishes a text when it reads all that is left of it (`Finishes`). What might have stood behind an
operand then makes no difference: a rule that finishes does so at every level of the grammar, whether
calls are allowed behind the operand, how tightly binary operators have to bind, and whether `in` is one.
Nor does a line break before the first token.
-/

set_option autoImplicit false

namespace Stencil.Grammar

open Stencil.Syntax
open Stencil.Text (Position Span)
open Stencil.Grammar.Parser

/-- The rule reads all that is left of the text, as the expression. -/
def Finishes (p : Parser Expr) (o : Options) (c : Cursor) (e : Expr) : Prop :=
  ∃ behind, p o c = .ok (e, behind) ∧ behind.token.isEof = true

variable {α σ : Type} {R : Rules} {o : Options} {c behind : Cursor} {e : Expr}

/-! ## Loops -/

theorem loop_done {step : σ → Parser (σ ⊕ α)} {state : σ} {a : α}
    (ran : step state o c = .ok (.inr a, behind)) : loop step state o c = .ok (a, behind) := by
  unfold loop
  rw [run_behind (a := c) rfl, loopWithin, run_behind ran]
  rfl

theorem loop_more {size : σ → Cursor → Nat} {step : σ → Parser (σ ⊕ α)}
    (descends : Descends Failure.Any size step) (within : ∀ state c, size state c ≤ c.ahead)
    {state next : σ} (ran : step state o c = .ok (.inl next, behind)) :
    loop step state o c = loop step next o behind := by
  rw [loop_unfold descends within, run_behind ran]
  rfl

/-! ## What the end of the text ends -/

section Ended

variable (ended : c.token.isEof = true)

include ended

theorem subscripts_ended (start : Position) (calls : Bool) :
    subscripts R e start calls o c = .ok (e, c) := by
  have none_ (char : Char) : c.token.isPunctuation char = false := by
    simp [Token.isPunctuation, kind_of_isEof ended]
  rw [subscripts_eq]
  refine loop_done ?_
  unfold subscriptStep
  rw [run_behind (a := c.token.isPunctuation '.') rfl, none_, if_neg (by simp),
    run_behind (a := c.token.isPunctuation '[') rfl, none_, if_neg (by simp),
    run_behind (a := c.token.isPunctuation '(') rfl, none_, if_neg (by simp)]
  rfl

theorem postfix_ended (start : Position) : loop (postfixStep start) e o c = .ok (e, c) := by
  refine loop_done ?_
  unfold postfixStep
  rw [run_behind (a := c.token) rfl, show operatorBehind c.token = none by
    simp [operatorBehind, kind_of_isEof ended]]
  rfl

theorem operators_ended (start : Position) (bound : Nat) (noIn : Bool) :
    operators R e start bound noIn o c = .ok (e, c) := by
  unfold operators
  rw [run_behind (a := c.token.kind) rfl, kind_of_isEof ended]
  rfl

end Ended

/-! ## From level to level -/

/-- Binary operators with their first operand. -/
def operation (rules : Rules) (noIn : Bool) : Parser Expr := do
  let start ← startOfToken
  let operand ← unary rules true
  operators rules operand start 0 noIn

theorem conditional_eq_operation (rules : Rules) (noIn : Bool) :
    conditional rules noIn = (do
      let start ← startOfToken
      let test ← operation rules noIn
      conditionalRest rules noIn start test) := by
  funext o c
  rw [conditional_eq, run_behind (a := c.token.span.start) rfl,
    run_behind (a := c.token.span.start) rfl]
  unfold operation
  rw [bind_assoc startOfToken, run_behind (a := c.token.span.start) rfl]

/-- An operand is one without member accesses and calls, and those behind it; behind a `new` expression
there may always be calls. -/
theorem run_primary (R : Rules) (calls : Bool) (o : Options) (c : Cursor) :
    primary R calls o c = (do
      let operand ← bareOperand R c.token.span.start
      subscripts R operand c.token.span.start (calls || c.token.isOperator "new")) o c := by
  unfold primary bareOperand
  rw [run_behind (a := c.token.span.start) rfl, bind_assoc,
    run_behind (a := c.token.isOperator "new") rfl, run_behind (a := c.token.isOperator "new") rfl]
  cases c.token.isOperator "new" with
  | true =>
    simp only [if_true, Bool.or_true, newExpression_eq, bind_assoc]
  | false =>
    simp only [Bool.false_eq_true, if_false, Bool.or_false, bind_assoc]
    rw [run_behind (a := c.token.isPunctuation '(') rfl,
      run_behind (a := c.token.isPunctuation '(') rfl]
    split_ifs <;> simp only [bind_assoc, pure_bind]

/-- Of the operators, only `new` begins an operand. -/
theorem operator_of_primary {calls : Bool} {symbol : String}
    (ran : primary R calls o c = .ok (e, behind)) (kind : c.token.kind = .operator symbol) :
    symbol = "new" := by
  refine Decidable.byContradiction fun other => ?_
  rw [run_primary] at ran
  obtain ⟨_, _, ran, -⟩ := run_bind ran
  unfold bareOperand at ran
  rw [run_behind (a := c.token.isOperator "new") rfl,
    show c.token.isOperator "new" = false by simp [Token.isOperator, kind, other], if_neg (by simp),
    run_behind (a := c.token.isPunctuation '(') rfl,
    show c.token.isPunctuation '(' = false by simp [Token.isPunctuation, kind],
    if_neg (by simp)] at ran
  unfold atom at ran
  rw [run_behind (a := c.token.kind) rfl, kind] at ran
  cases ran

/-- No operand begins with a unary operator. -/
theorem bare_of_primary {calls : Bool} (ran : primary R calls o c = .ok (e, behind)) :
    operatorBefore c.token.kind = none := by
  unfold operatorBefore
  split
  · next symbol kind =>
    obtain rfl := operator_of_primary ran kind
    decide
  · rfl

/-- No operand begins with a slash that is an operator. -/
theorem fresh_of_primary {calls : Bool} (ran : primary R calls o c = .ok (e, behind)) :
    ¬ c.AtSlash := by
  rintro (single | double)
  · exact absurd (operator_of_primary ran (kind_of_operator single)) (by decide)
  · exact absurd (operator_of_primary ran (kind_of_operator double)) (by decide)

theorem fresh_of_unary {calls : Bool} (ran : unary R calls o c = .ok (e, behind)) : ¬ c.AtSlash := by
  rw [unary_eq, run_behind (a := c.token.span.start) rfl, run_behind (a := c.token.kind) rfl] at ran
  cases before : operatorBefore c.token.kind with
  | none =>
    rw [before] at ran
    obtain ⟨_, _, ran, -⟩ := run_bind ran
    exact fresh_of_primary ran
  | some op =>
    rintro (single | double)
    · rw [kind_of_operator single] at before
      exact absurd before (by cases op <;> decide)
    · rw [kind_of_operator double] at before
      exact absurd before (by cases op <;> decide)

theorem fresh_of_conditional {noIn : Bool} (ran : conditional R noIn o c = .ok (e, behind)) :
    ¬ c.AtSlash := by
  unfold conditional at ran
  rw [run_behind (a := c.token.span.start) rfl] at ran
  obtain ⟨_, _, ran, -⟩ := run_bind ran
  exact fresh_of_unary ran

theorem fresh_of_assignment {noIn : Bool} (ran : assignment R noIn o c = .ok (e, behind)) :
    ¬ c.AtSlash := by
  unfold assignment at ran
  rw [run_behind (a := c.token.span.start) rfl] at ran
  obtain ⟨_, _, ran, -⟩ := run_bind ran
  exact fresh_of_conditional ran

namespace Finishes

theorem unary {calls : Bool} (finishes : Finishes (primary R calls) o c e) :
    Finishes (unary R calls) o c e := by
  obtain ⟨behind, ran, ended⟩ := finishes
  refine ⟨behind, ?_, ended⟩
  rw [unary_eq, run_behind (a := c.token.span.start) rfl, run_behind (a := c.token.kind) rfl,
    bare_of_primary ran]
  dsimp only
  rw [run_behind ran]
  exact postfix_ended ended _

theorem operation (finishes : Finishes (Parser.unary R true) o c e) (noIn : Bool) :
    Finishes (operation R noIn) o c e := by
  obtain ⟨behind, ran, ended⟩ := finishes
  refine ⟨behind, ?_, ended⟩
  unfold Grammar.operation
  rw [run_behind (a := c.token.span.start) rfl, run_behind ran]
  exact operators_ended ended _ _ _

theorem conditional {noIn : Bool} (finishes : Finishes (Grammar.operation R noIn) o c e) :
    Finishes (conditional R noIn) o c e := by
  obtain ⟨behind, ran, ended⟩ := finishes
  refine ⟨behind, ?_, ended⟩
  rw [conditional_eq_operation, run_behind (a := c.token.span.start) rfl, run_behind ran]
  unfold conditionalRest
  rw [run_behind (a := behind.token.isOperator "?") rfl,
    show behind.token.isOperator "?" = false by simp [Token.isOperator, kind_of_isEof ended],
    if_neg (by simp)]
  rfl

theorem assignment {noIn : Bool} (finishes : Finishes (Parser.conditional R noIn) o c e) :
    Finishes (assignment R noIn) o c e := by
  obtain ⟨behind, ran, ended⟩ := finishes
  refine ⟨behind, ?_, ended⟩
  unfold Parser.assignment
  rw [run_behind (a := c.token.span.start) rfl, run_behind ran,
    run_behind (a := behind.token.kind) rfl, kind_of_isEof ended]
  rfl

theorem expression {noIn : Bool} (finishes : Finishes (Parser.assignment R noIn) o c e)
    (commas : Bool) : Finishes (expression R commas noIn) o c e := by
  obtain ⟨behind, ran, ended⟩ := finishes
  refine ⟨behind, ?_, ended⟩
  unfold Parser.expression
  rw [run_behind (a := c.token.span.start) rfl, run_behind ran,
    run_behind (a := behind.token.isPunctuation ',') rfl,
    show behind.token.isPunctuation ',' = false by simp [Token.isPunctuation, kind_of_isEof ended],
    Bool.and_false, if_neg (by simp)]
  rfl

end Finishes

/-! ## The operator of iterations -/

/-- What the one rule reads, the other does, unless the first stops before an `in`. -/
def UnlessIn (o : Options) (c : Cursor) (p q : Parser α) : Prop :=
  ∀ a behind, p o c = .ok (a, behind) →
    behind.token.isOperator "in" = true ∨ q o c = .ok (a, behind)

/-- Wherever the rule gives a result, it stops before an `in`. -/
def StopsBeforeIn (o : Options) (c : Cursor) (p : Parser α) : Prop :=
  ∀ a behind, p o c = .ok (a, behind) → behind.token.isOperator "in" = true

section UnlessIn

variable {β : Type} {p q : Parser α} {f g : α → Parser β}

theorem unlessIn_refl : UnlessIn o c p p := fun _ _ ran => .inr ran

/-- Rules behind each other: behind an `in` that the first stops before, the second has to stop too. -/
theorem UnlessIn.bind (first : UnlessIn o c p q)
    (stops : ∀ a behind, behind.token.isOperator "in" = true → StopsBeforeIn o behind (f a))
    (second : ∀ a behind, UnlessIn o behind (f a) (g a)) : UnlessIn o c (p >>= f) (q >>= g) := by
  intro b later ran
  obtain ⟨a, behind, ran, ran'⟩ := run_bind ran
  obtain here | same := first a behind ran
  · exact .inl (stops a behind here b later ran')
  · rw [run_behind same]
    exact second a behind b later ran'

/-- Behind a rule that both run. -/
theorem unlessIn_behind (second : ∀ a behind, UnlessIn o behind (f a) (g a)) :
    UnlessIn o c (p >>= f) (p >>= g) := by
  intro b later ran
  obtain ⟨a, behind, ran, ran'⟩ := run_bind ran
  rw [run_behind ran]
  exact second a behind b later ran'

theorem stopsBeforeIn_pure (here : c.token.isOperator "in" = true) (a : α) :
    StopsBeforeIn o c (pure a : Parser α) := fun _ _ ran => by
  cases ran
  exact here

/-- A look that sees nothing in an `in`. -/
theorem stopsBeforeIn_asks {look : Parser Bool} {f : Bool → Parser β} {seen : Bool}
    (looks : look o c = .ok (seen, c)) (none_ : seen = false) (stops : StopsBeforeIn o c (f false)) :
    StopsBeforeIn o c (look >>= f) := by
  intro b later ran
  rw [run_behind looks, none_] at ran
  exact stops b later ran

/-- The operators that `in` is one of are all others too. -/
theorem binaryOperator_unlessIn (kind : TokenKind) :
    kind = .operator "in" ∨ binaryOperator false kind = binaryOperator true kind := by
  unfold binaryOperator
  split
  · next symbol =>
    by_cases here : symbol = "in"
    · exact .inl (by rw [here])
    · simp [here]
  · exact .inr rfl

/-- The rules that are entered again, where `in` is no operator and where it is one. -/
structure Rules.UnlessIn (R : Rules) : Prop where
  expression : ∀ {o c} commas,
    Grammar.UnlessIn o c (R.expression commas true) (R.expression commas false)
  assignment : ∀ {o c}, Grammar.UnlessIn o c (R.assignment true) (R.assignment false)
  operators : ∀ {o c left start bound},
    Grammar.UnlessIn o c (R.operators left start bound true) (R.operators left start bound false)
  stops : ∀ {o c left start bound}, c.token.isOperator "in" = true →
    StopsBeforeIn o c (R.operators left start bound true)

/-- Where `in` is no operator, operators stop before it. -/
theorem stopsBeforeIn_operators (here : c.token.isOperator "in" = true) (left : Expr)
    (start : Position) (bound : Nat) : StopsBeforeIn o c (operators R left start bound true) := by
  intro e behind ran
  unfold operators at ran
  rw [run_behind (a := c.token.kind) rfl, kind_of_operator here] at ran
  cases ran
  exact here

theorem stopsBeforeIn_span {start : Position} {f : Option Span → Parser β}
    (stops : ∀ span, StopsBeforeIn o c (f span)) : StopsBeforeIn o c (spanFrom start >>= f) := by
  intro b later ran
  rw [run_behind (run_spanFrom _ _ _)] at ran
  exact stops _ b later ran

variable (optional : R.UnlessIn)

include optional

theorem unlessIn_operators {left : Expr} {start : Position} {bound : Nat} :
    UnlessIn o c (operators R left start bound true) (operators R left start bound false) := by
  intro e behind ran
  rw [operators_eq, run_behind (a := c.token.kind) rfl] at ran ⊢
  obtain here | same := binaryOperator_unlessIn c.token.kind
  · rw [here] at ran
    cases ran
    exact .inl (by simp [Token.isOperator, here])
  rw [same]
  cases op : binaryOperator true c.token.kind with
  | none =>
    rw [op] at ran
    exact .inr ran
  | some op =>
    simp only [op] at ran
    dsimp only
    split_ifs at ran ⊢
    · exact .inr ran
    · refine UnlessIn.bind ?_ (fun right later here => ?_) (fun right later => ?_) e behind ran
      · exact unlessIn_behind fun _ _ => unlessIn_behind fun _ _ => unlessIn_behind fun _ _ =>
          optional.operators
      · exact stopsBeforeIn_span fun _ => optional.stops here
      · exact unlessIn_behind fun _ _ => optional.operators

theorem unlessIn_conditional : UnlessIn o c (conditional R true) (conditional R false) := by
  rw [conditional_eq_operation, conditional_eq_operation]
  refine unlessIn_behind fun start _ => UnlessIn.bind ?_ (fun test later here => ?_) fun _ _ => ?_
  · exact unlessIn_behind fun _ _ => unlessIn_behind fun _ _ => unlessIn_operators optional
  · have other : later.token.isOperator "?" = false := by
      simp [Token.isOperator, kind_of_operator here]
    exact stopsBeforeIn_asks rfl other (stopsBeforeIn_pure here test)
  · refine unlessIn_behind fun asked _ => ?_
    split_ifs
    · refine unlessIn_behind fun _ _ => unlessIn_behind fun _ _ => unlessIn_behind fun _ _ => ?_
      exact (optional.expression false).bind (fun _ _ here =>
        stopsBeforeIn_span fun _ => stopsBeforeIn_pure here _) fun _ _ => unlessIn_refl
    · exact unlessIn_refl

theorem unlessIn_assignment : UnlessIn o c (assignment R true) (assignment R false) := by
  unfold assignment
  refine unlessIn_behind fun start _ => (unlessIn_conditional optional).bind
    (fun target later here => ?_) fun _ _ => unlessIn_behind fun kind _ => ?_
  · intro e behind ran
    rw [run_behind (a := later.token.kind) rfl, kind_of_operator here] at ran
    cases ran
    exact here
  · split
    · exact unlessIn_refl
    · refine unlessIn_behind fun _ _ => ?_
      dsimp only
      split_ifs
      · exact fun _ _ ran => by cases ran
      · exact unlessIn_behind fun _ _ => optional.assignment.bind (fun _ _ here =>
          stopsBeforeIn_span fun _ => stopsBeforeIn_pure here _) fun _ _ => unlessIn_refl

theorem unlessIn_expression (commas : Bool) :
    UnlessIn o c (expression R commas true) (expression R commas false) := by
  unfold expression
  refine unlessIn_behind fun start _ => (unlessIn_assignment optional).bind
    (fun first later here => ?_) fun _ _ => unlessIn_behind fun comma _ => ?_
  · have other : later.token.isPunctuation ',' = false := by
      simp [Token.isPunctuation, kind_of_operator here]
    refine stopsBeforeIn_asks rfl other ?_
    rw [Bool.and_false, if_neg (by simp)]
    exact stopsBeforeIn_pure here first
  · split_ifs
    · exact unlessIn_behind fun _ _ => (optional.expression true).bind (fun _ _ here =>
        stopsBeforeIn_span fun _ => stopsBeforeIn_pure here _) fun _ _ => unlessIn_refl
    · exact unlessIn_refl

end UnlessIn

theorem unlessIn_upTo (n : Nat) : (Rules.upTo n).UnlessIn := by
  induction n with
  | zero =>
    exact
      { expression := fun _ _ _ ran => by cases ran
        assignment := fun _ _ ran => by cases ran
        operators := fun _ _ ran => by cases ran
        stops := fun _ _ _ ran => by cases ran }
  | succ n ih =>
    exact
      { expression := fun commas => unlessIn_expression ih commas
        assignment := unlessIn_assignment ih
        operators := unlessIn_operators ih
        stops := fun here => stopsBeforeIn_operators here _ _ _ }

/-- At the end of a text it makes no difference whether `in` is an operator. -/
theorem Finishes.anyIn {n : Nat} {commas noIn : Bool}
    (finishes : Finishes (Parser.expression (.upTo n) commas noIn) o c e) :
    Finishes (Parser.expression (.upTo n) commas false) o c e := by
  obtain ⟨behind, ran, ended⟩ := finishes
  cases noIn with
  | false => exact ⟨behind, ran, ended⟩
  | true =>
    obtain here | same := unlessIn_expression (unlessIn_upTo n) commas e behind ran
    · exact absurd (going_of_operator here) (by simp [ended])
    · exact ⟨behind, same, ended⟩

/-! ## Line breaks before the first token -/

/-- A cursor whose token stands behind a line break, or does not. -/
def Cursor.broken (c : Cursor) (broke : Bool) : Cursor :=
  { c with token := { c.token with afterBreak := broke } }

/-- Whether a line break stands before the first token makes no difference. -/
def IgnoresBreak (p : Parser α) : Prop := ∀ o (c : Cursor) broke, p o (c.broken broke) = p o c

section IgnoresBreak

variable {β : Type} {p : Parser α} {f : α → Parser β}

theorem ignoresBreak_advance : IgnoresBreak advance := by
  intro o c broke
  rw [advance, run_get, run_get, show (c.broken broke).lexer = c.lexer from rfl]
  rcases c.lexer.next with ⟨_ | _, _⟩ <;> rfl

theorem IgnoresBreak.bind (first : IgnoresBreak p) : IgnoresBreak (p >>= f) := by
  intro o c broke
  show (p o (c.broken broke) >>= fun read => f read.1 o read.2) = (p o c >>= fun read => f read.1 o read.2)
  rw [first]

/-- A look at something else. -/
theorem ignoresBreak_looks {a : Options → Cursor → α} {look : Parser α}
    (looks : ∀ o c, look o c = .ok (a o c, c))
    (same : ∀ o (c : Cursor) broke, a o (c.broken broke) = a o c)
    (next : ∀ x, IgnoresBreak (f x)) : IgnoresBreak (look >>= f) := by
  intro o c broke
  rw [run_behind (looks o (c.broken broke)), run_behind (looks o c), same]
  exact next _ o c broke

theorem ignoresBreak_atom (start : Position) : IgnoresBreak (atom R start) := by
  unfold atom
  refine ignoresBreak_looks (a := fun _ c => c.token.kind) (fun _ _ => rfl) (fun _ _ _ => rfl)
    fun kind => ?_
  split
  all_goals first | exact ignoresBreak_advance.bind | exact fun _ _ _ => rfl

theorem ignoresBreak_primary (calls : Bool) : IgnoresBreak (primary R calls) := by
  unfold primary
  refine ignoresBreak_looks (a := fun _ c => c.token.span.start) (fun _ _ => rfl)
    (fun _ _ _ => rfl) fun start => ?_
  refine ignoresBreak_looks (a := fun _ c => c.token.isOperator "new") (fun _ _ => rfl)
    (fun _ _ _ => rfl) fun new => ?_
  split_ifs
  · exact ignoresBreak_advance.bind
  refine ignoresBreak_looks (a := fun _ c => c.token.isPunctuation '(') (fun _ _ => rfl)
    (fun _ _ _ => rfl) fun paren => ?_
  split_ifs
  · exact ignoresBreak_advance.bind
  · exact (ignoresBreak_atom start).bind

theorem ignoresBreak_unary (calls : Bool) : IgnoresBreak (unary R calls) := by
  rw [unary_eq]
  refine ignoresBreak_looks (a := fun _ c => c.token.span.start) (fun _ _ => rfl)
    (fun _ _ _ => rfl) fun start => ?_
  refine ignoresBreak_looks (a := fun _ c => c.token.kind) (fun _ _ => rfl) (fun _ _ _ => rfl)
    fun kind => ?_
  split
  · exact ignoresBreak_advance.bind
  · exact (ignoresBreak_primary calls).bind

/-- Whatever follows, a rule begins with where its token begins. -/
theorem ignoresBreak_start {f : Position → Parser β} (next : ∀ start, IgnoresBreak (f start)) :
    IgnoresBreak (startOfToken >>= f) :=
  ignoresBreak_looks (a := fun _ c => c.token.span.start) (fun _ _ => rfl) (fun _ _ _ => rfl) next

theorem ignoresBreak_expression (commas noIn : Bool) : IgnoresBreak (expression R commas noIn) :=
  ignoresBreak_start fun _ => (ignoresBreak_start fun _ =>
    (ignoresBreak_start fun _ => (ignoresBreak_unary true).bind).bind).bind

end IgnoresBreak

end Stencil.Grammar
