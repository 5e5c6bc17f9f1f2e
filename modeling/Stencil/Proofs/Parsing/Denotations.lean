import Stencil.Proofs.Parsing.Denoting
import Stencil.Proofs.Parsing.SpanTrees
/-!
# Every span denotes its expression

Each rule for expressions is followed through a text. What it makes an expression of was read before, and
so has spans that denote; and the span of the expression itself denotes it, because the text from the
first cursor of the rule to the last leads to it (`Leads`). Lists, functions, statements and chunks only
hand on what they read.
-/

set_option autoImplicit false

namespace Stencil.Grammar

open Stencil.Syntax
open Stencil.Text
open Stencil.Grammar.Parser

/-! ## Following one run -/

/-- A run with spans over a text, beside itself, with a condition on the expressions that are read. -/
def reading (text : List Char) (strict : Bool) (depth : Nat) (good : Expr → Prop)
    (missing : good (.atom none .undefined)) : Sides where
  first := withSpans strict
  second := withSpans strict
  spans := rfl
  stricter := id
  Plain _ := True
  code _ _ _ _ := trivial
  Good part := ∀ e, part = .expr e → good e
  others _ other e same := absurd same (other e)
  missing e same := by
    cases same
    exact missing
  Stands c := c.Placed text ∧ c.ahead < depth
  stands_advance stands read :=
    ⟨stands.1.advance read, Nat.lt_of_le_of_lt (Cursor.leads_behindToken read).1.ahead stands.2⟩
  stands_reread stands slash again :=
    ⟨stands.1.reread slash again, Nat.lt_of_le_of_lt (Cursor.ahead_reread slash again) stands.2⟩
  Beside c d := d = c
  Admits _ _ := True
  admits _ _ _ := trivial
  names _ _ := trivial
  places same _ := same ▸ ⟨rfl, rfl⟩
  alike same := .inl (same ▸ ⟨rfl, rfl⟩)
  advance same _ read _ _ := by
    subst same
    exact ⟨_, _, read, rfl⟩
  reread same _ _ read _ _ := by
    subst same
    exact ⟨_, _, read, rfl⟩
  Broken _ := True
  broken _ _ _ _ := trivial
  jumps differ := absurd rfl differ

/-- The run, without a condition. -/
abbrev anyReading (text : List Char) (strict : Bool) (depth : Nat) : Sides :=
  reading text strict depth (fun _ => True) trivial

/-- The run, where every span has to denote its expression. -/
abbrev denoting (text : List Char) (strict : Bool) (depth : Nat) : Sides :=
  reading text strict depth (Denoted text strict) fun _ none_ => by cases none_

variable {text : List Char} {strict : Bool} {depth n : Nat} {c c' d behind : Cursor} {e : Expr}

theorem whole_denoting : (denoting text strict depth).Whole := ⟨id, fun _ => trivial⟩

/-- A run that is followed without the condition is followed with it, if what it reads meets it. -/
theorem follows_denoting {p q : Parser Expr}
    (follows : (anyReading text strict depth).Follows c d p q
      ((anyReading text strict depth).Read Expr.parts c))
    (sound : ∀ e behind, c.Placed text → c.ahead < depth → p (withSpans strict) c = .ok (e, behind) →
      Everywhere (denoting text strict depth).Good e.parts) :
    (denoting text strict depth).Follows c d p q
      ((denoting text strict depth).Read Expr.parts c) := by
  intro e behind stands ran
  obtain ⟨stands', reaches, parts, ⟨⟨within, -⟩, shorter⟩, second⟩ := follows e behind stands ran
  exact ⟨stands', reaches, parts, ⟨⟨within, sound e behind stands.1 stands.2 ran⟩, shorter⟩, second⟩

theorem everywhere_parts {condition : Part → Prop} :
    Everywhere condition e.parts ↔ condition (.expr e) ∧ Everywhere condition e.parts.tail := by
  have first : e.parts = .expr e :: e.parts.tail := by cases e <;> simp [Expr.parts]
  rw [first, everywhere_cons, List.tail_cons]

/-- An expression that is made has spans that denote when its own does. -/
theorem Sides.Makes.sound {start : Position} {read : List Part}
    (makes : (denoting text strict depth).Makes start read e behind) (denoted : Denoted text strict e) :
    Everywhere (denoting text strict depth).Good e.parts := by
  refine everywhere_parts.2 ⟨fun other same => ?_, makes.below⟩
  cases same
  exact denoted

/-! ## What is read of excerpts -/

section Rereads

variable (deep : n ≤ depth)

include deep

/-- The rules of a depth over the text, and those of the bound over an excerpt. -/
theorem sided_excerpt (X : Excerpt text) :
    (Rules.upTo n).SidedExprs (X.sides strict depth) (Rules.upTo depth) :=
  sided_upTo (fun _ => trivial) deep

theorem rereads_bareOperand (start start' : Position) :
    Rereads text strict depth Expr.eraseSpans c (bareOperand (.upTo n) start)
      (bareOperand (.upTo depth) start') :=
  rereads_of (erases_bareOperand (spanless_upTo n) start) fun X _ =>
    follows_bareOperand (sided_excerpt deep X).toSided ((sided_excerpt deep X).primary false) nofun

theorem rereads_subscriptStep (operand : Expr) (start start' : Position) :
    Rereads text strict depth (Sum.map Expr.eraseSpans Expr.eraseSpans) c
      (subscriptStep (.upTo n) start true operand)
      (subscriptStep (.upTo depth) start' true operand.eraseSpans) :=
  rereads_of (erases_subscriptStep (spanless_upTo n) operand start true) fun X _ =>
    follows_subscriptStep (sided_excerpt deep X).toSided (fun _ _ => trivial) nofun

theorem rereads_primary :
    Rereads text strict depth Expr.eraseSpans c (primary (.upTo n) true) (primary (.upTo depth) true) :=
  rereads_of (erases_primary (spanless_upTo n) true) fun X _ =>
    follows_primary (fun _ => trivial) (sided_excerpt deep X) true

omit deep in
theorem rereads_postfixStep (operand : Expr) (start start' : Position) :
    Rereads text strict depth (Sum.map Expr.eraseSpans Expr.eraseSpans) c
      (postfixStep start operand) (postfixStep start' operand.eraseSpans) :=
  rereads_of (erases_postfixStep operand start) fun X _ =>
    follows_postfixStep (S := X.sides strict depth) nofun fun _ _ => trivial

theorem rereads_unary :
    Rereads text strict depth Expr.eraseSpans c (unary (.upTo n) true) (unary (.upTo depth) true) :=
  rereads_of (erases_unary (spanless_upTo n) true) fun X _ =>
    follows_unary (fun _ => trivial) (sided_excerpt deep X) true

theorem rereads_rightOperand {op : BinaryOp} {noIn : Bool}
    (here : binaryOperator noIn c.token.kind = some op) :
    Rereads text strict depth Expr.eraseSpans c (rightOperand (.upTo n) op noIn)
      (rightOperand (.upTo depth) op noIn) :=
  rereads_of (erases_rightOperand (spanless_upTo n) op noIn) fun X _ =>
    follows_rightOperand (fun _ => trivial) (sided_excerpt deep X) here

theorem rereads_conditional (noIn : Bool) :
    Rereads text strict depth Expr.eraseSpans c (conditional (.upTo n) noIn)
      (conditional (.upTo depth) noIn) :=
  rereads_of (erases_conditional (spanless_upTo n) noIn) fun X _ =>
    follows_conditional (fun _ => trivial) (sided_excerpt deep X) noIn

theorem rereads_assignment (noIn : Bool) :
    Rereads text strict depth Expr.eraseSpans c (assignment (.upTo n) noIn)
      (assignment (.upTo depth) noIn) :=
  rereads_of (erases_assignment (spanless_upTo n) noIn) fun X _ =>
    follows_assignment (fun _ => trivial) (sided_excerpt deep X) noIn

theorem rereads_expression (commas noIn : Bool) :
    Rereads text strict depth Expr.eraseSpans c (expression (.upTo n) commas noIn)
      (expression (.upTo depth) commas noIn) :=
  rereads_of (erases_expression (spanless_upTo n) commas noIn) fun X _ =>
    follows_expression (fun _ => trivial) (sided_excerpt deep X) commas noIn

end Rereads

/-! ## Up to the whole expression -/

section Climbing

variable {o : Options}

theorem Finishes.ofConditional {noIn : Bool}
    (finishes : Finishes (Parser.conditional (.upTo depth) noIn) o c e) :
    Finishes (Parser.expression (.upTo depth) true false) o c e :=
  (finishes.assignment.expression true).anyIn

theorem Finishes.ofOperation {noIn : Bool}
    (finishes : Finishes (Grammar.operation (.upTo depth) noIn) o c e) :
    Finishes (Parser.expression (.upTo depth) true false) o c e :=
  finishes.conditional.ofConditional

theorem Finishes.ofUnary (finishes : Finishes (Parser.unary (.upTo depth) true) o c e) :
    Finishes (Parser.expression (.upTo depth) true false) o c e :=
  (finishes.operation false).ofOperation

/-- The span of what one rule reads denotes it. -/
theorem denoted_of_rereads {p q : Parser Expr} (rereads : Rereads text strict depth Expr.eraseSpans c p q)
    (ran : p (withSpans strict) c = .ok (e, behind)) (consumed : behind.ahead < c.ahead)
    (fresh : ¬ c.AtSlash) (placed : c.Placed text) (room : c.ahead < depth)
    (unbroken : ∀ char ∈ text, isForeignBreak char = false)
    (climbs : ∀ d, Finishes q (withoutSpans strict) d e.eraseSpans →
      Finishes (expression (.upTo depth) true false) (withoutSpans strict) d e.eraseSpans)
    (own : e.span = spanAt (withSpans strict) behind c.token.span.start) : Denoted text strict e := by
  have leads : Leads text strict depth q (fun _ => pure e.eraseSpans) c behind :=
    Rereads.leads (q := fun _ => q) (f := fun _ e => pure e) (fun _ => rereads) ran consumed fresh
      fun _ _ => by rw [bind_pure]
  exact leads.denoted placed room unbroken (fun _ _ _ => rfl) climbs own

end Climbing

/-! ## The rules for expressions -/

/-- What the rules that are entered again from within others read has spans that denote. Operators are
told where their left operand was read from. -/
structure Rules.Denoting (text : List Char) (strict : Bool) (depth : Nat) (R : Rules) : Prop
    extends Rules.Sided (denoting text strict depth) R R where
  assignment : ∀ noIn {c d}, (denoting text strict depth).Follows c d (R.assignment noIn)
    (R.assignment noIn) ((denoting text strict depth).Read Expr.parts c)
  unary : ∀ {c d}, (denoting text strict depth).Follows c d (R.unary true) (R.unary true)
    ((denoting text strict depth).Read Expr.parts c)
  primary : ∀ calls {c d}, (denoting text strict depth).Follows c d (R.primary calls)
    (R.primary calls) ((denoting text strict depth).Read Expr.parts c)
  operators : ∀ {c c' behind left bound noIn e}, (denoting text strict depth).Stands c →
    (denoting text strict depth).Stands c' →
    Leads text strict depth (operation (.upTo depth) noIn)
      (fun start => Parser.operators (.upTo depth) left.eraseSpans start 0 noIn) c c' →
    Everywhere (denoting text strict depth).Good left.parts →
    R.operators left c.token.span.start bound noIn (withSpans strict) c' = .ok (e, behind) →
    Everywhere (denoting text strict depth).Good e.parts

section Sound

variable (deep : n ≤ depth) (unbroken : ∀ char ∈ text, isForeignBreak char = false)
  (known : (Rules.upTo n).Denoting text strict depth)

/-- A loop over what may stand behind an operand: each step makes an expression of it, to which the text
leads. -/
theorem good_loop {whole : Parser Expr} {r : Expr → Position → Parser Expr}
    {step : Expr → Parser (Expr ⊕ Expr)} (consuming : Consuming Failure.Any step)
    (steps : ∀ operand c', Everywhere (denoting text strict depth).Good operand.parts →
      (denoting text strict depth).Follows c' c' (step operand) (step operand)
        fun read outcome behind =>
          (denoting text strict depth).Extends c.token.span.start operand read outcome behind)
    (onward : ∀ operand c' next behind, Leads text strict depth whole (r operand) c c' →
      step operand (withSpans strict) c' = .ok (.inl next, behind) → behind.ahead < c'.ahead →
      Leads text strict depth whole (r next) c behind)
    (denoted : ∀ e behind, Leads text strict depth whole (r e) c behind →
      e.span = spanAt (withSpans strict) behind c.token.span.start → Denoted text strict e)
    {operand : Expr} (stands : (denoting text strict depth).Stands c')
    (leads : Leads text strict depth whole (r operand) c c')
    (good : Everywhere (denoting text strict depth).Good operand.parts)
    (ran : loop step operand (withSpans strict) c' = .ok (e, behind)) :
    Everywhere (denoting text strict depth).Good e.parts := by
  refine ends_of_run (g := fun e _ => Everywhere (denoting text strict depth).Good e.parts) ran
    (gives_loop (fun operand c' => (denoting text strict depth).Stands c' ∧
      Leads text strict depth whole (r operand) c c' ∧
      Everywhere (denoting text strict depth).Good operand.parts) ?_ operand ⟨stands, leads, good⟩)
  rintro operand c' ⟨stands, leads, good⟩
  have consumed := consuming (withSpans strict) c' operand
  unfold Gives Ends at *
  split
  · next outcome behind ran =>
    rw [ran] at consumed
    obtain ⟨stands', -, read, extends_, -⟩ := steps operand c' good outcome behind stands ran
    cases outcome with
    | inl next =>
      have leads' := onward operand c' next behind leads ran (consumed next rfl)
      exact ⟨stands', leads', extends_.2.sound (denoted next behind leads' extends_.2.span)⟩
    | inr e =>
      obtain ⟨-, rfl⟩ := extends_
      exact good
  · trivial

/-- A step of the loop over member accesses that goes on does so where calls are allowed, too. -/
theorem subscriptStep_calls {R : Rules} {o : Options} {start : Position} {calls : Bool}
    {operand next : Expr} (ran : subscriptStep R start calls operand o c = .ok (.inl next, behind)) :
    subscriptStep R start true operand o c = .ok (.inl next, behind) := by
  cases calls with
  | true => exact ran
  | false =>
    unfold subscriptStep at ran ⊢
    rw [run_behind (a := c.token.isPunctuation '.') rfl] at ran ⊢
    split_ifs at ran ⊢
    · exact ran
    rw [run_behind (a := c.token.isPunctuation '[') rfl] at ran ⊢
    split_ifs at ran ⊢
    · exact ran
    rw [run_behind (a := c.token.isPunctuation '(') rfl] at ran
    cases ran

include deep unbroken known

theorem good_primary {calls : Bool} (placed : c.Placed text) (room : c.ahead < depth)
    (ran : primary (.upTo n) calls (withSpans strict) c = .ok (e, behind)) :
    Everywhere (denoting text strict depth).Good e.parts := by
  have fresh := fresh_of_primary ran
  rw [run_primary] at ran
  obtain ⟨operand, c', ranBare, ran⟩ := run_bind ran
  obtain ⟨stands', -, read, ⟨bare, shorter⟩, -⟩ :=
    follows_bareOperand (d := c) known.toSided (known.primary false) (fun _ => rfl) operand c'
      ⟨placed, room⟩ ranBare
  have denoted (e : Expr) (behind : Cursor)
      (leads : Leads text strict depth (primary (.upTo depth) true)
        (fun start => subscripts (.upTo depth) e.eraseSpans start true) c behind)
      (own : e.span = spanAt (withSpans strict) behind c.token.span.start) : Denoted text strict e :=
    leads.denoted placed room unbroken (fun start _ ended => subscripts_ended ended start true)
      (fun _ finishes => finishes.unary.ofUnary) own
  have leads : Leads text strict depth (primary (.upTo depth) true)
      (fun start => subscripts (.upTo depth) operand.eraseSpans start true) c c' :=
    Rereads.leads (q := bareOperand (.upTo depth))
      (f := fun start operand => subscripts (.upTo depth) operand start true)
      (rereads_bareOperand deep c.token.span.start) ranBare shorter fresh fun d _ => by
        rw [run_primary, Bool.true_or]
  have good : Everywhere (denoting text strict depth).Good operand.parts := by
    obtain held | made := bare
    · exact held.2
    · exact made.sound (denoted operand c' leads made.span)
  rw [subscripts_eq] at ran
  refine good_loop (r := fun e start => subscripts (.upTo depth) e.eraseSpans start true)
    (consuming_subscriptStep (settling_upTo n) _ _)
    (fun operand c' good => follows_subscriptStep known.toSided good fun _ => rfl)
    (fun operand c' next behind leads stepped consumed => ?_) denoted stands' leads good ran
  refine leads.then (fun start => rereads_subscriptStep deep operand c.token.span.start start)
    (subscriptStep_calls stepped) consumed fun start d d' _ _ stepped' => ?_
  exact loop_more (consuming_subscriptStep (settling_upTo depth) start true)
    (fun _ _ => Nat.le_refl _) stepped'

theorem follows_denoting_primary (calls : Bool) :
    (denoting text strict depth).Follows c d (primary (.upTo n) calls) (primary (.upTo n) calls)
      ((denoting text strict depth).Read Expr.parts c) :=
  follows_denoting (follows_primary (fun _ _ _ => trivial)
    (sided_upTo (fun _ _ _ => trivial) (Nat.le_refl n)) calls) fun _ _ placed room ran =>
      good_primary deep unbroken known placed room ran

theorem good_unary (placed : c.Placed text) (room : c.ahead < depth)
    (ran : unary (.upTo n) true (withSpans strict) c = .ok (e, behind)) :
    Everywhere (denoting text strict depth).Good e.parts := by
  have whole := ran
  have fresh := fresh_of_unary ran
  rw [unary_eq, run_behind (a := c.token.span.start) rfl, run_behind (a := c.token.kind) rfl] at ran
  cases before : operatorBefore c.token.kind with
  | some op =>
    rw [before] at ran
    obtain ⟨-, -, read, ⟨made, shorter⟩, -⟩ :=
      follows_prefixed (d := c) before known.unary (fun _ => rfl) e behind ⟨placed, room⟩ ran
    exact made.sound (denoted_of_rereads (rereads_unary deep) whole shorter fresh placed room unbroken
      (fun _ finishes => finishes.ofUnary) made.span)
  | none =>
    rw [before] at ran
    obtain ⟨operand, c', ranPrimary, ran⟩ := run_bind ran
    obtain ⟨stands', -, read, ⟨⟨-, good⟩, shorter⟩, -⟩ :=
      follows_denoting_primary (d := c) deep unbroken known true operand c' ⟨placed, room⟩ ranPrimary
    have leads : Leads text strict depth (unary (.upTo depth) true)
        (fun start => loop (postfixStep start) operand.eraseSpans) c c' :=
      Rereads.leads (q := fun _ => primary (.upTo depth) true)
        (f := fun start operand => loop (postfixStep start) operand)
        (fun _ => rereads_primary deep) ranPrimary shorter fresh fun d kind => by
          rw [unary_eq, run_behind (a := d.token.span.start) rfl, run_behind (a := d.token.kind) rfl,
            kind, before]
    refine good_loop (r := fun e start => loop (postfixStep start) e.eraseSpans)
      (consuming_postfixStep _) (fun operand c' good => follows_postfixStep (fun _ => rfl) good)
      (fun operand c' next behind leads stepped consumed => ?_) (fun e behind leads own => ?_) stands'
      leads good ran
    · refine leads.then (fun start => rereads_postfixStep operand c.token.span.start start) stepped
        consumed fun start d d' _ _ stepped' => ?_
      exact loop_more (consuming_postfixStep start) (fun _ _ => Nat.le_refl _) stepped'
    · exact leads.denoted placed room unbroken (fun start _ ended => postfix_ended ended start)
        (fun _ finishes => finishes.ofUnary) own

theorem follows_denoting_unary :
    (denoting text strict depth).Follows c d (unary (.upTo n) true) (unary (.upTo n) true)
      ((denoting text strict depth).Read Expr.parts c) :=
  follows_denoting (follows_unary (fun _ _ _ => trivial)
    (sided_upTo (fun _ _ _ => trivial) (Nat.le_refl n)) true) fun _ _ placed room ran =>
      good_unary deep unbroken known placed room ran

/-! ## Operators -/

/-- The first operand of binary operators leads to them. -/
theorem leads_operation {operand : Expr} {noIn : Bool} (placed : c.Placed text)
    (room : c.ahead < depth)
    (ran : unary (.upTo n) true (withSpans strict) c = .ok (operand, c')) :
    Leads text strict depth (operation (.upTo depth) noIn)
      (fun start => operators (.upTo depth) operand.eraseSpans start 0 noIn) c c' := by
  obtain ⟨-, -, -, ⟨-, shorter⟩, -⟩ :=
    follows_denoting_unary (d := c) deep unbroken known operand c' ⟨placed, room⟩ ran
  exact Rereads.leads (q := fun _ => unary (.upTo depth) true)
    (f := fun start operand => operators (.upTo depth) operand start 0 noIn)
    (fun _ => rereads_unary deep) ran shorter (fresh_of_unary ran) fun _ _ => rfl

theorem good_rightOperand {op : BinaryOp} {noIn : Bool} (placed : c.Placed text)
    (room : c.ahead < depth)
    (ran : rightOperand (.upTo n) op noIn (withSpans strict) c = .ok (e, behind)) :
    Everywhere (denoting text strict depth).Good e.parts := by
  unfold rightOperand at ran
  obtain ⟨_, c', advanced, ran⟩ := run_bind ran
  obtain ⟨token, lexer, read, rfl⟩ := advance_ok advanced
  obtain ⟨placed, room⟩ := (denoting text strict depth).stands_advance ⟨placed, room⟩ read
  rw [run_behind (a := token.span.start) rfl] at ran
  obtain ⟨operand, c', ranUnary, ran⟩ := run_bind ran
  obtain ⟨stands', -, -, ⟨⟨-, good⟩, -⟩, -⟩ :=
    follows_denoting_unary (d := c) deep unbroken known operand c' ⟨placed, room⟩ ranUnary
  exact known.operators ⟨placed, room⟩ stands' (leads_operation deep unbroken known placed room ranUnary)
    good ran

/-- Binary operators behind their left operand, to which the text leads. Each of them makes an
expression with its right operand, to which the text leads on. -/
theorem good_operators {left : Expr} {bound : Nat} {noIn : Bool}
    (stands : (denoting text strict depth).Stands c) (stands' : (denoting text strict depth).Stands c')
    (leads : Leads text strict depth (operation (.upTo depth) noIn)
      (fun start => operators (.upTo depth) left.eraseSpans start 0 noIn) c c')
    (good : Everywhere (denoting text strict depth).Good left.parts)
    (ran : operators (.upTo n) left c.token.span.start bound noIn (withSpans strict) c' =
      .ok (e, behind)) : Everywhere (denoting text strict depth).Good e.parts := by
  rw [operators_eq, run_behind (a := c'.token.kind) rfl] at ran
  cases here : binaryOperator noIn c'.token.kind with
  | none =>
    rw [here] at ran
    cases ran
    exact good
  | some op =>
    simp only [here] at ran
    split_ifs at ran with loose
    · cases ran
      exact good
    obtain ⟨right, c'', ranRight, ran⟩ := run_bind ran
    rw [run_behind (run_spanFrom _ _ _)] at ran
    have good' := good_rightOperand deep unbroken known stands'.1 stands'.2 ranRight
    obtain ⟨stands'', -, -, ⟨-, shorter⟩, -⟩ :=
      follows_rightOperand (S := anyReading text strict depth) (d := c') (fun _ _ _ => trivial)
        (sided_upTo (fun _ _ _ => trivial) (Nat.le_refl n)) here right c'' stands' ranRight
    let e' : Expr := .binary (spanAt (withSpans strict) c'' c.token.span.start) op left right
    have leads' : Leads text strict depth (operation (.upTo depth) noIn)
        (fun start => operators (.upTo depth) e'.eraseSpans start 0 noIn) c c'' := by
      refine leads.then (fun _ => rereads_rightOperand deep here) ranRight shorter
        fun start d d' kind room' same => ?_
      have tight : ¬ op.precedence ≤ 0 := by omega
      rw [operators_eq, run_behind (a := d.token.kind) rfl, kind, here]
      simp only [if_neg tight]
      rw [run_behind same, run_behind (run_spanFrom _ _ _)]
      obtain ⟨depth, rfl⟩ := Nat.exists_eq_succ_of_ne_zero (Nat.ne_of_gt (Nat.zero_lt_of_lt room'))
      exact (same_operators (agree_upTo (Nat.le_refl depth) (Nat.le_succ depth))
        (Nat.le_of_lt_succ room') _ _ _ _).eq
    have denoted : Denoted text strict e' :=
      leads'.denoted stands.1 stands.2 unbroken
        (fun start _ ended => operators_ended ended start 0 noIn)
        (fun _ finishes => finishes.ofOperation) rfl
    have made : Everywhere (denoting text strict depth).Good e'.parts := by
      refine everywhere_parts.2 ⟨fun other same => ?_, ?_⟩
      · cases same
        exact denoted
      · exact (everywhere_append _ _).2 ⟨good, good'⟩
    exact known.operators stands stands'' leads' made ran

theorem good_conditional {noIn : Bool} (placed : c.Placed text) (room : c.ahead < depth)
    (ran : conditional (.upTo n) noIn (withSpans strict) c = .ok (e, behind)) :
    Everywhere (denoting text strict depth).Good e.parts := by
  have sided := sided_upTo (S := anyReading text strict depth) (fun _ _ _ => trivial) (Nat.le_refl n)
  have whole := ran
  obtain ⟨-, -, -, ⟨-, shorter⟩, -⟩ :=
    follows_conditional (d := c) (fun _ _ _ => trivial) sided noIn e behind ⟨placed, room⟩ ran
  rw [conditional_eq, run_behind (a := c.token.span.start) rfl] at ran
  obtain ⟨test, c'', ranTest, ran⟩ := run_bind ran
  obtain ⟨operand, c', ranUnary, ranTest⟩ := run_bind ranTest
  obtain ⟨stands', -, -, ⟨⟨-, good⟩, -⟩, -⟩ :=
    follows_denoting_unary (d := c) deep unbroken known operand c' ⟨placed, room⟩ ranUnary
  obtain ⟨stands'', -⟩ := follows_operators (d := c') (fun _ _ _ => trivial) sided (fun _ => rfl) test
    c'' stands' ranTest
  have tested := good_operators deep unbroken known ⟨placed, room⟩ stands'
    (leads_operation deep unbroken known placed room ranUnary) good ranTest
  obtain ⟨-, -, read, rests, -⟩ := follows_conditionalRest (d := c'') known.toSided tested
    (fun _ => rfl) e behind stands'' ran
  obtain ⟨-, made⟩ | ⟨-, rfl⟩ := rests
  · exact made.sound (denoted_of_rereads (rereads_conditional deep noIn) whole shorter
      (fresh_of_unary ranUnary) placed room unbroken (fun _ finishes => finishes.ofConditional) made.span)
  · exact tested

theorem follows_denoting_conditional (noIn : Bool) :
    (denoting text strict depth).Follows c d (conditional (.upTo n) noIn) (conditional (.upTo n) noIn)
      ((denoting text strict depth).Read Expr.parts c) :=
  follows_denoting (follows_conditional (fun _ _ _ => trivial)
    (sided_upTo (fun _ _ _ => trivial) (Nat.le_refl n)) noIn) fun _ _ placed room ran =>
      good_conditional deep unbroken known placed room ran

theorem good_assignment {noIn : Bool} (placed : c.Placed text) (room : c.ahead < depth)
    (ran : assignment (.upTo n) noIn (withSpans strict) c = .ok (e, behind)) :
    Everywhere (denoting text strict depth).Good e.parts := by
  have whole := ran
  have fresh := fresh_of_assignment ran
  obtain ⟨-, -, -, ⟨-, shorter⟩, -⟩ :=
    follows_assignment (S := anyReading text strict depth) (d := c) (fun _ _ _ => trivial)
      (sided_upTo (fun _ _ _ => trivial) (Nat.le_refl n)) noIn e behind ⟨placed, room⟩ ran
  rw [assignment_eq, run_behind (a := c.token.span.start) rfl] at ran
  obtain ⟨target, c', ranTarget, ran⟩ := run_bind ran
  obtain ⟨stands', -, -, ⟨⟨-, good⟩, -⟩, -⟩ :=
    follows_denoting_conditional (d := c) deep unbroken known noIn target c' ⟨placed, room⟩ ranTarget
  obtain ⟨-, -, read, rests, -⟩ := follows_assignmentRest (d := c') (known.assignment noIn) good
    (fun _ => rfl) e behind stands' ran
  obtain ⟨-, made⟩ | ⟨-, rfl⟩ := rests
  · exact made.sound (denoted_of_rereads (rereads_assignment deep noIn) whole shorter fresh placed room
      unbroken (fun _ finishes => (finishes.expression true).anyIn) made.span)
  · exact good

theorem follows_denoting_assignment (noIn : Bool) :
    (denoting text strict depth).Follows c d (assignment (.upTo n) noIn) (assignment (.upTo n) noIn)
      ((denoting text strict depth).Read Expr.parts c) :=
  follows_denoting (follows_assignment (fun _ _ _ => trivial)
    (sided_upTo (fun _ _ _ => trivial) (Nat.le_refl n)) noIn) fun _ _ placed room ran =>
      good_assignment deep unbroken known placed room ran

theorem good_expression {commas noIn : Bool} (placed : c.Placed text) (room : c.ahead < depth)
    (ran : expression (.upTo n) commas noIn (withSpans strict) c = .ok (e, behind)) :
    Everywhere (denoting text strict depth).Good e.parts := by
  have whole := ran
  obtain ⟨-, -, -, ⟨-, shorter⟩, -⟩ :=
    follows_expression (S := anyReading text strict depth) (d := c) (fun _ _ _ => trivial)
      (sided_upTo (fun _ _ _ => trivial) (Nat.le_refl n)) commas noIn e behind ⟨placed, room⟩ ran
  rw [expression_eq, run_behind (a := c.token.span.start) rfl] at ran
  obtain ⟨first, c', ranFirst, ran⟩ := run_bind ran
  obtain ⟨stands', -, -, ⟨⟨-, good⟩, -⟩, -⟩ :=
    follows_denoting_assignment (d := c) deep unbroken known noIn first c' ⟨placed, room⟩ ranFirst
  cases commas with
  | false =>
    cases ran
    exact good
  | true =>
    obtain ⟨-, -, read, rests, -⟩ := follows_sequenceRest (d := c') known.toSided good
      (fun _ => rfl) e behind stands' ran
    obtain ⟨-, made⟩ | ⟨-, rfl⟩ := rests
    · exact made.sound (denoted_of_rereads (rereads_expression deep true noIn) whole shorter
        (fresh_of_assignment ranFirst) placed room unbroken (fun _ finishes => finishes.anyIn) made.span)
    · exact good

theorem follows_denoting_expression (commas noIn : Bool) :
    (denoting text strict depth).Follows c d (expression (.upTo n) commas noIn)
      (expression (.upTo n) commas noIn) ((denoting text strict depth).Read Expr.parts c) :=
  follows_denoting (follows_expression (fun _ _ _ => trivial)
    (sided_upTo (fun _ _ _ => trivial) (Nat.le_refl n)) commas noIn) fun _ _ placed room ran =>
      good_expression deep unbroken known placed room ran

end Sound

/-! ## All depths -/

theorem denoting_upTo (unbroken : ∀ char ∈ text, isForeignBreak char = false) (deep : n ≤ depth) :
    (Rules.upTo n).Denoting text strict depth := by
  induction n with
  | zero =>
    exact
      { settling := settling_upTo 0
        expression := fun _ _ => follows_fails .exhausted rfl
        begins := fun ran => by cases ran
        statement := fun _ => follows_fails .exhausted rfl
        chunk := fun _ => follows_fails .exhausted rfl
        assignment := fun _ => follows_fails .exhausted rfl
        unary := follows_fails .exhausted rfl
        primary := fun _ => follows_fails .exhausted rfl
        operators := fun _ _ _ _ ran => by cases ran }
  | succ n ih =>
    have deep' := Nat.le_of_succ_le deep
    have known := ih deep'
    exact
      { settling := settling_upTo (n + 1)
        expression := fun commas noIn => follows_denoting_expression deep' unbroken known commas noIn
        begins := begins_expression
        statement := fun around => follows_statement known.toSided
          (follows_denoting_expression deep' unbroken known true false) around
        chunk := fun whole => follows_chunk whole known.toSided
        assignment := fun noIn => follows_denoting_assignment deep' unbroken known noIn
        unary := follows_denoting_unary deep' unbroken known
        primary := fun calls => follows_denoting_primary deep' unbroken known calls
        operators := good_operators deep' unbroken known }

/-- A rule that hands on what it reads gives trees of which every span denotes its expression. -/
theorem denoted_run {α : Type} {template : Bool} {source : List Char} {rule : Rules → Parser α}
    {parts : α → List Part} {tree : α}
    (follows : ∀ depth c, (Rules.upTo depth).Denoting (normalize source) strict depth →
      (denoting (normalize source) strict depth).Follows c c (rule (.upTo depth)) (rule (.upTo depth))
        fun read tree _ => (denoting (normalize source) strict depth).Holds parts read tree)
    (read : (run template ⟨true, strict⟩ source rule).mapError (·.toError) = .ok tree) :
    ∀ e, .expr e ∈ parts tree → Denoted (normalize source) strict e := by
  unfold run at read
  cases begun : Cursor.ofSource template source with
  | error failure =>
    rw [begun] at read
    cases read
  | ok c =>
    rw [begun] at read
    change Except.mapError _ (rule _ (withSpans strict) c >>= fun read => .ok read.1) = _ at read
    cases ran : rule (.upTo (c.lexer.rest.length + 2)) (withSpans strict) c with
    | error failure =>
      rw [ran] at read
      cases read
    | ok outcome =>
      obtain ⟨result, behind⟩ := outcome
      rw [ran] at read
      cases read
      have room : c.ahead < c.lexer.rest.length + 2 := by
        unfold Cursor.ahead
        split_ifs <;> omega
      obtain ⟨-, -, parts', known, -⟩ :=
        follows _ c (denoting_upTo (fun _ => normalize_free) (Nat.le_refl _)) result behind
          ⟨⟨inText_ofSource begun, begun_ofSource begun⟩, room⟩ ran
      exact fun e listed => known.2 _ listed e rfl

end Stencil.Grammar

namespace Stencil

open Stencil.Grammar
open Stencil.Syntax
open Stencil.Text

/-- The span of every expression of a template, a script or an expression that is read with spans
denotes that expression: the bytes of the text between its ends, parsed as an expression in the same
strictness, are read as the expression without its spans. -/
theorem spans_denote (strict : Bool) (source : String) :
    (∀ t, parseTemplate ⟨true, strict⟩ source = .ok t →
        ∀ e, .expr e ∈ t.parts → Denoted (normalize source.toList) strict e) ∧
      (∀ script, parseScript ⟨true, strict⟩ source = .ok script →
        ∀ e, .expr e ∈ script.parts → Denoted (normalize source.toList) strict e) ∧
      ∀ whole, parseExpression ⟨true, strict⟩ source = .ok whole →
        ∀ e, .expr e ∈ whole.parts → Denoted (normalize source.toList) strict e := by
  refine ⟨fun t read => ?_, fun script read => ?_, fun whole read => ?_⟩
  · exact denoted_run (fun _ _ known => follows_template whole_denoting known.toSided) read
  · exact denoted_run (fun depth _ known => follows_program known.toSided
      (follows_denoting_expression (Nat.le_refl depth) (fun _ => normalize_free) known true false)) read
  · exact denoted_run (fun depth _ known => follows_wholeExpression whole_denoting
      (follows_denoting_expression (Nat.le_refl depth) (fun _ => normalize_free) known true false)) read

/-- The bytes at which the spans of the expressions among the parts begin and end. -/
def exprBounds (parts : List Part) : List (Nat × Nat) :=
  parts.filterMap fun part =>
    match part with
    | .expr e => e.span.map fun span => (span.start.byte, span.stop.byte)
    | _ => none

/-- An echo whose braces are counted, the head of a loop, in which `in` is no operator but in
parentheses, and a regular expression behind a division. -/
theorem spans_denote_examples :
    (∃ t, parseTemplate ⟨true, false⟩ "é$\x7ba[\x7bb: 1\x7d] / c\x7d" = .ok t ∧
        exprBounds t.parts = [(4, 17), (4, 13), (4, 5), (6, 12), (10, 11), (16, 17)] ∧
        ∀ e, .expr e ∈ t.parts →
          Denoted (normalize "é$\x7ba[\x7bb: 1\x7d] / c\x7d".toList) false e) ∧
      (∃ script, parseScript ⟨true, true⟩ "for (a = (b in c) ? new d(1).e : f; ;) \x7b\x7d" =
          .ok script ∧
        exprBounds script.parts = [(5, 34), (5, 6), (9, 34), (10, 16), (10, 11), (15, 16), (20, 30),
          (20, 28), (24, 25), (26, 27), (33, 34)] ∧
        ∀ e, .expr e ∈ script.parts →
          Denoted (normalize "for (a = (b in c) ? new d(1).e : f; ;) \x7b\x7d".toList) true e) ∧
      ∃ whole, parseExpression ⟨true, false⟩ "a++\n/ /b/g, function () \x7b return\n; \x7d" =
          .ok whole ∧
        exprBounds whole.parts = [(0, 36), (0, 10), (0, 3), (0, 1), (6, 10), (12, 36)] ∧
        ∀ e, .expr e ∈ whole.parts →
          Denoted (normalize "a++\n/ /b/g, function () \x7b return\n; \x7d".toList) false e := by
  refine ⟨?_, ?_, ?_⟩
  · have found : (parseTemplate ⟨true, false⟩ "é$\x7ba[\x7bb: 1\x7d] / c\x7d").toOption.map
        (fun t => exprBounds t.parts) = some [(4, 17), (4, 13), (4, 5), (6, 12), (10, 11), (16, 17)] := by
      decide +kernel
    cases read : parseTemplate ⟨true, false⟩ "é$\x7ba[\x7bb: 1\x7d] / c\x7d" with
    | error error => simp [read, Except.toOption] at found
    | ok t =>
      simp only [read, Except.toOption, Option.map_some, Option.some.injEq] at found
      exact ⟨t, rfl, found, (spans_denote false _).1 t read⟩
  · have found : (parseScript ⟨true, true⟩
        "for (a = (b in c) ? new d(1).e : f; ;) \x7b\x7d").toOption.map
        (fun script => exprBounds script.parts) = some [(5, 34), (5, 6), (9, 34), (10, 16), (10, 11),
          (15, 16), (20, 30), (20, 28), (24, 25), (26, 27), (33, 34)] := by
      decide +kernel
    cases read : parseScript ⟨true, true⟩ "for (a = (b in c) ? new d(1).e : f; ;) \x7b\x7d" with
    | error error => simp [read, Except.toOption] at found
    | ok script =>
      simp only [read, Except.toOption, Option.map_some, Option.some.injEq] at found
      exact ⟨script, rfl, found, (spans_denote true _).2.1 script read⟩
  · have found : (parseExpression ⟨true, false⟩
        "a++\n/ /b/g, function () \x7b return\n; \x7d").toOption.map
        (fun whole => exprBounds whole.parts) =
          some [(0, 36), (0, 10), (0, 3), (0, 1), (6, 10), (12, 36)] := by
      decide +kernel
    cases read : parseExpression ⟨true, false⟩ "a++\n/ /b/g, function () \x7b return\n; \x7d" with
    | error error => simp [read, Except.toOption] at found
    | ok whole =>
      simp only [read, Except.toOption, Option.map_some, Option.some.injEq] at found
      exact ⟨whole, rfl, found, (spans_denote false _).2.2 whole read⟩

end Stencil
