import Stencil.Proofs.Parsing.Closings
/-!
# Expressions that end before a closing parenthesis

An expression that is all of a text is read in the same way when a closing parenthesis stands behind the
text, on a new line. The rules of one depth are followed one by one to the end of the text, given those
that are entered again from within (`Rules.ClosingExprs`), and the depths by induction.
-/

set_option autoImplicit false

namespace Stencil.Grammar

open Stencil.Syntax
open Stencil.Text (Position Span)
open Stencil.Grammar.Parser

variable {closer : Closer} {more rest : List Char} {strict : Bool} {c d : Cursor} {α β : Type}

/-! ## At the end of the text -/

/-- Rules that leave the end of the text, and the closer, where they are. -/
theorem rests_behind {p q : Parser α} {f g : α → Parser β} {a : α} {cold : β → Prop} {before : Prop}
    (stays : ∀ c, c.token.isEof = true → p (withoutSpans strict) c = .ok (a, c))
    (stays' : ∀ d, closer.Closed rest d → q (withoutSpans strict) d = .ok (a, d))
    (next : Rests closer rest strict cold before (f a) (g a)) :
    Rests closer rest strict cold before (p >>= f) (q >>= g) := by
  intro b c behind ended ran fine
  rw [run_behind (stays c ended)] at ran
  obtain ⟨known, second⟩ := next b c behind ended ran fine
  refine ⟨known, fun d closed => ?_⟩
  rw [run_behind (stays' d closed)]
  exact second d closed

/-- A check that passes does so wherever it is made. -/
theorem checkUpdate_ok {o : Options} {op : UnaryOp} {e : Expr} {a : Unit} {behind : Cursor}
    (ran : checkUpdate op e o c = .ok (a, behind)) :
    behind = c ∧ ∀ d, checkUpdate op e o d = .ok ((), d) := by
  unfold checkUpdate at ran ⊢
  rw [run_behind (a := o) rfl] at ran
  split_ifs at ran with bad
  · cases ran
  · cases ran
    refine ⟨rfl, fun d => ?_⟩
    rw [run_behind (a := o) rfl, if_neg bad]
    rfl

/-- Behind a parenthesis that closes there is no operator and no more of a list. -/
structure Quiet (token : Token) : Prop where
  behind : operatorBehind token = none
  binary : ∀ noIn, binaryOperator noIn token.kind = none
  question : token.isOperator "?" = false
  assignment : assignmentOperator token.kind = none
  comma : token.isPunctuation ',' = false

theorem quiet_ended (ended : c.token.isEof = true) : Quiet c.token := by
  have kind := kind_of_isEof ended
  constructor <;> simp [operatorBehind, binaryOperator, assignmentOperator, Token.isOperator,
    Token.isPunctuation, kind]

theorem quiet_closed (closed : Closer.parenthesis.Closed rest d) : Quiet d.token := by
  have kind : d.token.kind = .punctuation ')' := closed.kind
  constructor <;> simp [operatorBehind, binaryOperator, assignmentOperator, Token.isOperator,
    Token.isPunctuation, kind]

section Quiet

variable {R : Rules} {o : Options} {e : Expr} (quiet : Quiet c.token)

include quiet

theorem postfixStep_quiet (start : Position) : postfixStep start e o c = .ok (.inr e, c) := by
  unfold postfixStep
  rw [run_behind (a := c.token) rfl, quiet.behind]
  rfl

theorem operators_quiet (start : Position) (bound : Nat) (noIn : Bool) :
    operators R e start bound noIn o c = .ok (e, c) := by
  unfold operators
  rw [run_behind (a := c.token.kind) rfl, quiet.binary]
  rfl

theorem conditionalRest_quiet (noIn : Bool) (start : Position) :
    conditionalRest R noIn start e o c = .ok (e, c) := by
  unfold conditionalRest
  rw [run_behind (a := c.token.isOperator "?") rfl, quiet.question]
  rfl

theorem assignmentRest_quiet (noIn : Bool) (start : Position) :
    assignmentRest R noIn start e o c = .ok (e, c) := by
  unfold assignmentRest
  rw [run_behind (a := c.token.kind) rfl, quiet.assignment]
  rfl

theorem sequenceRest_quiet (commas noIn : Bool) (start : Position) :
    sequenceRest R commas noIn start e o c = .ok (e, c) := by
  unfold sequenceRest
  rw [run_behind (a := c.token.isPunctuation ',') rfl, quiet.comma, Bool.and_false,
    if_neg (by simp)]
  rfl

end Quiet

/-- A rule that leaves a quiet token where it is. -/
theorem rests_quiet {p q : Parser α} {a : α} {cold : α → Prop} {before : Prop}
    (stays : ∀ c, Quiet c.token → p (withoutSpans strict) c = .ok (a, c))
    (stays' : ∀ d, Quiet d.token → q (withoutSpans strict) d = .ok (a, d))
    (known : cold a → before) : Rests .parenthesis rest strict cold before p q := by
  intro _ c behind ended ran fine
  rw [stays c (quiet_ended ended)] at ran
  cases ran
  exact ⟨known fine, fun d closed => ⟨d, stays' d (quiet_closed closed), closed⟩⟩

/-! ## The levels of expressions -/

/-- The rules that are entered again from within others, when they read the text before a parenthesis to
its end. -/
structure Rules.ClosingExprs (more rest : List Char) (strict : Bool) (R R' : Rules) : Prop extends
    Rules.Closing .parenthesis more rest strict R R' where
  expression : ∀ commas noIn {c d}, Alongside more c d →
    Closes .parenthesis rest strict (fun _ => True) c d (R.expression commas noIn)
      (R'.expression commas noIn)
  assignment : ∀ noIn {c d}, Alongside more c d →
    Closes .parenthesis rest strict (fun _ => True) c d (R.assignment noIn) (R'.assignment noIn)
  operators : ∀ left start start' bound noIn {c d}, Alongside more c d →
    Closes .parenthesis rest strict (fun _ => True) c d (R.operators left start bound noIn)
      (R'.operators left start' bound noIn)
  operators_rest : ∀ left start start' bound noIn,
    Rests .parenthesis rest strict (fun _ => True) True (R.operators left start bound noIn)
      (R'.operators left start' bound noIn)
  unary : ∀ calls {c d}, Alongside more c d →
    Closes .parenthesis rest strict (fun _ => True) c d (R.unary calls) (R'.unary calls)

section Exprs

variable {R R' : Rules} (closing : R.ClosingExprs more rest strict R')
  (begins : Closer.parenthesis.Begins rest more) (alongside : Alongside more c d)

/-- Before a parenthesis every expression may end. -/
theorem endsExpr_parenthesis (e : Expr) : Closer.parenthesis.EndsExpr e := by
  intro slash
  cases slash

/-- An update is checked alike, and nothing is consumed. -/
theorem rests_checkUpdate {op : UnaryOp} {e : Expr} {cold : β → Prop} {before : Prop}
    {f g : Unit → Parser β} (next : Rests closer rest strict cold before (f ()) (g ())) :
    Rests closer rest strict cold before (checkUpdate op e >>= f) (checkUpdate op e >>= g) := by
  intro b c behind ended ran fine
  obtain ⟨_, middle, checked, later⟩ := run_bind ran
  obtain ⟨same, passes⟩ := checkUpdate_ok checked
  subst same
  obtain ⟨known, second⟩ := next b middle behind ended later fine
  refine ⟨known, fun d closed => ?_⟩
  rw [run_behind (passes d)]
  exact second d closed

include begins alongside

omit begins in
theorem closes_checkUpdate {op : UnaryOp} {e : Expr} {cold : β → Prop} {f g : Unit → Parser β}
    (next : Closes closer rest strict cold c d (f ()) (g ())) :
    Closes closer rest strict cold c d (checkUpdate op e >>= f) (checkUpdate op e >>= g) := by
  intro b behind ran ended fine
  obtain ⟨_, middle, checked, later⟩ := run_bind ran
  obtain ⟨same, passes⟩ := checkUpdate_ok checked
  subst same
  rw [run_behind (passes d)]
  exact next b behind later ended fine

theorem closes_postfixStep (operand : Expr) (start start' : Position) :
    Closes .parenthesis rest strict (Sum.elim (fun _ => True) fun _ => True) c d
      (postfixStep start operand) (postfixStep start' operand) := by
  have same : operatorBehind d.token = operatorBehind c.token := by
    unfold operatorBehind
    rw [alongside.kind, alongside.broke]
  unfold postfixStep
  refine closes_looks rfl rfl ?_
  rw [same]
  cases here : operatorBehind c.token with
  | none => exact closes_pure begins alongside
  | some op =>
    refine closes_take begins alongside (going_of_behind here)
      (rests_checkUpdate (rests_spanFrom (rests_pure fun _ slash => by cases slash)))
      fun _ _ alongside _ => closes_checkUpdate alongside ?_
    exact closes_spanFrom (closes_pure begins alongside)

include closing

theorem closes_unary (calls : Bool) :
    Closes .parenthesis rest strict (fun _ => True) c d (unary R calls) (unary R' calls) := by
  rw [unary_eq, unary_eq]
  refine closes_startOfToken fun start start' => closes_kind alongside ?_
  cases here : operatorBefore c.token.kind with
  | some op =>
    refine closes_take begins alongside (going_of_before here)
      (rests_stuck fun _ _ _ ended ran => ?_) fun _ _ alongside _ => ?_
    · rw [going_of_follows (closing.sided.unary calls) ran] at ended
      cases ended
    refine closes_made alongside (closing.sided.unary calls) (closing.unary calls alongside)
      (fun operand => rests_checkUpdate (rests_spanFrom (rests_pure fun _ => trivial)))
      fun operand _ _ _ ran => ?_
    obtain ⟨_, middle, checked, ran⟩ := run_bind ran
    rw [stays_spanFrom ran, (checkUpdate_ok checked).1]
  | none =>
    have all (part : Part) : (seamSides more strict).Good part := trivial
    refine closes_bind alongside (follows_primary all closing.sided calls)
      (closes_primary closing.toClosing begins alongside calls)
      (fun operand => rests_quiet (fun c quiet => loop_done (postfixStep_quiet quiet _))
        (fun d quiet => loop_done (postfixStep_quiet quiet _)) fun _ => endsExpr_parenthesis operand)
      fun operand _ _ alongside _ _ => ?_
    exact closes_loop (consuming_postfixStep start') (fun _ _ => Nat.le_refl _)
      (fun e c' d' => follows_postfixStep unplaced fun _ _ => trivial)
      (fun e c' d' alongside => closes_postfixStep begins alongside e start start')
      (fun e c' ended => postfixStep_quiet (quiet_ended ended) _)
      (fun e d' closed => postfixStep_quiet (quiet_closed closed) _) alongside operand

theorem closes_rightOperand {op : BinaryOp} {noIn : Bool}
    (here : binaryOperator noIn c.token.kind = some op) :
    Closes .parenthesis rest strict (fun _ => True) c d (rightOperand R op noIn)
      (rightOperand R' op noIn) := by
  have all (part : Part) : (seamSides more strict).Good part := trivial
  unfold rightOperand
  refine closes_take begins alongside (going_of_binary here) (rests_never fun _ c _ ended ran => ?_)
    fun _ _ alongside _ => closes_startOfToken fun start start' => ?_
  · rw [run_behind (a := c.token.span.start) rfl] at ran
    obtain ⟨_, _, ran, -⟩ := run_bind ran
    rw [(begins_unary ran).1] at ended
    cases ended
  · exact closes_bind alongside (follows_unary all closing.sided true)
      (closes_unary closing begins alongside true)
      (fun operand => closing.operators_rest operand start start' op.precedence noIn)
      fun operand _ _ alongside _ _ => closing.operators operand start start' op.precedence noIn alongside

theorem closes_operators (left : Expr) (start start' : Position) (bound : Nat) (noIn : Bool) :
    Closes .parenthesis rest strict (fun _ => True) c d (operators R left start bound noIn)
      (operators R' left start' bound noIn) := by
  have all (part : Part) : (seamSides more strict).Good part := trivial
  rw [operators_eq, operators_eq]
  refine closes_kind alongside ?_
  cases here : binaryOperator noIn c.token.kind with
  | none => exact closes_pure begins alongside
  | some op =>
    dsimp only
    split_ifs with loose
    · exact closes_pure begins alongside
    · exact closes_bind alongside (follows_rightOperand all closing.sided here)
        (closes_rightOperand closing begins alongside here)
        (fun right => rests_spanFrom (closing.operators_rest _ start start' bound noIn))
        fun right _ _ alongside _ _ =>
          closes_spanFrom (closing.operators _ start start' bound noIn alongside)

theorem closes_conditionalRest (noIn : Bool) (start start' : Position) (test : Expr) :
    Closes .parenthesis rest strict (fun _ => True) c d (conditionalRest R noIn start test)
      (conditionalRest R' noIn start' test) := by
  have sided := closing.sided.toSided
  have stuck {noIn : Bool} {e : Expr} {c behind : Cursor} (ended : c.token.isEof = true) :
      R.expression false noIn (withoutSpans strict) c ≠ .ok (e, behind) := by
    intro ran
    rw [(sided.begins ran).1] at ended
    cases ended
  unfold conditionalRest
  refine closes_atOperator alongside ?_
  split_ifs with question
  · refine closes_take begins alongside (going_of_operator question)
      (rests_stuck fun _ _ _ ended => stuck ended) fun _ _ alongside _ => ?_
    refine closes_next alongside (sided.expression false false) (fun _ _ _ _ ended ran => ?_)
      fun yes _ _ alongside _ _ => ?_
    · obtain ⟨_, _, ran, -⟩ := run_bind ran
      exact expectPunctuation_ended ended ran
    refine closes_next alongside (follows_expectPunctuation ':') (fun _ _ _ _ ended ran => ?_)
      fun _ _ _ alongside _ _ => ?_
    · obtain ⟨_, _, ran, -⟩ := run_bind ran
      exact stuck ended ran
    exact closes_made alongside (sided.expression false noIn) (closing.expression false noIn alongside)
      (fun no => rests_spanFrom (rests_pure fun _ => trivial)) fun _ _ _ _ ran => stays_spanFrom ran
  · exact closes_pure begins alongside

theorem closes_conditional (noIn : Bool) :
    Closes .parenthesis rest strict (fun _ => True) c d (conditional R noIn)
      (conditional R' noIn) := by
  have all (part : Part) : (seamSides more strict).Good part := trivial
  have resting (test : Expr) (start start' : Position) :
      Rests .parenthesis rest strict (fun _ => True) True (conditionalRest R noIn start test)
        (conditionalRest R' noIn start' test) :=
    rests_quiet (fun c quiet => conditionalRest_quiet quiet noIn _)
      (fun d quiet => conditionalRest_quiet quiet noIn _) fun _ => trivial
  unfold conditional
  refine closes_startOfToken fun start start' => ?_
  refine closes_bind alongside (follows_unary all closing.sided true)
    (closes_unary closing begins alongside true)
    (fun operand => rests_behind (fun c ended => operators_quiet (quiet_ended ended) _ _ _)
      (fun d closed => operators_quiet (quiet_closed closed) _ _ _) (resting operand start start'))
    fun operand _ _ alongside _ _ => ?_
  exact closes_bind alongside (follows_operators all closing.sided unplaced)
    (closes_operators closing begins alongside operand start start' 0 noIn)
    (fun test => resting test start start')
    fun test _ _ alongside _ _ => closes_conditionalRest closing begins alongside noIn start start' test

theorem closes_assignmentRest (noIn : Bool) (start start' : Position) (target : Expr) :
    Closes .parenthesis rest strict (fun _ => True) c d (assignmentRest R noIn start target)
      (assignmentRest R' noIn start' target) := by
  unfold assignmentRest
  refine closes_kind alongside ?_
  cases here : assignmentOperator c.token.kind with
  | none => exact closes_pure begins alongside
  | some op =>
    dsimp only
    refine closes_looks (a := withoutSpans strict) rfl rfl ?_
    split_ifs with bad
    · intro _ _ ran
      cases ran
    · refine closes_take begins alongside (going_of_assignment here)
        (rests_stuck fun _ _ _ ended ran => ?_) fun _ _ alongside _ => ?_
      · rw [going_of_follows (closing.sided.assignment noIn) ran] at ended
        cases ended
      exact closes_made alongside (closing.sided.assignment noIn) (closing.assignment noIn alongside)
        (fun value => rests_spanFrom (rests_pure fun _ => trivial))
        fun _ _ _ _ ran => stays_spanFrom ran

theorem closes_assignment (noIn : Bool) :
    Closes .parenthesis rest strict (fun _ => True) c d (assignment R noIn) (assignment R' noIn) := by
  have all (part : Part) : (seamSides more strict).Good part := trivial
  rw [assignment_eq, assignment_eq]
  refine closes_startOfToken fun start start' => ?_
  exact closes_bind alongside (follows_conditional all closing.sided noIn)
    (closes_conditional closing begins alongside noIn)
    (fun target => rests_quiet (fun c quiet => assignmentRest_quiet quiet noIn _)
      (fun d quiet => assignmentRest_quiet quiet noIn _) fun _ => trivial)
    fun target _ _ alongside _ _ => closes_assignmentRest closing begins alongside noIn start start' target

theorem closes_sequenceRest (commas noIn : Bool) (start start' : Position) (first : Expr) :
    Closes .parenthesis rest strict (fun _ => True) c d (sequenceRest R commas noIn start first)
      (sequenceRest R' commas noIn start' first) := by
  have sided := closing.sided.toSided
  unfold sequenceRest
  refine closes_atPunctuation alongside ?_
  split_ifs with comma
  · refine closes_take begins alongside (going_of_punctuation (Bool.and_eq_true_iff.1 comma).2)
      (rests_stuck fun _ _ _ ended ran => ?_) fun _ _ alongside _ => ?_
    · rw [(sided.begins ran).1] at ended
      cases ended
    exact closes_made alongside (sided.expression true noIn) (closing.expression true noIn alongside)
      (fun others => rests_spanFrom (rests_pure fun _ => trivial))
      fun _ _ _ _ ran => stays_spanFrom ran
  · exact closes_pure begins alongside

theorem closes_expression (commas noIn : Bool) :
    Closes .parenthesis rest strict (fun _ => True) c d (expression R commas noIn)
      (expression R' commas noIn) := by
  have all (part : Part) : (seamSides more strict).Good part := trivial
  rw [expression_eq, expression_eq]
  refine closes_startOfToken fun start start' => ?_
  exact closes_bind alongside (follows_assignment all closing.sided noIn)
    (closes_assignment closing begins alongside noIn)
    (fun first => rests_quiet (fun c quiet => sequenceRest_quiet quiet commas noIn _)
      (fun d quiet => sequenceRest_quiet quiet commas noIn _) fun _ => trivial)
    fun first _ _ alongside _ _ =>
      closes_sequenceRest closing begins alongside commas noIn start start' first

end Exprs

/-! ## All depths -/

/-- Up to every depth operands are read to the end of the text. By induction on the depth of the first
run. -/
theorem closing_upTo (begins : closer.Begins rest more) {n m : Nat} (deeper : n ≤ m) :
    (Rules.upTo n).Closing closer more rest strict (Rules.upTo m) := by
  induction n generalizing m with
  | zero =>
    refine ⟨sided_upTo (fun _ => trivial) deeper, fun calls c d _ a behind ran => ?_⟩
    cases ran
  | succ n ih =>
    obtain ⟨m, rfl⟩ := Nat.exists_eq_succ_of_ne_zero (Nat.ne_of_gt (Nat.lt_of_lt_of_le n.succ_pos deeper))
    exact ⟨sided_upTo (fun _ => trivial) deeper, fun calls c d alongside =>
      closes_primary (ih (Nat.le_of_succ_le_succ deeper)) begins alongside calls⟩

/-- Up to every depth expressions are read to the end of the text before a parenthesis. -/
theorem closingExprs_upTo (begins : Closer.parenthesis.Begins rest more) {n m : Nat}
    (deeper : n ≤ m) : (Rules.upTo n).ClosingExprs more rest strict (Rules.upTo m) := by
  induction n generalizing m with
  | zero =>
    refine ⟨closing_upTo begins deeper, ?_, ?_, ?_, ?_, ?_⟩
    · intro commas noIn c d _ a behind ran
      cases ran
    · intro noIn c d _ a behind ran
      cases ran
    · intro left start start' bound noIn c d _ a behind ran
      cases ran
    · intro left start start' bound noIn a c behind _ ran
      cases ran
    · intro calls c d _ a behind ran
      cases ran
  | succ n ih =>
    obtain ⟨m, rfl⟩ := Nat.exists_eq_succ_of_ne_zero (Nat.ne_of_gt (Nat.lt_of_lt_of_le n.succ_pos deeper))
    have closing := ih (Nat.le_of_succ_le_succ deeper)
    exact ⟨closing_upTo begins deeper,
      fun commas noIn c d alongside => closes_expression closing begins alongside commas noIn,
      fun noIn c d alongside => closes_assignment closing begins alongside noIn,
      fun left start start' bound noIn c d alongside =>
        closes_operators closing begins alongside left start start' bound noIn,
      fun left start start' bound noIn => rests_quiet
        (fun c quiet => operators_quiet quiet start bound noIn)
        (fun d quiet => operators_quiet quiet start' bound noIn) fun _ => trivial,
      fun calls c d alongside => closes_unary closing begins alongside calls⟩

end Stencil.Grammar
