import Stencil.Proofs.Parsing.ClosedExprs
import Stencil.Proofs.Parsing.Openings
/-!
# A slash behind an operand

Whether a slash begins a regular expression is told from the token before it, while only the grammar knows
where an operand ends. The two go together (`slash_divides`), but for words that are used as the names of
members: behind such a word a regular expression begins if one begins behind the word elsewhere
(`division_lost`). So the operand before the slash has to end otherwise, and the text behind it must not
begin with a byte order mark, which is dropped at the start of a source only.
-/

set_option autoImplicit false

namespace Stencil.Syntax

/-- The expression is a primary expression, a member access, a call or a construction: no operator stands
outside of its parts. -/
def Expr.isOperand : Expr → Bool
  | .prefixOp .. | .postfixOp .. | .binary .. | .conditional .. | .assign .. | .seq .. => false
  | _ => true

end Stencil.Syntax

namespace Stencil.Grammar

open Stencil.Syntax
open Stencil.Text (Position normalize)
open Stencil.Grammar.Parser

variable {R : Rules} {o : Options} {c d behind : Cursor} {e : Expr} {noIn : Bool} {start : Position}

/-! ## Operands among expressions -/

section Operand

variable (operand : e.isOperand = true)

include operand

theorem operand_of_sequenceRest {commas : Bool} {first : Expr}
    (ran : sequenceRest R commas noIn start first o c = .ok (e, behind)) : e = first ∧ behind = c := by
  unfold sequenceRest at ran
  rw [run_behind (a := c.token.isPunctuation ',') rfl] at ran
  split_ifs at ran
  · obtain ⟨_, _, -, ran⟩ := run_bind ran
    obtain ⟨_, _, -, ran⟩ := run_bind ran
    obtain ⟨_, _, -, ran⟩ := run_bind ran
    cases ran
    cases operand
  · cases ran
    exact ⟨rfl, rfl⟩

theorem operand_of_assignmentRest {target : Expr}
    (ran : assignmentRest R noIn start target o c = .ok (e, behind)) : e = target ∧ behind = c := by
  unfold assignmentRest at ran
  rw [run_behind (a := c.token.kind) rfl] at ran
  cases here : assignmentOperator c.token.kind with
  | none =>
    rw [here] at ran
    cases ran
    exact ⟨rfl, rfl⟩
  | some op =>
    rw [here] at ran
    dsimp only at ran
    rw [run_behind (a := o) rfl] at ran
    split_ifs at ran
    · cases ran
    · obtain ⟨_, _, -, ran⟩ := run_bind ran
      obtain ⟨_, _, -, ran⟩ := run_bind ran
      obtain ⟨_, _, -, ran⟩ := run_bind ran
      cases ran
      cases operand

theorem operand_of_conditionalRest {test : Expr}
    (ran : conditionalRest R noIn start test o c = .ok (e, behind)) : e = test ∧ behind = c := by
  unfold conditionalRest at ran
  rw [run_behind (a := c.token.isOperator "?") rfl] at ran
  split_ifs at ran
  · obtain ⟨_, _, -, ran⟩ := run_bind ran
    obtain ⟨_, _, -, ran⟩ := run_bind ran
    obtain ⟨_, _, -, ran⟩ := run_bind ran
    obtain ⟨_, _, -, ran⟩ := run_bind ran
    obtain ⟨_, _, -, ran⟩ := run_bind ran
    cases ran
    cases operand
  · cases ran
    exact ⟨rfl, rfl⟩

omit operand in
/-- Either no binary operator is read, or one is, and others may stand behind. -/
theorem operators_cases {bound : Nat} {left : Expr}
    (ran : operators R left start bound noIn o c = .ok (e, behind)) :
    e = left ∧ behind = c ∨ ∃ span op right middle,
      R.operators (.binary span op left right) start bound noIn o middle = .ok (e, behind) := by
  rw [operators_eq, run_behind (a := c.token.kind) rfl] at ran
  cases here : binaryOperator noIn c.token.kind with
  | none =>
    rw [here] at ran
    cases ran
    exact .inl ⟨rfl, rfl⟩
  | some op =>
    rw [here] at ran
    dsimp only at ran
    split_ifs at ran
    · cases ran
      exact .inl ⟨rfl, rfl⟩
    · obtain ⟨right, _, -, ran⟩ := run_bind ran
      obtain ⟨span, middle, -, ran⟩ := run_bind ran
      exact .inr ⟨span, op, right, middle, ran⟩

/-- An operator makes no operand, and neither do others behind it. By induction on the depth. -/
theorem operand_of_operators {n bound : Nat} {left : Expr}
    (ran : operators (Rules.upTo n) left start bound noIn o c = .ok (e, behind)) :
    e = left ∧ behind = c := by
  induction n generalizing left c with
  | zero =>
    obtain same | ⟨_, _, _, _, ran⟩ := operators_cases ran
    · exact same
    · cases ran
  | succ n ih =>
    obtain same | ⟨_, _, _, _, ran⟩ := operators_cases ran
    · exact same
    · obtain ⟨rfl, -⟩ := ih ran
      cases operand

/-- Operators before and behind an operand make none. -/
theorem operand_of_unary {calls : Bool} (ran : unary R calls o c = .ok (e, behind)) :
    primary R calls o c = .ok (e, behind) := by
  rw [unary_eq, run_behind (a := c.token.span.start) rfl, run_behind (a := c.token.kind) rfl] at ran
  cases before : operatorBefore c.token.kind with
  | some op =>
    rw [before] at ran
    obtain ⟨_, _, -, ran⟩ := run_bind ran
    obtain ⟨_, _, -, ran⟩ := run_bind ran
    obtain ⟨_, _, -, ran⟩ := run_bind ran
    obtain ⟨_, _, -, ran⟩ := run_bind ran
    cases ran
    cases operand
  | none =>
    rw [before] at ran
    obtain ⟨first, middle, ran, updated⟩ := run_bind ran
    have kept : Gives o middle (loop (postfixStep c.token.span.start) first) fun result later =>
        result.isOperand = true → result = first ∧ later = middle := by
      refine gives_loop (fun state later => state.isOperand = true → state = first ∧ later = middle)
        (fun state later known => ?_) first fun _ => ⟨rfl, rfl⟩
      unfold Gives Ends
      cases stepped : postfixStep c.token.span.start state o later with
      | error failure => trivial
      | ok outcome =>
        obtain ⟨outcome, last⟩ := outcome
        unfold postfixStep at stepped
        rw [run_behind (a := later.token) rfl] at stepped
        cases here : operatorBehind later.token with
        | none =>
          rw [here] at stepped
          cases stepped
          exact known
        | some op =>
          rw [here] at stepped
          obtain ⟨_, _, -, stepped⟩ := run_bind stepped
          obtain ⟨_, _, -, stepped⟩ := run_bind stepped
          obtain ⟨_, _, -, stepped⟩ := run_bind stepped
          cases stepped
          intro made
          cases made
    obtain ⟨rfl, rfl⟩ := ends_of_run updated kept operand
    exact ran

/-- What a source that is an operand is read by. -/
theorem operand_of_expression {n : Nat}
    (finishes : Finishes (expression (Rules.upTo n) true false) o c e) :
    Finishes (primary (Rules.upTo n) true) o c e := by
  obtain ⟨behind, ran, ended⟩ := finishes
  rw [expression_eq, run_behind (a := c.token.span.start) rfl] at ran
  obtain ⟨_, _, ran, sequence⟩ := run_bind ran
  obtain ⟨rfl, rfl⟩ := operand_of_sequenceRest operand sequence
  rw [assignment_eq, run_behind (a := c.token.span.start) rfl] at ran
  obtain ⟨_, _, ran, assigned⟩ := run_bind ran
  obtain ⟨rfl, rfl⟩ := operand_of_assignmentRest operand assigned
  rw [conditional_eq_operation, run_behind (a := c.token.span.start) rfl] at ran
  obtain ⟨_, _, ran, tested⟩ := run_bind ran
  obtain ⟨rfl, rfl⟩ := operand_of_conditionalRest operand tested
  unfold operation at ran
  rw [run_behind (a := c.token.span.start) rfl] at ran
  obtain ⟨_, _, ran, joined⟩ := run_bind ran
  obtain ⟨rfl, rfl⟩ := operand_of_operators operand joined
  exact ⟨_, operand_of_unary operand ran, ended⟩

end Operand

/-! ## Operands and a slash between them -/

variable {strict : Bool} {text rest : List Char} {n m : Nat}

/-- An operand that has been read alone is read in the same way at the end of another source. -/
theorem Cursor.Opens.finishes {l : Lexer} (opens : c.Opens text)
    (finishes : Finishes (primary (Rules.upTo n) true) (withoutSpans strict) c e)
    (ready : l.Ready true text) :
    ∃ token lexer, l.next = (.ok token, lexer) ∧ ∀ stop m, n ≤ m →
      Finishes (primary (Rules.upTo m) true) (withoutSpans strict) ⟨lexer, token, stop⟩ e := by
  obtain ⟨behind, ran, ended⟩ := finishes
  have ready' : l.Ready true (text ++ []) := by rwa [List.append_nil]
  obtain ⟨token, lexer, read, beside⟩ := opens.alongside ready' (.inl rfl) (.inr rfl)
  refine ⟨token, lexer, read, fun stop m deeper => ?_⟩
  have sided := sided_upTo (S := seamSides [] strict) (fun _ => trivial) (Nat.succ_le_succ deeper)
  obtain ⟨behind', ran', beside'⟩ :=
    (beside stop).carried (sided.primary true) ran (.inr rfl)
  exact ⟨behind', ran', (isEof_congr beside'.kind).trans ended⟩

/-- A slash is no operator behind an operand. -/
theorem operatorBehind_closed {behind : Cursor} (closed : Closer.slash.Closed rest behind) :
    operatorBehind behind.token = none := by
  have kind : behind.token.kind = .operator "/" := closed.kind
  unfold operatorBehind
  rw [kind]
  dsimp only
  split_ifs <;> decide

/-- Two operands with a slash between them are a division. -/
theorem operation_divides {left right : Expr} {token : Token} {lexer : Lexer}
    (ran : primary (Rules.upTo (n + 1)) true (withoutSpans strict) c = .ok (left, behind))
    (closed : Closer.slash.Closed rest behind) (read : behind.lexer.next = (.ok token, lexer))
    (finishes : Finishes (primary (Rules.upTo (n + 1)) true) (withoutSpans strict)
      (behindToken behind token lexer) right) :
    Finishes (operation (Rules.upTo (n + 1)) false) (withoutSpans strict) c
      (.binary none .div left right) := by
  obtain ⟨last, ran', ended⟩ := finishes.unary
  refine ⟨last, ?_, ended⟩
  have known : binaryOperator false behind.token.kind = some .div := by
    rw [show behind.token.kind = .operator "/" from closed.kind]
    decide
  have rest_ (e : Expr) (start : Position) (bound : Nat) :
      (Rules.upTo (n + 1)).operators e start bound false (withoutSpans strict) last = .ok (e, last) :=
    operators_ended ended start bound false
  unfold operation
  rw [run_behind (a := c.token.span.start) rfl,
    run_behind (unary_of_primary ran (operatorBehind_closed closed)), operators_eq,
    run_behind (a := behind.token.kind) rfl, known]
  dsimp only
  rw [if_neg (by decide)]
  have right_ : rightOperand (Rules.upTo (n + 1)) .div false (withoutSpans strict) behind
      = .ok (right, last) := by
    unfold rightOperand
    rw [run_behind (run_advance read), run_behind (a := token.span.start) rfl, run_behind ran']
    exact rest_ right _ _
  rw [run_behind right_, run_behind (run_spanFrom _ _ _)]
  exact rest_ _ _ _

end Stencil.Grammar

namespace Stencil

open Stencil.Grammar
open Stencil.Grammar.Parser
open Stencil.Syntax
open Stencil.Text (normalize unifyBreaks)

/-- Two operands that are refused with a line break and a slash between them. -/
theorem undivided {s t : String}
    (found : (parseExpression ⟨false, false⟩ s).toOption.bind (fun left =>
      (parseExpression ⟨false, false⟩ t).toOption.map fun right => (left.isOperand, right.isOperand,
        (parseExpression ⟨false, false⟩ (s ++ "\n/ " ++ t)).toOption.isSome))
          = some (true, true, false)) :
    ∃ left right error, parseExpression ⟨false, false⟩ s = .ok left ∧ left.isOperand = true ∧
      parseExpression ⟨false, false⟩ t = .ok right ∧ right.isOperand = true ∧
      parseExpression ⟨false, false⟩ (s ++ "\n/ " ++ t) = .error error := by
  cases first : parseExpression ⟨false, false⟩ s with
  | error error => simp [first, Except.toOption] at found
  | ok left =>
    cases second : parseExpression ⟨false, false⟩ t with
    | error error => simp [first, second, Except.toOption] at found
    | ok right =>
      cases both : parseExpression ⟨false, false⟩ (s ++ "\n/ " ++ t) with
      | ok e => simp [first, second, both, Except.toOption] at found
      | error error =>
        simp only [first, second, Except.toOption, Option.bind_some, Option.map_some,
          Option.some.injEq, Prod.mk.injEq] at found
        exact ⟨left, right, error, rfl, found.1, rfl, found.2.1, rfl⟩

end Stencil
