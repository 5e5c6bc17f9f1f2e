import Stencil.Proofs.Parsing.Erasing
import Stencil.Proofs.Parsing.Levels
/-!
# Rules that end alike with spans and without

Every rule of the grammar, run with spans and without, ends alike (`Erases`): the tree read without
spans is the tree read with spans, erased. Spans are asked for in two places only. Trees carry them,
and an iteration that binds something other than a name reports where that expression stands; so the
place of that error depends on the spans, but not its kind or its wording.

The rules of one depth are followed one by one, given those that are entered again from within
(`Rules.Spanless`), and the depths by induction.
-/

set_option autoImplicit false
set_option linter.unusedSectionVars false

namespace Stencil.Grammar

open Stencil.Error (Fault ParseError)
open Stencil.Syntax
open Stencil.Text (Position Span)
open Stencil.Grammar.Parser

/-- The rules that are entered again from within others end alike with spans and without. The left
operand that is given to binary operators was read with spans the one time and without the other. -/
structure Rules.Spanless (R : Rules) : Prop where
  expression : ∀ {strict c} commas noIn,
    Erases strict c Expr.eraseSpans (R.expression commas noIn) (R.expression commas noIn)
  assignment : ∀ {strict c} noIn,
    Erases strict c Expr.eraseSpans (R.assignment noIn) (R.assignment noIn)
  operators : ∀ {strict c} left start bound noIn,
    Erases strict c Expr.eraseSpans (R.operators left start bound noIn)
      (R.operators left.eraseSpans start bound noIn)
  unary : ∀ {strict c} calls, Erases strict c Expr.eraseSpans (R.unary calls) (R.unary calls)
  primary : ∀ {strict c} calls, Erases strict c Expr.eraseSpans (R.primary calls) (R.primary calls)
  statement : ∀ {strict c} around,
    Erases strict c Stmt.eraseSpans (R.statement around) (R.statement around)
  chunk : ∀ {strict c}, Erases strict c Chunk.eraseSpans R.chunk R.chunk

/-- What may be assigned to does not depend on spans. -/
@[simp] theorem isAssignable_eraseSpans (strict : Bool) (e : Expr) :
    isAssignable strict e.eraseSpans = isAssignable strict e := by
  cases e <;> rfl

/-- Adding a statement to the last branch, without spans. -/
theorem addToLast_erase (statement : Stmt) (cases : List SwitchCase) :
    addToLast statement.eraseSpans (cases.map SwitchCase.eraseSpans) =
      (addToLast statement cases).map SwitchCase.eraseSpans := by
  fun_induction addToLast statement cases with
  | case1 => rfl
  | case2 test body => simp [addToLast]
  | case3 first rest several ih =>
    obtain ⟨test, body⟩ := first
    cases rest with
    | nil => exact (several test body rfl rfl).elim
    | cons second rest => simpa [addToLast] using ih

section Rules

variable {strict : Bool} {c : Cursor}

/-- An update is refused with spans where it is refused without. -/
theorem erases_checkUpdate (op : UnaryOp) (operand : Expr) :
    Erases strict c id (checkUpdate op operand) (checkUpdate op operand.eraseSpans) := by
  unfold checkUpdate
  simp only [erases_read, isAssignable_eraseSpans]
  show Erases strict c id (if op.isUpdate && !isAssignable strict operand then _ else _)
    (if op.isUpdate && !isAssignable strict operand then _ else _)
  split_ifs
  · exact erases_faultHere _
  · exact erases_pure rfl

/-- The names that an iteration binds. An offender without a span is reported where the list begins,
so the two errors may stand at different places. -/
theorem erases_bindingNames (listSpan : Span) (items : List Expr) :
    Erases strict c id (bindingNames listSpan items)
      (bindingNames listSpan (items.map Expr.eraseSpans)) := by
  induction items with
  | nil => exact erases_pure rfl
  | cons item rest ih =>
    cases item with
    | name => exact ih.then fun _ _ => erases_pure rfl
    | _ => exact erases_ofFault .bindingNotName _ _

variable {R : Rules} (spanless : R.Spanless)

include spanless

/-! ## Expressions -/

/-- One expression of a list, or what stands in its place. -/
theorem erases_item (closing : Char) (trailing gaps : Bool) (items : List Expr) :
    Erases strict c (Sum.map (List.map Expr.eraseSpans) (List.map Expr.eraseSpans))
      (do
        if trailing && (← atPunctuation closing) then return .inr items
        if gaps && (← atPunctuation ',') then return .inl (items ++ [.atom none .undefined])
        return .inl (items ++ [← R.expression false false]) : Parser (List Expr ⊕ List Expr))
      (do
        let items := items.map Expr.eraseSpans
        if trailing && (← atPunctuation closing) then return .inr items
        if gaps && (← atPunctuation ',') then return .inl (items ++ [.atom none .undefined])
        return .inl (items ++ [← R.expression false false])) := by
  simp only [erases_atPunctuation]
  split_ifs
  · exact erases_pure rfl
  · simp only [erases_atPunctuation]
    split_ifs
    · exact erases_pure (by simp)
    · exact (spanless.expression false false).bind fun _ _ => erases_pure (by simp)

theorem erases_expressionList (closing : Char) (trailing gaps : Bool) :
    Erases strict c (List.map Expr.eraseSpans) (expressionList R closing trailing gaps)
      (expressionList R closing trailing gaps) := by
  unfold expressionList
  apply Erases.bind
  · apply erases_loop (List.map Expr.eraseSpans) rfl
    intro items behind
    simp only [erases_atPunctuation, List.isEmpty_map]
    split_ifs
    · exact erases_pure rfl
    · exact (erases_expectPunctuation ',').then fun _ _ =>
        erases_item spanless closing trailing gaps items
    · exact erases_item spanless closing trailing gaps items
  · intro items behind
    exact erases_advance.then fun _ _ => erases_pure rfl

theorem erases_block (around : Surroundings) :
    Erases strict c (List.map Stmt.eraseSpans) (block R around) (block R around) := by
  unfold block
  apply (erases_expectPunctuation '\x7b').then
  intro _ inside
  apply Erases.bind
  · apply erases_loop (List.map Stmt.eraseSpans) rfl
    intro body behind
    simp only [erases_atPunctuation]
    split_ifs
    · exact erases_pure rfl
    · simp only [erases_current]
      split_ifs
      · exact erases_fails fun _ => rfl
      · exact (spanless.statement around).bind fun _ _ => erases_pure (by simp)
  · intro body behind
    exact erases_advance.then fun _ _ => erases_pure rfl

theorem erases_function (declaration : Bool) :
    Erases strict c Function.eraseSpans (function R declaration) (function R declaration) := by
  unfold function
  have behind (name : Option String) (c' : Cursor) :
      Erases strict c' Function.eraseSpans
        (do
          expectPunctuation '('
          let names ← parameters
          return .mk name names (← block R .ofFunction) : Parser Function)
        (do
          expectPunctuation '('
          let names ← parameters
          return .mk name names (← block R .ofFunction)) :=
    (erases_expectPunctuation '(').then fun _ _ => erases_parameters.then fun _ _ =>
      (erases_block spanless .ofFunction).bind fun _ _ => erases_pure (by simp)
  simp only [erases_currentKind]
  split
  · exact erases_advance.then fun _ c' => behind _ c'
  · split_ifs
    · exact erases_fails fun _ => rfl
    · exact behind none c

theorem erases_property : Erases strict c Property.eraseSpans (property R) (property R) := by
  unfold property
  simp only [erases_currentKind]
  apply erases_propertyKey.then
  intro key behind
  simp only [erases_atPunctuation]
  split
  · exact erases_anyName.then fun key _ =>
      (erases_function spanless false).bind fun _ _ => erases_pure rfl
  · exact erases_anyName.then fun key _ =>
      (erases_function spanless false).bind fun _ _ => erases_pure rfl
  · exact (erases_expectPunctuation ':').then fun _ _ =>
      (spanless.expression false false).bind fun _ _ => erases_pure rfl

theorem erases_objectBody :
    Erases strict c (List.map Property.eraseSpans) (objectBody R) (objectBody R) := by
  unfold objectBody
  have property (properties : List Property) (behind : Cursor) :
      Erases strict behind
        (Sum.map (List.map Property.eraseSpans) (List.map Property.eraseSpans))
        (do
          if !strict && (← atPunctuation '\x7d') then return .inr properties
          return .inl (properties ++ [← property R]) : Parser (List Property ⊕ List Property))
        (do
          let properties := properties.map Property.eraseSpans
          if !strict && (← atPunctuation '\x7d') then return .inr properties
          return .inl (properties ++ [← property R])) := by
    simp only [erases_atPunctuation]
    split_ifs
    · exact erases_pure rfl
    · exact (erases_property spanless).bind fun _ _ => erases_pure (by simp)
  simp only [erases_read]
  apply Erases.bind
  · apply erases_loop (List.map Property.eraseSpans) rfl
    intro properties behind
    simp only [erases_atPunctuation, List.isEmpty_map]
    split_ifs
    · exact erases_pure rfl
    · exact (erases_expectPunctuation ',').then fun _ behind => property properties behind
    · exact property properties behind
  · intro properties behind
    exact erases_advance.then fun _ _ => erases_pure rfl

theorem erases_subscriptStep (operand : Expr) (start : Position) (calls : Bool) :
    Erases strict c (Sum.map Expr.eraseSpans Expr.eraseSpans) (subscriptStep R start calls operand)
      (subscriptStep R start calls operand.eraseSpans) := by
  unfold subscriptStep
  simp only [erases_atPunctuation]
  split_ifs
  · exact erases_advance.then fun _ _ => erases_anyName.then fun _ _ =>
      erases_spanFrom.2 (erases_pure rfl)
  simp only [erases_atPunctuation]
  split_ifs
  · exact erases_advance.then fun _ _ => (spanless.expression true false).bind fun _ _ =>
      (erases_expectPunctuation ']').then fun _ _ => erases_spanFrom.2 (erases_pure rfl)
  simp only [erases_atPunctuation]
  split_ifs
  · exact erases_advance.then fun _ _ => (erases_expressionList spanless ')' false false).bind
      fun _ _ => erases_spanFrom.2 (erases_pure (by simp))
  · exact erases_pure rfl

theorem erases_subscripts (operand : Expr) (start : Position) (calls : Bool) :
    Erases strict c Expr.eraseSpans (subscripts R operand start calls)
      (subscripts R operand.eraseSpans start calls) := by
  rw [subscripts_eq, subscripts_eq]
  exact erases_loop Expr.eraseSpans rfl fun operand _ =>
    erases_subscriptStep spanless operand start calls

theorem erases_newOperand (start : Position) :
    Erases strict c Expr.eraseSpans (newOperand R start) (newOperand R start) := by
  unfold newOperand
  apply (spanless.primary false).bind
  intro callee behind
  simp only [erases_atPunctuation]
  split_ifs
  · apply erases_advance.then
    intro _ _
    apply (erases_expressionList spanless ')' false false).bind
    intro args _
    exact erases_spanFrom.2 (erases_pure (by simp))
  · simp only [erases_pureBind]
    exact erases_spanFrom.2 (erases_pure (by simp))

theorem erases_newExpression (start : Position) :
    Erases strict c Expr.eraseSpans (newExpression R start) (newExpression R start) := by
  rw [newExpression_eq]
  exact (erases_newOperand spanless start).bind fun operand _ =>
    erases_subscripts spanless operand start true

theorem erases_atom (start : Position) :
    Erases strict c Expr.eraseSpans (atom R start) (atom R start) := by
  unfold atom
  simp only [erases_currentKind]
  split
  · refine erases_advance.then fun _ _ => erases_read.2 ?_
    exact (erases_expressionList spanless ']' (!strict) true).bind fun _ _ =>
      erases_spanFrom.2 (erases_pure (by simp))
  · exact erases_advance.then fun _ _ => (erases_objectBody spanless).bind fun _ _ =>
      erases_spanFrom.2 (erases_pure (by simp))
  · exact erases_advance.then fun _ _ => (erases_function spanless false).bind fun _ _ =>
      erases_spanFrom.2 (erases_pure rfl)
  · exact erases_advance.then fun _ _ => erases_spanFrom.2 (erases_pure rfl)
  · exact erases_advance.then fun _ _ => erases_spanFrom.2 (erases_pure rfl)
  · exact erases_advance.then fun _ _ => erases_spanFrom.2 (erases_pure rfl)
  · exact erases_advance.then fun _ _ => erases_spanFrom.2 (erases_pure rfl)
  · exact erases_advance.then fun _ _ => erases_spanFrom.2 (erases_pure rfl)
  · exact erases_unexpected

theorem erases_primary (calls : Bool) :
    Erases strict c Expr.eraseSpans (primary R calls) (primary R calls) := by
  unfold primary
  simp only [erases_startOfToken, erases_atOperator]
  split_ifs
  · exact erases_advance.then fun _ _ => erases_newExpression spanless _
  · simp only [erases_atPunctuation]
    split_ifs
    · apply erases_advance.then
      intro _ _
      apply (spanless.expression true false).bind
      intro inner _
      exact (erases_expectPunctuation ')').then fun _ _ => erases_subscripts spanless inner _ calls
    · exact (erases_atom spanless _).bind fun operand _ =>
        erases_subscripts spanless operand _ calls

theorem erases_bareOperand (start : Position) :
    Erases strict c Expr.eraseSpans (bareOperand R start) (bareOperand R start) := by
  unfold bareOperand
  simp only [erases_atOperator]
  split_ifs
  · exact erases_advance.then fun _ _ => erases_newOperand spanless start
  · simp only [erases_atPunctuation]
    split_ifs
    · exact erases_advance.then fun _ _ => (spanless.expression true false).bind fun _ _ =>
        (erases_expectPunctuation ')').then fun _ _ => erases_pure rfl
    · exact erases_atom spanless start

omit spanless in
theorem erases_postfixStep (operand : Expr) (start : Position) :
    Erases strict c (Sum.map Expr.eraseSpans Expr.eraseSpans) (postfixStep start operand)
      (postfixStep start operand.eraseSpans) := by
  unfold postfixStep
  simp only [erases_current]
  split
  · next op _ =>
    exact erases_advance.then fun _ _ => (erases_checkUpdate op operand).then fun _ _ =>
      erases_spanFrom.2 (erases_pure rfl)
  · exact erases_pure rfl

theorem erases_unary (calls : Bool) :
    Erases strict c Expr.eraseSpans (unary R calls) (unary R calls) := by
  rw [unary_eq]
  simp only [erases_startOfToken, erases_currentKind]
  split
  · next op _ =>
    apply erases_advance.then
    intro _ _
    apply (spanless.unary calls).bind
    intro operand _
    exact (erases_checkUpdate op operand).then fun _ _ => erases_spanFrom.2 (erases_pure rfl)
  · apply (erases_primary spanless calls).bind
    intro operand _
    exact erases_loop Expr.eraseSpans rfl fun operand _ => erases_postfixStep operand _

theorem erases_rightOperand (op : BinaryOp) (noIn : Bool) :
    Erases strict c Expr.eraseSpans (rightOperand R op noIn) (rightOperand R op noIn) := by
  unfold rightOperand
  apply erases_advance.then
  intro _ _
  simp only [erases_startOfToken]
  apply (erases_unary spanless true).bind
  intro operand _
  exact spanless.operators operand _ op.precedence noIn

theorem erases_operators (left : Expr) (start : Position) (bound : Nat) (noIn : Bool) :
    Erases strict c Expr.eraseSpans (operators R left start bound noIn)
      (operators R left.eraseSpans start bound noIn) := by
  rw [operators_eq, operators_eq]
  simp only [erases_currentKind]
  split
  · exact erases_pure rfl
  · next op _ =>
    split_ifs
    · exact erases_pure rfl
    · apply (erases_rightOperand spanless op noIn).bind
      intro right _
      rw [erases_spanFrom]
      exact spanless.operators (.binary _ op left right) start bound noIn

theorem erases_conditional (noIn : Bool) :
    Erases strict c Expr.eraseSpans (conditional R noIn) (conditional R noIn) := by
  unfold conditional
  simp only [erases_startOfToken]
  apply (erases_unary spanless true).bind
  intro operand _
  apply (erases_operators spanless operand _ 0 noIn).bind
  intro test _
  simp only [erases_atOperator]
  split_ifs
  · apply erases_advance.then
    intro _ _
    apply (spanless.expression false false).bind
    intro yes _
    apply (erases_expectPunctuation ':').then
    intro _ _
    exact (spanless.expression false noIn).bind fun no _ => erases_spanFrom.2 (erases_pure rfl)
  · exact erases_pure rfl

theorem erases_assignment (noIn : Bool) :
    Erases strict c Expr.eraseSpans (assignment R noIn) (assignment R noIn) := by
  unfold assignment
  simp only [erases_startOfToken]
  apply (erases_conditional spanless noIn).bind
  intro target behind
  simp only [erases_currentKind]
  split
  · exact erases_pure rfl
  · next op _ =>
    simp only [erases_read, isAssignable_eraseSpans]
    show Erases strict behind _ (if !isAssignable strict target then _ else _)
      (if !isAssignable strict target then _ else _)
    split_ifs
    · exact erases_fails fun _ => rfl
    · exact erases_advance.then fun _ _ => (spanless.assignment noIn).bind fun _ _ =>
        erases_spanFrom.2 (erases_pure rfl)

theorem erases_expression (commas noIn : Bool) :
    Erases strict c Expr.eraseSpans (expression R commas noIn) (expression R commas noIn) := by
  unfold expression
  simp only [erases_startOfToken]
  apply (erases_assignment spanless noIn).bind
  intro first _
  simp only [erases_atPunctuation]
  split_ifs
  · exact erases_advance.then fun _ _ => (spanless.expression true noIn).bind fun _ _ =>
      erases_spanFrom.2 (erases_pure rfl)
  · exact erases_pure rfl

theorem erases_definitions (noIn : Bool) :
    Erases strict c (List.map VarDef.eraseSpans) (definitions R noIn) (definitions R noIn) := by
  unfold definitions
  apply erases_loop (List.map VarDef.eraseSpans) rfl
  intro defs behind
  have finish {defs defs' : List VarDef} (erased : defs' = defs.map VarDef.eraseSpans)
      (c' : Cursor) :
      Erases strict c' (Sum.map (List.map VarDef.eraseSpans) (List.map VarDef.eraseSpans))
        (do if ← atPunctuation ',' then advance; return .inl defs else return .inr defs :
          Parser (List VarDef ⊕ List VarDef))
        (do if ← atPunctuation ',' then advance; return .inl defs' else return .inr defs') := by
    subst erased
    simp only [erases_atPunctuation]
    split_ifs
    · exact erases_advance.then fun _ _ => erases_pure rfl
    · exact erases_pure rfl
  apply erases_plainName.then
  intro name _
  simp only [erases_atOperator]
  split_ifs
  · apply erases_advance.then
    intro _ _
    apply (spanless.expression false noIn).bind
    intro value c'
    exact finish (by simp) c'
  · exact finish (by simp) _

theorem erases_parenthesised :
    Erases strict c Expr.eraseSpans (parenthesised R) (parenthesised R) := by
  unfold parenthesised
  exact (erases_expectPunctuation '(').then fun _ _ => (spanless.expression true false).bind
    fun _ _ => (erases_expectPunctuation ')').then fun _ _ => erases_pure rfl

/-! ## Statements -/

theorem erases_expressionStatement (start : Position) :
    Erases strict c Stmt.eraseSpans (expressionStatement R start)
      (expressionStatement R start) := by
  unfold expressionStatement
  exact (erases_expression spanless true false).bind fun _ _ => erases_semicolon.then fun _ _ =>
    erases_spanFrom.2 (erases_pure rfl)

theorem erases_labelledStatement (around : Surroundings) (start : Position) (label : String) :
    Erases strict c Stmt.eraseSpans (labelledStatement R around start label)
      (labelledStatement R around start label) := by
  unfold labelledStatement
  split_ifs
  · exact erases_fails fun _ => rfl
  · exact (spanless.statement _).bind fun _ _ => erases_spanFrom.2 (erases_pure rfl)

theorem erases_doStatement (around : Surroundings) (start : Position) :
    Erases strict c Stmt.eraseSpans (doStatement R around start) (doStatement R around start) := by
  unfold doStatement
  apply (spanless.statement around.looping).bind
  intro body behind
  simp only [erases_atKeyword]
  split_ifs
  · exact erases_fails fun _ => rfl
  · exact erases_advance.then fun _ _ => (erases_parenthesised spanless).bind fun _ _ =>
      erases_semicolon.then fun _ _ => erases_spanFrom.2 (erases_pure rfl)

theorem erases_optionalBefore (closing : Char) :
    Erases strict c eraseOptional (optionalBefore R closing) (optionalBefore R closing) := by
  unfold optionalBefore
  simp only [erases_atPunctuation]
  split_ifs
  · exact erases_pure rfl
  · exact (spanless.expression true false).bind fun _ _ => erases_pure rfl

theorem erases_conditionalFor (around : Surroundings) (start : Position) (head : Option ForHead) :
    Erases strict c Stmt.eraseSpans (conditionalFor R around start head)
      (conditionalFor R around start (head.map ForHead.eraseSpans)) := by
  unfold conditionalFor
  apply (erases_expectPunctuation ';').then
  intro _ _
  apply (erases_optionalBefore spanless ';').bind
  intro test _
  apply (erases_expectPunctuation ';').then
  intro _ _
  apply (erases_optionalBefore spanless ')').bind
  intro step _
  apply (erases_expectPunctuation ')').then
  intro _ _
  apply (spanless.statement around.looping).bind
  intro body _
  exact erases_spanFrom.2 (erases_pure (by cases head <;> rfl))

theorem erases_iteratingFor (around : Surroundings) (start : Position) (head : ForHead) :
    Erases strict c Stmt.eraseSpans (iteratingFor R around start head)
      (iteratingFor R around start head.eraseSpans) := by
  have iterating (c' : Cursor) :
      Erases strict c' Stmt.eraseSpans
        (do
          advance
          let object ← R.expression true false
          expectPunctuation ')'
          let body ← R.statement around.looping
          return .forIn (← spanFrom start) head object body)
        (do
          advance
          let object ← R.expression true false
          expectPunctuation ')'
          let body ← R.statement around.looping
          return .forIn (← spanFrom start) head.eraseSpans object body) :=
    erases_advance.then fun _ _ => (spanless.expression true false).bind fun _ _ =>
      (erases_expectPunctuation ')').then fun _ _ =>
        (spanless.statement around.looping).bind fun _ _ => erases_spanFrom.2 (erases_pure rfl)
  unfold iteratingFor
  -- several variables are refused, and erasing spans does not change how many there are
  cases head with
  | expr _ => exact erases_pureBind.2 (iterating c)
  | var defs =>
    cases defs with
    | nil => exact erases_pureBind.2 (iterating c)
    | cons _ others =>
      cases others with
      | nil => exact erases_pureBind.2 (iterating c)
      | cons _ _ => exact erases_fails fun _ => rfl

theorem erases_forStatement (around : Surroundings) (start : Position) :
    Erases strict c Stmt.eraseSpans (forStatement R around start)
      (forStatement R around start) := by
  unfold forStatement
  apply (erases_expectPunctuation '(').then
  intro _ inside
  have behind (head : ForHead) (c' : Cursor) :
      Erases strict c' Stmt.eraseSpans
        (do
          if ← atOperator "in" then iteratingFor R around start head
          else conditionalFor R around start (some head))
        (do
          if ← atOperator "in" then iteratingFor R around start head.eraseSpans
          else conditionalFor R around start (some head.eraseSpans)) := by
    simp only [erases_atOperator]
    split_ifs
    · exact erases_iteratingFor spanless around start head
    · exact erases_conditionalFor spanless around start (some head)
  simp only [erases_atPunctuation]
  split_ifs
  · exact erases_conditionalFor spanless around start none
  · simp only [erases_atKeyword]
    split_ifs
    · apply erases_advance.then
      intro _ _
      apply (erases_definitions spanless true).bind
      intro defs c'
      simpa using behind (.var defs) c'
    · apply (spanless.expression true true).bind
      intro value c'
      exact behind (.expr value) c'

theorem erases_ifStatement (around : Surroundings) (start : Position) :
    Erases strict c Stmt.eraseSpans (ifStatement R around start) (ifStatement R around start) := by
  unfold ifStatement
  apply (erases_parenthesised spanless).bind
  intro condition _
  apply (spanless.statement around).bind
  intro thenBranch _
  simp only [erases_atKeyword]
  split_ifs
  · exact erases_advance.then fun _ _ => (spanless.statement around).bind fun _ _ =>
      erases_pureBind.2 (erases_spanFrom.2 (erases_pure rfl))
  · exact erases_pureBind.2 (erases_spanFrom.2 (erases_pure rfl))

theorem erases_returnStatement (around : Surroundings) (start : Position) :
    Erases strict c Stmt.eraseSpans (returnStatement R around start)
      (returnStatement R around start) := by
  unfold returnStatement
  split_ifs
  · exact erases_fails fun _ => rfl
  · simp only [erases_atPunctuation, erases_mayOmitSemicolon]
    split_ifs
    · exact erases_advance.then fun _ _ => erases_pureBind.2 (erases_spanFrom.2 (erases_pure rfl))
    · exact erases_pureBind.2 (erases_spanFrom.2 (erases_pure rfl))
    · exact (spanless.expression true false).bind fun _ _ => erases_semicolon.then fun _ _ =>
        erases_pureBind.2 (erases_spanFrom.2 (erases_pure rfl))

theorem erases_switchStatement (around : Surroundings) (start : Position) :
    Erases strict c Stmt.eraseSpans (switchStatement R around start)
      (switchStatement R around start) := by
  unfold switchStatement
  apply (erases_parenthesised spanless).bind
  intro discriminant _
  apply (erases_expectPunctuation '\x7b').then
  intro _ _
  apply Erases.bind
  · apply erases_loop (List.map SwitchCase.eraseSpans) rfl
    intro cases behind
    simp only [erases_atPunctuation, erases_atKeyword, erases_ite, List.isEmpty_map]
    split_ifs
    · exact erases_pure rfl
    · exact erases_advance.then fun _ _ => (spanless.expression true false).bind fun _ _ =>
        (erases_expectPunctuation ':').then fun _ _ => erases_pure (by simp)
    · exact erases_advance.then fun _ _ =>
        (erases_expectPunctuation ':').then fun _ _ => erases_pure (by simp)
    · exact erases_fails fun _ => rfl
    · exact (spanless.statement around.looping).bind fun statement _ =>
        erases_pure (congrArg Sum.inl (addToLast_erase statement cases))
  · intro cases _
    exact erases_advance.then fun _ _ => erases_spanFrom.2 (erases_pure (by simp))

theorem erases_tryStatement (around : Surroundings) (start : Position) :
    Erases strict c Stmt.eraseSpans (tryStatement R around start)
      (tryStatement R around start) := by
  unfold tryStatement
  apply (erases_block spanless around).bind
  intro body behind
  have finish (handler : Option Handler) (finalizer : Option (List Stmt)) (c' : Cursor) :
      Erases strict c' Stmt.eraseSpans
        (do
          if handler.isNone && finalizer.isNone then faultHere .bareTry
          return .tryCatch (← spanFrom start) body handler finalizer : Parser Stmt)
        (do
          let handler := handler.map Handler.eraseSpans
          let finalizer := finalizer.map (List.map Stmt.eraseSpans)
          if handler.isNone && finalizer.isNone then faultHere .bareTry
          return .tryCatch (← spanFrom start) (body.map Stmt.eraseSpans) handler finalizer) := by
    simp only [Option.isNone_map]
    split_ifs
    · exact erases_fails fun _ => rfl
    · refine erases_spanFrom.2 (erases_pure ?_)
      cases handler <;> cases finalizer <;> simp
  have finalized {handler handler' : Option Handler}
      (erased : handler' = handler.map Handler.eraseSpans) (c' : Cursor) :
      Erases strict c' Stmt.eraseSpans
        (do
          let finalizer ←
            if ← atKeyword .finally then do
              advance
              pure (some (← block R around))
            else pure none
          if handler.isNone && finalizer.isNone then faultHere .bareTry
          return .tryCatch (← spanFrom start) body handler finalizer : Parser Stmt)
        (do
          let finalizer ←
            if ← atKeyword .finally then do
              advance
              pure (some (← block R around))
            else pure none
          if handler'.isNone && finalizer.isNone then faultHere .bareTry
          return .tryCatch (← spanFrom start) (body.map Stmt.eraseSpans) handler' finalizer) := by
    subst erased
    simp only [erases_atKeyword, erases_ite]
    split_ifs
    · exact erases_advance.then fun _ _ => (erases_block spanless around).bind fun body c'' =>
        erases_pureBind.2 (finish handler (some body) c'')
    · exact erases_pureBind.2 (finish handler none c')
  simp only [erases_atKeyword, erases_ite]
  split_ifs
  · apply erases_advance.then
    intro _ _
    apply (erases_expectPunctuation '(').then
    intro _ _
    apply erases_plainName.then
    intro name _
    apply (erases_expectPunctuation ')').then
    intro _ _
    apply (erases_block spanless around).bind
    intro handling c'
    exact erases_pureBind.2 (finalized (by simp) c')
  · exact erases_pureBind.2 (finalized rfl behind)

theorem erases_throwStatement (start : Position) :
    Erases strict c Stmt.eraseSpans (throwStatement R start) (throwStatement R start) := by
  unfold throwStatement
  simp only [erases_current]
  split_ifs
  · exact erases_fails fun _ => rfl
  · exact (spanless.expression true false).bind fun _ _ => erases_semicolon.then fun _ _ =>
      erases_spanFrom.2 (erases_pure rfl)

theorem erases_keywordStatement (around : Surroundings) (start : Position) (keyword : Keyword) :
    Erases strict c Stmt.eraseSpans (keywordStatement R around start keyword)
      (keywordStatement R around start keyword) := by
  cases keyword with
  | «break» => exact erases_jumpTarget.then fun _ _ => erases_spanFrom.2 (erases_pure rfl)
  | «continue» => exact erases_jumpTarget.then fun _ _ => erases_spanFrom.2 (erases_pure rfl)
  | debugger => exact erases_semicolon.then fun _ _ => erases_spanFrom.2 (erases_pure rfl)
  | «do» => exact erases_doStatement spanless around start
  | «for» => exact erases_forStatement spanless around start
  | function =>
    exact (erases_function spanless true).bind fun _ _ => erases_spanFrom.2 (erases_pure rfl)
  | «if» => exact erases_ifStatement spanless around start
  | «return» => exact erases_returnStatement spanless around start
  | switch => exact erases_switchStatement spanless around start
  | throw => exact erases_throwStatement spanless start
  | «try» => exact erases_tryStatement spanless around start
  | var =>
    exact (erases_definitions spanless false).bind fun _ _ => erases_semicolon.then fun _ _ =>
      erases_spanFrom.2 (erases_pure (by simp))
  | const =>
    exact (erases_definitions spanless false).bind fun _ _ => erases_semicolon.then fun _ _ =>
      erases_spanFrom.2 (erases_pure (by simp))
  | «while» =>
    exact (erases_parenthesised spanless).bind fun _ _ =>
      (spanless.statement around.looping).bind fun _ _ => erases_spanFrom.2 (erases_pure rfl)
  | «with» =>
    exact (erases_parenthesised spanless).bind fun _ _ =>
      (spanless.statement around).bind fun _ _ => erases_spanFrom.2 (erases_pure rfl)
  | case | «catch» | default | «else» | «finally» => exact erases_unexpected

/-- A statement that begins with no slash that is to be read again. -/
theorem erases_statementFrom (around : Surroundings) :
    Erases strict c Stmt.eraseSpans (statementFrom R around) (statementFrom R around) := by
  unfold statementFrom
  simp only [erases_startOfToken, erases_currentKind]
  split
  · next label _ =>
    apply erases_following.then
    intro token _
    split_ifs
    · exact erases_advance.then fun _ _ => erases_advance.then fun _ _ =>
        erases_labelledStatement spanless around _ label
    · exact erases_expressionStatement spanless _
  · exact erases_expressionStatement spanless _
  · exact erases_expressionStatement spanless _
  · exact erases_expressionStatement spanless _
  · exact erases_expressionStatement spanless _
  · exact erases_expressionStatement spanless _
  · exact erases_expressionStatement spanless _
  · exact erases_expressionStatement spanless _
  · exact (erases_block spanless around).bind fun _ _ => erases_spanFrom.2 (erases_pure (by simp))
  · exact erases_advance.then fun _ _ => erases_spanFrom.2 (erases_pure rfl)
  · next keyword _ =>
    split_ifs
    · exact erases_advance.then fun _ _ => erases_keywordStatement spanless around _ keyword
    · exact erases_unexpected
  · exact erases_unexpected

theorem erases_statement (around : Surroundings) :
    Erases strict c Stmt.eraseSpans (statement R around) (statement R around) := by
  unfold statement
  simp only [erases_atOperator]
  split_ifs
  · exact erases_rereadRegexp.then fun _ _ => erases_statementFrom spanless around
  · exact erases_statementFrom spanless around

/-! ## Chunks -/

theorem erases_commandExpression :
    Erases strict c Expr.eraseSpans (commandExpression R) (commandExpression R) := by
  unfold commandExpression
  exact (spanless.expression true false).bind fun _ _ =>
    (erases_expectMarker .commandClose).then fun _ _ => erases_pure rfl

theorem erases_blockBody (name : String) (opening : Span) (branches : Bool) :
    Erases strict c (List.map Chunk.eraseSpans) (blockBody R name opening branches)
      (blockBody R name opening branches) := by
  unfold blockBody
  apply erases_loop (List.map Chunk.eraseSpans) rfl
  intro chunks behind
  have chunk (c' : Cursor) :
      Erases strict c' (Sum.map (List.map Chunk.eraseSpans) (List.map Chunk.eraseSpans))
        (do return .inl (chunks ++ [← R.chunk]) : Parser (List Chunk ⊕ List Chunk))
        (do return .inl (chunks.map Chunk.eraseSpans ++ [← R.chunk])) :=
    spanless.chunk.bind fun _ _ => erases_pure (by simp)
  simp only [erases_current]
  split_ifs
  · exact erases_fails fun _ => rfl
  · exact erases_fails fun _ => rfl
  · exact erases_fails fun _ => rfl
  · exact erases_pure rfl
  · apply erases_following.then
    intro ahead _
    split_ifs
    · exact erases_pure rfl
    · exact chunk _
  · exact chunk behind

/-- The head of an iteration: the names that it binds, and the collection. -/
theorem erases_eachHead :
    Erases strict c (Prod.map id Expr.eraseSpans) (eachHead R) (eachHead R) := by
  unfold eachHead
  simp only [erases_current, erases_atPunctuation]
  split_ifs
  · apply erases_advance.then
    intro _ _
    apply (erases_expressionList spanless ')' false false).bind
    intro items behind
    simp only [erases_atMarker]
    split_ifs
    · rcases items with _ | ⟨collection, _ | ⟨other, others⟩⟩
      · exact erases_current.2 (erases_refuse (.refl _))
      · exact erases_pure rfl
      · exact erases_current.2 (erases_refuse (.refl _))
    · exact (erases_bindingNames _ items).then fun names _ =>
        (spanless.expression true false).bind fun _ _ => erases_pure rfl
  · exact (spanless.expression true false).bind fun _ _ => erases_pure rfl

theorem erases_eachBlock (opening : Span) :
    Erases strict c Chunk.eraseSpans (eachBlock R opening) (eachBlock R opening) := by
  unfold eachBlock
  apply (erases_eachHead spanless).bind
  rintro ⟨bindings, collection⟩ _
  apply (erases_expectMarker .commandClose).then
  intro _ _
  apply (erases_blockBody spanless "each" opening false).bind
  intro body _
  exact (erases_closeBlock "each" opening).then fun _ _ =>
    erases_spanFrom.2 (erases_pure (by simp))

/-- The branches of a conditional without spans. -/
def eraseBranches : List ElseIf × Option (List Chunk) → List ElseIf × Option (List Chunk) :=
  Prod.map (List.map ElseIf.eraseSpans) (Option.map (List.map Chunk.eraseSpans))

theorem erases_elseBranches (opening : Span) :
    Erases strict c eraseBranches (elseBranches R opening) (elseBranches R opening) := by
  unfold elseBranches
  apply erases_loop eraseBranches rfl
  rintro ⟨elseIfs, elseBranch⟩ behind
  simp only [erases_atMarker]
  split
  · exact erases_pure rfl
  · apply erases_advance.then
    intro _ _
    simp only [erases_current]
    apply erases_advance.then
    intro _ _
    simp only [erases_atMarker, eraseBranches, Prod.map, Option.isSome_map]
    split_ifs
    · exact erases_fails fun _ => rfl
    · exact erases_advance.then fun _ _ => (erases_blockBody spanless "if" opening true).bind
        fun _ _ => erases_pure rfl
    · exact erases_fails fun _ => rfl
    · exact (erases_commandExpression spanless).bind fun _ _ =>
        (erases_blockBody spanless "if" opening true).bind fun _ _ => erases_pure (by simp)

theorem erases_ifBlock (opening : Span) :
    Erases strict c Chunk.eraseSpans (ifBlock R opening) (ifBlock R opening) := by
  unfold ifBlock
  apply (erases_commandExpression spanless).bind
  intro condition _
  apply (erases_blockBody spanless "if" opening true).bind
  intro thenBranch _
  apply (erases_elseBranches spanless opening).bind
  rintro ⟨elseIfs, elseBranch⟩ _
  apply (erases_closeBlock "if" opening).then
  intro _ _
  refine erases_spanFrom.2 (erases_pure ?_)
  cases elseBranch <;> simp

theorem erases_inclusion (opening : Span) :
    Erases strict c Chunk.eraseSpans (inclusion R opening) (inclusion R opening) := by
  unfold inclusion
  have named (args : Option (List Expr)) (c' : Cursor) :
      Erases strict c' Chunk.eraseSpans
        (do
          let name ← commandExpression R
          return .include (← spanFrom opening.start) args name)
        (do
          let name ← commandExpression R
          return .include (← spanFrom opening.start) (args.map (List.map Expr.eraseSpans))
            name) := by
    apply (erases_commandExpression spanless).bind
    intro name _
    refine erases_spanFrom.2 (erases_pure ?_)
    cases args <;> simp
  simp only [erases_atPunctuation]
  split_ifs
  · exact erases_advance.then fun _ _ =>
      (erases_expressionList spanless ')' false false).bind fun args c' =>
        erases_pureBind.2 (named (some args) c')
  · exact erases_pureBind.2 (named none c)

theorem erases_command (opening : Span) :
    Erases strict c Chunk.eraseSpans (command R opening) (command R opening) := by
  unfold command
  simp only [erases_currentKind]
  split
  · exact erases_advance.then fun _ _ => erases_eachBlock spanless opening
  · exact erases_advance.then fun _ _ => erases_inclusion spanless opening
  · exact erases_advance.then fun _ _ => (erases_commandExpression spanless).bind fun _ _ =>
      erases_spanFrom.2 (erases_pure rfl)
  · exact erases_advance.then fun _ _ => (erases_commandExpression spanless).bind fun _ _ =>
      erases_spanFrom.2 (erases_pure rfl)
  · exact erases_advance.then fun _ _ => erases_ifBlock spanless opening
  · exact erases_advance.then fun _ _ => (erases_definitions spanless false).bind fun _ _ =>
      (erases_expectMarker .commandClose).then fun _ _ => erases_spanFrom.2 (erases_pure (by simp))
  · exact erases_unexpected

theorem erases_chunk : Erases strict c Chunk.eraseSpans (chunk R) (chunk R) := by
  unfold chunk
  simp only [erases_current]
  split
  · exact erases_advance.then fun _ _ => erases_spanFrom.2 (erases_pure rfl)
  · exact erases_advance.then fun _ _ => (spanless.expression true false).bind fun _ _ =>
      (erases_expectMarker .echoClose).then fun _ _ => erases_spanFrom.2 (erases_pure rfl)
  · exact erases_advance.then fun _ _ => erases_command spanless _
  · exact erases_unexpected

/-! ## Whole texts -/

theorem erases_program : Erases strict c Program.eraseSpans (program R) (program R) := by
  unfold program
  apply Erases.bind
  · apply erases_loop (List.map Stmt.eraseSpans) rfl
    intro body behind
    simp only [erases_current]
    split_ifs
    · exact erases_pure rfl
    · exact (erases_statement spanless .outermost).bind fun _ _ => erases_pure (by simp)
  · intro body _
    exact erases_pure (by simp [Program.eraseSpans])

theorem erases_template : Erases strict c Template.eraseSpans (template R) (template R) := by
  unfold template
  apply Erases.bind
  · apply erases_loop (List.map Chunk.eraseSpans) rfl
    intro chunks behind
    simp only [erases_current]
    split_ifs
    · exact erases_pure rfl
    · exact (erases_chunk spanless).bind fun _ _ => erases_pure (by simp)
  · intro chunks _
    exact erases_pure (by simp [Template.eraseSpans])

theorem erases_wholeExpression :
    Erases strict c Expr.eraseSpans (wholeExpression R) (wholeExpression R) := by
  unfold wholeExpression
  apply (erases_expression spanless true false).bind
  intro value _
  simp only [erases_current]
  split_ifs
  · exact erases_pure rfl
  · exact erases_unexpected

/-! ## All depths -/

/-- Unfolded once more, the rules still end alike. -/
theorem spanless_unfold : R.unfold.Spanless where
  expression := erases_expression spanless
  assignment := erases_assignment spanless
  operators := erases_operators spanless
  unary := erases_unary spanless
  primary := erases_primary spanless
  statement := erases_statement spanless
  chunk := erases_chunk spanless

end Rules

/-- The rules of every depth end alike with spans and without: by induction on the depth. -/
theorem spanless_upTo (depth : Nat) : (Rules.upTo depth).Spanless := by
  induction depth with
  | zero => constructor <;> intros <;> exact erases_exhausted
  | succ depth ih => exact spanless_unfold ih

end Stencil.Grammar
