import Stencil.Grammar.Template
import Stencil.Proofs.Parsing.Agreement
/-!
# Rules that agree before short texts

Two collections of rules that agree wherever less than `k` lies ahead are unfolded: every rule over
the one does the same as over the other wherever at most `k` lies ahead. Rules that are entered
behind a token of their own are followed from a cursor with less than `k` ahead.
-/

set_option autoImplicit false
set_option linter.unusedSectionVars false

namespace Stencil.Grammar

open Stencil.Syntax
open Stencil.Text (Position Span)
open Stencil.Grammar.Parser

/-- Two collections of rules agree wherever less than `k` lies ahead. -/
structure Rules.Agree (k : Nat) (R S : Rules) : Prop where
  expression : ∀ {o c}, c.ahead < k → ∀ commas noIn,
    Same o c (R.expression commas noIn) (S.expression commas noIn)
  assignment : ∀ {o c}, c.ahead < k → ∀ noIn, Same o c (R.assignment noIn) (S.assignment noIn)
  operators : ∀ {o c}, c.ahead < k → ∀ left start bound noIn,
    Same o c (R.operators left start bound noIn) (S.operators left start bound noIn)
  unary : ∀ {o c}, c.ahead < k → ∀ calls, Same o c (R.unary calls) (S.unary calls)
  primary : ∀ {o c}, c.ahead < k → ∀ calls, Same o c (R.primary calls) (S.primary calls)
  statement : ∀ {o c}, c.ahead < k → ∀ around, Same o c (R.statement around) (S.statement around)
  chunk : ∀ {o c}, c.ahead < k → Same o c R.chunk S.chunk

theorem Cursor.Leads.lt {k : Nat} {c behind : Cursor} (leads : c.Leads behind)
    (room : c.ahead < k) : behind.ahead < k := Nat.lt_of_le_of_lt leads.ahead room

theorem Cursor.Leads.le {k : Nat} {c behind : Cursor} (leads : c.Leads behind)
    (room : c.ahead ≤ k) : behind.ahead ≤ k := Nat.le_trans leads.ahead room

/-- Reads a statement whose beginning is no slash that is to be read again. -/
def statementFrom (rules : Rules) (around : Surroundings) : Parser Stmt := do
  let start ← startOfToken
  match ← currentKind with
  | .name label =>
    if (← following).isPunctuation ':' then
      advance
      advance
      labelledStatement rules around start label
    else expressionStatement rules start
  | .num _ | .string _ | .regexp .. | .atom _ | .operator _ | .punctuation '[' | .punctuation '(' =>
    expressionStatement rules start
  | .punctuation '\x7b' =>
    let body ← block rules around
    return .block (← spanFrom start) body
  | .punctuation ';' =>
    advance
    return .block (← spanFrom start) []
  | .keyword keyword =>
    if beginsStatement keyword then
      advance
      keywordStatement rules around start keyword
    else unexpected
  | _ => unexpected

section Rules

variable {o : Options} {c : Cursor}

theorem same_parameters : Same o c parameters parameters := by
  unfold parameters
  refine (same_loop (fun names c' _ => ?_) _).bind fun names _ _ =>
    same_advance.bind fun _ _ _ => same_pure names
  simp only [same_atPunctuation]
  split_ifs
  · exact same_pure _
  · exact (takes_expectPunctuation ',').same.bind fun _ _ _ =>
      takes_plainName.same.bind fun _ _ _ => same_pure _
  · exact takes_plainName.same.bind fun _ _ _ => same_pure _

theorem same_jumpTarget {around : Surroundings} {keyword : Keyword} :
    Same o c (jumpTarget around keyword) (jumpTarget around keyword) := by
  unfold jumpTarget
  simp only [same_mayOmitSemicolon, same_currentKind]
  split
  · refine same_advance.bind fun _ c' _ => ?_
    split_ifs
    · exact same_fails rfl
    · exact same_pureBind.2 (same_semicolon.bind fun _ _ _ => same_pure _)
  · split_ifs
    · exact same_fails rfl
    · exact same_pureBind.2 (same_semicolon.bind fun _ _ _ => same_pure _)

theorem same_closeBlock (name : String) (opening : Span) :
    Same o c (closeBlock name opening) (closeBlock name opening) := by
  unfold closeBlock
  refine (takes_expectMarker _).same.bind fun _ c' _ => ?_
  simp only [same_current, same_ite]
  split_ifs
  · exact same_fails rfl
  · exact same_advance.bind fun _ _ _ => (takes_expectMarker _).same

theorem same_bindingNames (listSpan : Span) (items : List Expr) :
    Same o c (bindingNames listSpan items) (bindingNames listSpan items) := by
  induction items with
  | nil => exact same_pure _
  | cons item rest ih =>
    cases item with
    | name => exact ih.bind fun _ _ _ => same_pure _
    | _ => exact same_refuse _

theorem same_checkUpdate (op : UnaryOp) (operand : Expr) :
    Same o c (checkUpdate op operand) (checkUpdate op operand) := by
  unfold checkUpdate
  simp only [same_read]
  split_ifs
  · exact same_faultHere _
  · exact same_pure _

/-- An operator is not the end of the text. -/
theorem going_of_before {token : Token} {op : UnaryOp}
    (here : operatorBefore token.kind = some op) :
    token.isEof = false := by
  unfold operatorBefore at here
  split at here
  · next kind => exact going_of_kind kind (by simp)
  · cases here

/-- Nor is a binary one. -/
theorem going_of_binary {noIn : Bool} {token : Token} {op : BinaryOp}
    (here : binaryOperator noIn token.kind = some op) : token.isEof = false := by
  unfold binaryOperator at here
  split at here
  · next kind => exact going_of_kind kind (by simp)
  · cases here

/-- Nor is an assignment. -/
theorem going_of_assignment {token : Token} {op : Option BinaryOp}
    (here : assignmentOperator token.kind = some op) : token.isEof = false := by
  unfold assignmentOperator at here
  split at here
  · next kind => exact going_of_kind kind (by simp)
  · cases here

variable {k : Nat} {R S : Rules} (agree : Rules.Agree k R S)

include agree

/-! ## Expressions -/

/-- One expression of a list, or what stands in its place. -/
theorem same_item (room : c.ahead < k) (closing : Char) (trailing gaps : Bool) (items : List Expr) :
    Same o c
      (do
        if trailing && (← atPunctuation closing) then return .inr items
        if gaps && (← atPunctuation ',') then return .inl (items ++ [.atom none .undefined])
        return .inl (items ++ [← R.expression false false]) : Parser (List Expr ⊕ List Expr))
      (do
        if trailing && (← atPunctuation closing) then return .inr items
        if gaps && (← atPunctuation ',') then return .inl (items ++ [.atom none .undefined])
        return .inl (items ++ [← S.expression false false])) := by
  simp only [same_atPunctuation]
  split_ifs
  · exact same_pure _
  · simp only [same_atPunctuation]
    split_ifs
    · exact same_pure _
    · exact (agree.expression room false false).bind fun _ _ _ => same_pure _

theorem same_expressionList (room : c.ahead < k) (closing : Char) (trailing gaps : Bool) :
    Same o c (expressionList R closing trailing gaps) (expressionList S closing trailing gaps) := by
  unfold expressionList
  refine (same_loop (fun items c' leads => ?_) _).bind fun items _ _ =>
    same_advance.bind fun _ _ _ => same_pure items
  have room := leads.lt room
  simp only [same_atPunctuation]
  split_ifs
  · exact same_pure _
  · exact (takes_expectPunctuation ',').same.bind fun _ behind leads =>
      same_item agree (leads.lt room) closing trailing gaps items
  · exact same_item agree room closing trailing gaps items

theorem consumes_block (room : c.ahead ≤ k) (around : Surroundings) :
    Consumes o c (block R around) (block S around) := by
  unfold block
  refine (takes_expectPunctuation '\x7b').followed fun _ inside _ shorter => ?_
  have room := Nat.lt_of_lt_of_le shorter room
  refine (same_loop (fun body c' leads => ?_) _).bind fun body _ _ =>
    same_advance.bind fun _ _ _ => same_pure body
  have room := leads.lt room
  have statement : Same o c'
      (do return .inl (body ++ [← R.statement around]) : Parser (List Stmt ⊕ List Stmt))
      (do return .inl (body ++ [← S.statement around])) :=
    (agree.statement room around).bind fun _ _ _ => same_pure _
  simp only [same_atPunctuation]
  split_ifs
  · exact same_pure _
  · simp only [same_current]
    split_ifs
    · exact same_unexpected.bind fun _ behind leads =>
        (agree.statement (leads.lt room) around).bind fun _ _ _ => same_pure _
    · exact statement

theorem same_block (room : c.ahead ≤ k) (around : Surroundings) :
    Same o c (block R around) (block S around) := (consumes_block agree room around).same

theorem same_function (room : c.ahead < k) (declaration : Bool) :
    Same o c (function R declaration) (function S declaration) := by
  unfold function
  have behind (name : Option String) {c' : Cursor} (room : c'.ahead < k) :
      Same o c'
        (do
          expectPunctuation '('
          let names ← parameters
          return .mk name names (← block R .ofFunction) : Parser Function)
        (do
          expectPunctuation '('
          let names ← parameters
          return .mk name names (← block S .ofFunction)) :=
    (takes_expectPunctuation '(').same.bind fun _ _ first =>
      same_parameters.bind fun names _ second =>
        (same_block agree (Nat.le_of_lt (second.lt (first.lt room))) _).bind fun _ _ _ => same_pure _
  simp only [same_currentKind]
  split
  · exact same_advance.bind fun _ _ leads => behind _ (leads.lt room)
  · split_ifs
    · exact same_unexpected.bind fun _ _ leads => behind _ (leads.lt room)
    · exact behind none room

/-- A property consumes its key. -/
theorem consumes_property (room : c.ahead < k) : Consumes o c (property R) (property S) := by
  unfold property
  simp only [consumes_currentKind]
  refine takes_propertyKey.followed fun key c' leads _ => ?_
  have room := leads.lt room
  simp only [same_atPunctuation]
  split
  · exact takes_anyName.same.bind fun _ _ leads =>
      (same_function agree (leads.lt room) false).bind fun _ _ _ => same_pure _
  · exact takes_anyName.same.bind fun _ _ leads =>
      (same_function agree (leads.lt room) false).bind fun _ _ _ => same_pure _
  · exact (takes_expectPunctuation ':').same.bind fun _ _ leads =>
      (agree.expression (leads.lt room) false false).bind fun _ _ _ => same_pure _

theorem same_objectBody (room : c.ahead < k) : Same o c (objectBody R) (objectBody S) := by
  unfold objectBody
  simp only [same_read]
  refine (same_loop (fun properties c' leads => ?_) _).bind fun _ _ _ =>
    same_advance.bind fun _ _ _ => same_pure _
  have property {c' : Cursor} (room : c'.ahead < k) :
      Same o c'
        (do
          if !o.strict && (← atPunctuation '\x7d') then return .inr properties
          return .inl (properties ++ [← property R]) : Parser (List Property ⊕ List Property))
        (do
          if !o.strict && (← atPunctuation '\x7d') then return .inr properties
          return .inl (properties ++ [← property S])) := by
    simp only [same_atPunctuation]
    split_ifs
    · exact same_pure _
    · exact (consumes_property agree room).same.bind fun _ _ _ => same_pure _
  have room := leads.lt room
  simp only [same_atPunctuation]
  split_ifs
  · exact same_pure _
  · exact (takes_expectPunctuation ',').same.bind fun _ _ leads => property (leads.lt room)
  · exact property room

theorem same_subscripts (room : c.ahead ≤ k) (operand : Expr) (start : Position) (calls : Bool) :
    Same o c (subscripts R operand start calls) (subscripts S operand start calls) := by
  unfold subscripts
  refine same_loop (fun operand c' leads => ?_) _
  have room := leads.le room
  simp only [same_atPunctuation]
  split_ifs
  · exact same_advance.bind fun _ _ _ => takes_anyName.same.bind fun _ _ _ =>
      same_spanFrom.2 (same_pure _)
  simp only [same_atPunctuation]
  split_ifs with bracket
  · refine (takes_advance (going_of_punctuation bracket)).bind fun _ _ _ shorter => ?_
    exact (agree.expression (Nat.lt_of_lt_of_le shorter room) true false).bind fun _ _ _ =>
      (takes_expectPunctuation ']').same.bind fun _ _ _ => same_spanFrom.2 (same_pure _)
  simp only [same_atPunctuation]
  split_ifs with call
  · rw [Bool.and_eq_true] at call
    refine (takes_advance (going_of_punctuation call.2)).bind fun _ _ _ shorter => ?_
    exact (same_expressionList agree (Nat.lt_of_lt_of_le shorter room) ')' false false).bind
      fun _ _ _ => same_spanFrom.2 (same_pure _)
  · exact same_pure _

theorem same_newExpression (room : c.ahead < k) (start : Position) :
    Same o c (newExpression R start) (newExpression S start) := by
  unfold newExpression
  refine (agree.primary room false).bind fun callee c' leads => ?_
  have room := leads.lt room
  have behind (args : List Expr) {c' : Cursor} (room : c'.ahead < k) :
      Same o c' (do subscripts R (.new (← spanFrom start) callee args) start true)
        (do subscripts S (.new (← spanFrom start) callee args) start true) :=
    same_spanFrom.2 (same_subscripts agree (Nat.le_of_lt room) _ _ _)
  simp only [same_atPunctuation]
  split_ifs
  · exact same_advance.bind fun _ _ first =>
      (same_expressionList agree (first.lt room) ')' false false).bind fun args _ second =>
        behind args (second.lt (first.lt room))
  · exact behind [] room

/-- An operand consumes its first token. -/
theorem consumes_atom (room : c.ahead ≤ k) (start : Position) :
    Consumes o c (atom R start) (atom S start) := by
  have leaf (going : c.token.isEof = false) (make : Option Span → Expr) :
      Consumes o c (do advance; return make (← spanFrom start))
        (do advance; return make (← spanFrom start)) :=
    (takes_advance going).followed fun _ _ _ _ => same_spanFrom.2 (same_pure _)
  unfold atom
  simp only [consumes_currentKind]
  split
  · next kind =>
    refine (takes_advance (going_of_kind kind (by simp))).followed fun _ _ _ shorter => same_read.2 ?_
    exact (same_expressionList agree (Nat.lt_of_lt_of_le shorter room) _ _ _).bind
      fun _ _ _ => same_spanFrom.2 (same_pure _)
  · next kind =>
    refine (takes_advance (going_of_kind kind (by simp))).followed fun _ _ _ shorter => ?_
    exact (same_objectBody agree (Nat.lt_of_lt_of_le shorter room)).bind fun _ _ _ =>
      same_spanFrom.2 (same_pure _)
  · next kind =>
    refine (takes_advance (going_of_kind kind (by simp))).followed fun _ _ _ shorter => ?_
    exact (same_function agree (Nat.lt_of_lt_of_le shorter room) false).bind fun _ _ _ =>
      same_spanFrom.2 (same_pure _)
  · next kind => exact leaf (going_of_kind kind (by simp)) _
  · next kind => exact leaf (going_of_kind kind (by simp)) _
  · next kind => exact leaf (going_of_kind kind (by simp)) _
  · next kind => exact leaf (going_of_kind kind (by simp)) _
  · next kind => exact leaf (going_of_kind kind (by simp)) _
  · exact consumes_unexpected

theorem consumes_primary (room : c.ahead ≤ k) (calls : Bool) :
    Consumes o c (primary R calls) (primary S calls) := by
  unfold primary
  simp only [consumes_startOfToken, consumes_atOperator]
  split_ifs with new
  · refine (takes_advance (going_of_operator new)).followed fun _ _ _ shorter => ?_
    exact same_newExpression agree (Nat.lt_of_lt_of_le shorter room) _
  · simp only [consumes_atPunctuation]
    split_ifs with paren
    · refine (takes_advance (going_of_punctuation paren)).followed fun _ _ _ shorter => ?_
      have room := Nat.lt_of_lt_of_le shorter room
      exact (agree.expression room true false).bind fun inner _ first =>
        (takes_expectPunctuation ')').same.bind fun _ _ second =>
          same_subscripts agree (Nat.le_of_lt (second.lt (first.lt room))) inner _ calls
    · exact (consumes_atom agree room _).followed fun operand _ leads =>
        same_subscripts agree (leads.le room) operand _ calls

theorem consumes_unary (room : c.ahead ≤ k) (calls : Bool) :
    Consumes o c (unary R calls) (unary S calls) := by
  unfold unary
  simp only [consumes_startOfToken, consumes_currentKind]
  split
  · next op before =>
    refine (takes_advance (going_of_before before)).followed fun _ _ _ shorter => ?_
    exact (agree.unary (Nat.lt_of_lt_of_le shorter room) calls).bind fun operand _ _ =>
      (same_checkUpdate op operand).bind fun _ _ _ => same_spanFrom.2 (same_pure _)
  · refine (consumes_primary agree room calls).followed fun operand _ _ =>
      same_loop (fun operand c' _ => ?_) operand
    simp only [same_current]
    split
    · exact same_advance.bind fun _ _ _ => (same_checkUpdate _ operand).bind fun _ _ _ =>
        same_spanFrom.2 (same_pure _)
    · exact same_pure _

theorem same_operators (room : c.ahead ≤ k) (left : Expr) (start : Position) (bound : Nat)
    (noIn : Bool) :
    Same o c (operators R left start bound noIn) (operators S left start bound noIn) := by
  unfold operators
  simp only [same_currentKind]
  split
  · exact same_pure _
  · next op here =>
    split_ifs
    · exact same_pure _
    · refine (takes_advance (going_of_binary here)).bind fun _ _ _ shorter => ?_
      have room := Nat.lt_of_lt_of_le shorter room
      simp only [same_startOfToken]
      refine (consumes_unary agree (Nat.le_of_lt room) true).same.bind fun operand _ leads => ?_
      have room := leads.lt room
      refine (agree.operators room operand _ _ noIn).bind fun right _ leads => ?_
      exact same_spanFrom.2 (agree.operators (leads.lt room) _ start bound noIn)

theorem consumes_conditional (room : c.ahead ≤ k) (noIn : Bool) :
    Consumes o c (conditional R noIn) (conditional S noIn) := by
  unfold conditional
  simp only [consumes_startOfToken]
  refine (consumes_unary agree room true).followed fun operand _ leads => ?_
  have room := leads.le room
  refine (same_operators agree room operand _ 0 noIn).bind fun test _ leads => ?_
  have room := leads.le room
  simp only [same_atOperator]
  split_ifs with question
  · refine (takes_advance (going_of_operator question)).bind fun _ _ _ shorter => ?_
    have room := Nat.lt_of_lt_of_le shorter room
    exact (agree.expression room false false).bind fun yes _ first =>
      (takes_expectPunctuation ':').same.bind fun _ _ second =>
        (agree.expression (second.lt (first.lt room)) false noIn).bind fun no _ _ =>
          same_spanFrom.2 (same_pure _)
  · exact same_pure _

theorem consumes_assignment (room : c.ahead ≤ k) (noIn : Bool) :
    Consumes o c (assignment R noIn) (assignment S noIn) := by
  unfold assignment
  simp only [consumes_startOfToken]
  refine (consumes_conditional agree room noIn).followed fun target c' leads => ?_
  have room := leads.le room
  simp only [same_currentKind]
  split
  · exact same_pure _
  · next op here =>
    simp only [same_read]
    split_ifs
    · exact same_fails rfl
    · refine (takes_advance (going_of_assignment here)).bind fun _ _ _ shorter => ?_
      exact (agree.assignment (Nat.lt_of_lt_of_le shorter room) noIn).bind fun value _ _ =>
        same_spanFrom.2 (same_pure _)

/-- An expression consumes its first token. -/
theorem consumes_expression (room : c.ahead ≤ k) (commas noIn : Bool) :
    Consumes o c (expression R commas noIn) (expression S commas noIn) := by
  unfold expression
  simp only [consumes_startOfToken]
  refine (consumes_assignment agree room noIn).followed fun first _ leads => ?_
  have room := leads.le room
  simp only [same_atPunctuation]
  split_ifs with comma
  · rw [Bool.and_eq_true] at comma
    refine (takes_advance (going_of_punctuation comma.2)).bind fun _ _ _ shorter => ?_
    exact (agree.expression (Nat.lt_of_lt_of_le shorter room) true noIn).bind fun rest _ _ =>
      same_spanFrom.2 (same_pure _)
  · exact same_pure _

theorem same_definitions (room : c.ahead < k) (noIn : Bool) :
    Same o c (definitions R noIn) (definitions S noIn) := by
  unfold definitions
  refine same_loop (fun defs c' leads => ?_) _
  have room := leads.lt room
  refine takes_plainName.same.bind fun name _ leads => ?_
  have room := leads.lt room
  have behind (c' : Cursor) (defs : List VarDef) :
      Same o c'
        (do if ← atPunctuation ',' then advance; return .inl defs else return .inr defs)
        (do if ← atPunctuation ',' then advance; return .inl defs else return .inr defs :
          Parser (List VarDef ⊕ List VarDef)) := by
    simp only [same_atPunctuation]
    split_ifs
    · exact same_advance.bind fun _ _ _ => same_pure _
    · exact same_pure _
  simp only [same_atOperator]
  split_ifs
  · exact same_advance.bind fun _ _ leads =>
      (agree.expression (leads.lt room) false noIn).bind fun _ c' _ => behind c' _
  · exact behind _ _

theorem same_parenthesised (room : c.ahead ≤ k) :
    Same o c (parenthesised R) (parenthesised S) := by
  unfold parenthesised
  refine (takes_expectPunctuation '(').bind fun _ _ _ shorter => ?_
  exact (agree.expression (Nat.lt_of_lt_of_le shorter room) true false).bind fun _ _ _ =>
    (takes_expectPunctuation ')').same.bind fun _ _ _ => same_pure _

/-! ## Statements -/

theorem consumes_expressionStatement (room : c.ahead ≤ k) (start : Position) :
    Consumes o c (expressionStatement R start) (expressionStatement S start) := by
  unfold expressionStatement
  exact (consumes_expression agree room true false).followed fun _ _ _ =>
    same_semicolon.bind fun _ _ _ => same_spanFrom.2 (same_pure _)

theorem same_labelledStatement (room : c.ahead < k) (around : Surroundings) (start : Position)
    (label : String) :
    Same o c (labelledStatement R around start label) (labelledStatement S around start label) := by
  unfold labelledStatement
  split_ifs
  · exact same_fails rfl
  · exact (agree.statement room _).bind fun _ _ _ => same_spanFrom.2 (same_pure _)

theorem same_doStatement (room : c.ahead < k) (around : Surroundings) (start : Position) :
    Same o c (doStatement R around start) (doStatement S around start) := by
  unfold doStatement
  refine (agree.statement room _).bind fun body _ leads => ?_
  have room := leads.lt room
  simp only [same_atKeyword]
  split_ifs
  · exact same_fails rfl
  · exact same_advance.bind fun _ _ leads =>
      (same_parenthesised agree (Nat.le_of_lt (leads.lt room))).bind fun _ _ _ =>
        same_semicolon.bind fun _ _ _ => same_spanFrom.2 (same_pure _)

theorem same_optionalBefore (room : c.ahead < k) (closing : Char) :
    Same o c (optionalBefore R closing) (optionalBefore S closing) := by
  unfold optionalBefore
  simp only [same_atPunctuation]
  split_ifs
  · exact same_pure _
  · exact (agree.expression room true false).bind fun _ _ _ => same_pure _

theorem same_conditionalFor (room : c.ahead < k) (around : Surroundings) (start : Position)
    (head : Option ForHead) :
    Same o c (conditionalFor R around start head) (conditionalFor S around start head) := by
  unfold conditionalFor
  refine (takes_expectPunctuation ';').same.bind fun _ _ leads => ?_
  have room := leads.lt room
  refine (same_optionalBefore agree room ';').bind fun test _ leads => ?_
  have room := leads.lt room
  refine (takes_expectPunctuation ';').same.bind fun _ _ leads => ?_
  have room := leads.lt room
  refine (same_optionalBefore agree room ')').bind fun step _ leads => ?_
  have room := leads.lt room
  exact (takes_expectPunctuation ')').same.bind fun _ _ leads =>
    (agree.statement (leads.lt room) _).bind fun _ _ _ => same_spanFrom.2 (same_pure _)

theorem same_iteratingFor (room : c.ahead < k) (around : Surroundings) (start : Position)
    (head : ForHead) :
    Same o c (iteratingFor R around start head) (iteratingFor S around start head) := by
  unfold iteratingFor
  split
  · exact same_fails rfl
  · refine same_advance.bind fun _ _ leads => ?_
    have room := leads.lt room
    refine (agree.expression room true false).bind fun object _ leads => ?_
    have room := leads.lt room
    exact (takes_expectPunctuation ')').same.bind fun _ _ leads =>
      (agree.statement (leads.lt room) _).bind fun _ _ _ => same_spanFrom.2 (same_pure _)

theorem same_forStatement (room : c.ahead < k) (around : Surroundings) (start : Position) :
    Same o c (forStatement R around start) (forStatement S around start) := by
  unfold forStatement
  refine (takes_expectPunctuation '(').same.bind fun _ _ leads => ?_
  have room := leads.lt room
  have behind (head : ForHead) {c' : Cursor} (room : c'.ahead < k) :
      Same o c'
        (do
          if ← atOperator "in" then iteratingFor R around start head
          else conditionalFor R around start (some head))
        (do
          if ← atOperator "in" then iteratingFor S around start head
          else conditionalFor S around start (some head)) := by
    simp only [same_atOperator]
    split_ifs
    · exact same_iteratingFor agree room around start head
    · exact same_conditionalFor agree room around start (some head)
  simp only [same_atPunctuation]
  split_ifs
  · exact same_conditionalFor agree room around start none
  · simp only [same_atKeyword]
    split_ifs
    · exact same_advance.bind fun _ _ first =>
        (same_definitions agree (first.lt room) true).bind fun _ _ second =>
          behind _ (second.lt (first.lt room))
    · exact (agree.expression room true true).bind fun _ _ leads => behind _ (leads.lt room)

theorem same_ifStatement (room : c.ahead < k) (around : Surroundings) (start : Position) :
    Same o c (ifStatement R around start) (ifStatement S around start) := by
  unfold ifStatement
  refine (same_parenthesised agree (Nat.le_of_lt room)).bind fun condition _ leads => ?_
  have room := leads.lt room
  refine (agree.statement room around).bind fun thenBranch _ leads => ?_
  have room := leads.lt room
  simp only [same_atKeyword]
  split_ifs
  · exact same_advance.bind fun _ _ leads => (agree.statement (leads.lt room) around).bind
      fun _ _ _ => same_pureBind.2 (same_spanFrom.2 (same_pure _))
  · exact same_pureBind.2 (same_spanFrom.2 (same_pure _))

theorem same_returnStatement (room : c.ahead < k) (around : Surroundings) (start : Position) :
    Same o c (returnStatement R around start) (returnStatement S around start) := by
  unfold returnStatement
  split_ifs
  · exact same_fails rfl
  · simp only [same_atPunctuation, same_mayOmitSemicolon]
    split_ifs
    · exact same_advance.bind fun _ _ _ => same_pureBind.2 (same_spanFrom.2 (same_pure _))
    · exact same_pureBind.2 (same_spanFrom.2 (same_pure _))
    · exact (agree.expression room true false).bind fun _ _ _ => same_semicolon.bind fun _ _ _ =>
        same_pureBind.2 (same_spanFrom.2 (same_pure _))

theorem same_switchStatement (room : c.ahead < k) (around : Surroundings) (start : Position) :
    Same o c (switchStatement R around start) (switchStatement S around start) := by
  unfold switchStatement
  refine (same_parenthesised agree (Nat.le_of_lt room)).bind fun discriminant _ leads => ?_
  have room := leads.lt room
  refine (takes_expectPunctuation '\x7b').same.bind fun _ _ leads => ?_
  have room := leads.lt room
  refine (same_loop (fun cases c' leads => ?_) _).bind fun _ _ _ =>
    same_advance.bind fun _ _ _ => same_spanFrom.2 (same_pure _)
  have room := leads.lt room
  simp only [same_atPunctuation, same_atKeyword, same_ite]
  split_ifs
  · exact same_pure _
  · exact same_advance.bind fun _ _ leads =>
      (agree.expression (leads.lt room) true false).bind fun _ _ _ =>
        (takes_expectPunctuation ':').same.bind fun _ _ _ => same_pure _
  · exact same_advance.bind fun _ _ _ =>
      (takes_expectPunctuation ':').same.bind fun _ _ _ => same_pure _
  · exact same_fails rfl
  · exact (agree.statement room _).bind fun _ _ _ => same_pure _

theorem same_tryStatement (room : c.ahead < k) (around : Surroundings) (start : Position) :
    Same o c (tryStatement R around start) (tryStatement S around start) := by
  unfold tryStatement
  refine (same_block agree (Nat.le_of_lt room) around).bind fun body _ leads => ?_
  have room := leads.lt room
  have finish (handler : Option Handler) (finalizer : Option (List Stmt)) (c' : Cursor) :
      Same o c'
        (do
          if handler.isNone && finalizer.isNone then faultHere .bareTry
          return .tryCatch (← spanFrom start) body handler finalizer : Parser Stmt)
        (do
          if handler.isNone && finalizer.isNone then faultHere .bareTry
          return .tryCatch (← spanFrom start) body handler finalizer) := by
    split_ifs
    · exact same_fails rfl
    · exact same_spanFrom.2 (same_pure _)
  have behind (handler : Option Handler) {c' : Cursor} (room : c'.ahead < k) :
      Same o c'
        (do
          let finalizer ←
            if ← atKeyword .finally then do
              advance
              pure (some (← block R around))
            else pure none
          if handler.isNone && finalizer.isNone then faultHere .bareTry
          return .tryCatch (← spanFrom start) body handler finalizer : Parser Stmt)
        (do
          let finalizer ←
            if ← atKeyword .finally then do
              advance
              pure (some (← block S around))
            else pure none
          if handler.isNone && finalizer.isNone then faultHere .bareTry
          return .tryCatch (← spanFrom start) body handler finalizer) := by
    simp only [same_atKeyword, same_ite]
    split_ifs
    · exact same_advance.bind fun _ _ leads =>
        (same_block agree (Nat.le_of_lt (leads.lt room)) around).bind fun _ c'' _ =>
          same_pureBind.2 (finish handler _ c'')
    · exact same_pureBind.2 (finish handler _ c')
  simp only [same_atKeyword, same_ite]
  split_ifs
  · refine same_advance.bind fun _ _ leads => ?_
    have room := leads.lt room
    refine (takes_expectPunctuation '(').same.bind fun _ _ leads => ?_
    have room := leads.lt room
    refine takes_plainName.same.bind fun name _ leads => ?_
    have room := leads.lt room
    refine (takes_expectPunctuation ')').same.bind fun _ _ leads => ?_
    have room := leads.lt room
    exact (same_block agree (Nat.le_of_lt room) around).bind fun _ _ leads =>
      same_pureBind.2 (behind _ (leads.lt room))
  · exact same_pureBind.2 (behind none room)

theorem same_throwStatement (room : c.ahead < k) (start : Position) :
    Same o c (throwStatement R start) (throwStatement S start) := by
  unfold throwStatement
  simp only [same_current, same_ite]
  split_ifs
  · exact same_fails rfl
  · exact (agree.expression room true false).bind fun _ _ _ => same_semicolon.bind fun _ _ _ =>
      same_spanFrom.2 (same_pure _)

theorem same_keywordStatement (room : c.ahead < k) (around : Surroundings) (start : Position)
    (keyword : Keyword) :
    Same o c (keywordStatement R around start keyword)
      (keywordStatement S around start keyword) := by
  cases keyword with
  | «break» => exact same_jumpTarget.bind fun _ _ _ => same_spanFrom.2 (same_pure _)
  | «continue» => exact same_jumpTarget.bind fun _ _ _ => same_spanFrom.2 (same_pure _)
  | debugger => exact same_semicolon.bind fun _ _ _ => same_spanFrom.2 (same_pure _)
  | «do» => exact same_doStatement agree room around start
  | «for» => exact same_forStatement agree room around start
  | function =>
    exact (same_function agree room true).bind fun _ _ _ => same_spanFrom.2 (same_pure _)
  | «if» => exact same_ifStatement agree room around start
  | «return» => exact same_returnStatement agree room around start
  | switch => exact same_switchStatement agree room around start
  | throw => exact same_throwStatement agree room start
  | «try» => exact same_tryStatement agree room around start
  | var =>
    exact (same_definitions agree room false).bind fun _ _ _ => same_semicolon.bind fun _ _ _ =>
      same_spanFrom.2 (same_pure _)
  | const =>
    exact (same_definitions agree room false).bind fun _ _ _ => same_semicolon.bind fun _ _ _ =>
      same_spanFrom.2 (same_pure _)
  | «while» =>
    exact (same_parenthesised agree (Nat.le_of_lt room)).bind fun _ _ leads =>
      (agree.statement (leads.lt room) _).bind fun _ _ _ => same_spanFrom.2 (same_pure _)
  | «with» =>
    exact (same_parenthesised agree (Nat.le_of_lt room)).bind fun _ _ leads =>
      (agree.statement (leads.lt room) _).bind fun _ _ _ => same_spanFrom.2 (same_pure _)
  | case | «catch» | default | «else» | «finally» => exact same_unexpected

/-- A statement that begins with a name: what follows it decides whether it is labelled. -/
theorem consumes_namedStatement (room : c.ahead ≤ k) (going : c.token.isEof = false)
    (around : Surroundings) (start : Position) (label : String) :
    Consumes o c
      (do
        if (← following).isPunctuation ':' then
          advance
          advance
          labelledStatement R around start label
        else expressionStatement R start)
      (do
        if (← following).isPunctuation ':' then
          advance
          advance
          labelledStatement S around start label
        else expressionStatement S start) := by
  refine consumes_following fun token lexer _ => ?_
  split_ifs
  · refine (takes_advance going).followed fun _ _ _ shorter => ?_
    have room := Nat.lt_of_lt_of_le shorter room
    exact same_advance.bind fun _ _ leads =>
      same_labelledStatement agree (leads.lt room) around start label
  · exact consumes_expressionStatement agree room start

/-- A statement consumes its first token. -/
theorem consumes_statement (room : c.ahead ≤ k) (around : Surroundings) :
    Consumes o c (statement R around) (statement S around) := by
  have begun {c' : Cursor} (room : c'.ahead ≤ k) :
      Consumes o c' (statementFrom R around) (statementFrom S around) := by
    unfold statementFrom
    simp only [consumes_startOfToken, consumes_currentKind]
    split
    · next label kind =>
      exact consumes_namedStatement agree room (going_of_kind kind (by simp)) around _ label
    · exact consumes_expressionStatement agree room _
    · exact consumes_expressionStatement agree room _
    · exact consumes_expressionStatement agree room _
    · exact consumes_expressionStatement agree room _
    · exact consumes_expressionStatement agree room _
    · exact consumes_expressionStatement agree room _
    · exact consumes_expressionStatement agree room _
    · exact (consumes_block agree room around).followed fun _ _ _ => same_spanFrom.2 (same_pure _)
    · next kind =>
      exact (takes_advance (going_of_kind kind (by simp))).followed fun _ _ _ _ =>
        same_spanFrom.2 (same_pure _)
    · next keyword kind =>
      split_ifs
      · refine (takes_advance (going_of_kind kind (by simp))).followed fun _ _ _ shorter => ?_
        exact same_keywordStatement agree (Nat.lt_of_lt_of_le shorter room) around _ keyword
      · exact consumes_unexpected
    · exact consumes_unexpected
  unfold statement
  simp only [consumes_atOperator]
  split_ifs with slash
  · have going : c.token.isEof = false := by
      rcases Bool.or_eq_true_iff.1 slash with slash | slash
      · exact going_of_operator slash
      · exact going_of_operator slash
    exact (same_rereadRegexp going).before fun _ _ leads => begun (leads.le room)
  · exact begun room

/-! ## Chunks -/

theorem same_commandExpression (room : c.ahead < k) :
    Same o c (commandExpression R) (commandExpression S) := by
  unfold commandExpression
  exact (agree.expression room true false).bind fun _ _ _ =>
    (takes_expectMarker _).same.bind fun _ _ _ => same_pure _

theorem same_blockBody (room : c.ahead < k) (name : String) (opening : Span) (branches : Bool) :
    Same o c (blockBody R name opening branches) (blockBody S name opening branches) := by
  unfold blockBody
  refine same_loop (fun chunks c' leads => ?_) _
  have room := leads.lt room
  have chunk : Same o c' (do return .inl (chunks ++ [← R.chunk]) : Parser (List Chunk ⊕ List Chunk))
      (do return .inl (chunks ++ [← S.chunk])) :=
    (agree.chunk room).bind fun _ _ _ => same_pure _
  simp only [same_current, same_ite]
  split_ifs
  · exact same_fails rfl
  · exact same_fails rfl
  · exact same_fails rfl
  · exact same_pure _
  · refine same_following fun token lexer _ => ?_
    split_ifs
    · exact same_pure _
    · exact chunk
  · exact chunk

theorem same_eachHead (room : c.ahead < k) : Same o c (eachHead R) (eachHead S) := by
  unfold eachHead
  simp only [same_current, same_atPunctuation, same_ite]
  split_ifs
  · refine same_advance.bind fun _ _ leads => ?_
    have room := leads.lt room
    refine (same_expressionList agree room ')' false false).bind fun items c' leads => ?_
    have room := leads.lt room
    simp only [same_atMarker, same_ite]
    split_ifs
    · split
      · exact same_pure _
      · exact same_current.2 (same_refuse _)
    · exact (same_bindingNames _ items).bind fun _ _ leads =>
        (agree.expression (leads.lt room) true false).bind fun _ _ _ => same_pure _
  · exact (agree.expression room true false).bind fun _ _ _ => same_pure _

theorem same_eachBlock (room : c.ahead < k) (opening : Span) :
    Same o c (eachBlock R opening) (eachBlock S opening) := by
  unfold eachBlock
  refine (same_eachHead agree room).bind fun head _ leads => ?_
  have room := leads.lt room
  refine (takes_expectMarker _).same.bind fun _ _ leads => ?_
  have room := leads.lt room
  exact (same_blockBody agree room _ opening false).bind fun _ _ _ =>
    (same_closeBlock _ opening).bind fun _ _ _ => same_spanFrom.2 (same_pure _)

theorem same_elseBranches (room : c.ahead < k) (opening : Span) :
    Same o c (elseBranches R opening) (elseBranches S opening) := by
  unfold elseBranches
  refine same_loop (fun branches c' leads => ?_) _
  have room := leads.lt room
  simp only [same_atMarker, same_ite]
  split
  · exact same_pure _
  · refine same_advance.bind fun _ _ leads => ?_
    have room := leads.lt room
    simp only [same_current]
    refine same_advance.bind fun _ _ leads => ?_
    have room := leads.lt room
    simp only [same_atMarker, same_ite]
    split_ifs
    · exact same_fails rfl
    · exact same_advance.bind fun _ _ leads =>
        (same_blockBody agree (leads.lt room) _ opening true).bind fun _ _ _ => same_pure _
    · exact same_fails rfl
    · exact (same_commandExpression agree room).bind fun _ _ leads =>
        (same_blockBody agree (leads.lt room) _ opening true).bind fun _ _ _ => same_pure _

theorem same_ifBlock (room : c.ahead < k) (opening : Span) :
    Same o c (ifBlock R opening) (ifBlock S opening) := by
  unfold ifBlock
  refine (same_commandExpression agree room).bind fun _ _ leads => ?_
  have room := leads.lt room
  refine (same_blockBody agree room _ opening true).bind fun _ _ leads => ?_
  have room := leads.lt room
  exact (same_elseBranches agree room opening).bind fun _ _ _ =>
    (same_closeBlock _ opening).bind fun _ _ _ => same_spanFrom.2 (same_pure _)

theorem same_inclusion (room : c.ahead < k) (opening : Span) :
    Same o c (inclusion R opening) (inclusion S opening) := by
  unfold inclusion
  have behind (args : Option (List Expr)) {c' : Cursor} (room : c'.ahead < k) :
      Same o c'
        (do
          let name ← commandExpression R
          return .include (← spanFrom opening.start) args name)
        (do
          let name ← commandExpression S
          return Chunk.include (← spanFrom opening.start) args name) :=
    (same_commandExpression agree room).bind fun _ _ _ => same_spanFrom.2 (same_pure _)
  simp only [same_atPunctuation, same_ite]
  split_ifs
  · exact same_advance.bind fun _ _ first =>
      (same_expressionList agree (first.lt room) ')' false false).bind fun _ _ second =>
        same_pureBind.2 (behind _ (second.lt (first.lt room)))
  · exact same_pureBind.2 (behind none room)

theorem same_command (room : c.ahead < k) (opening : Span) :
    Same o c (command R opening) (command S opening) := by
  unfold command
  simp only [same_currentKind]
  split
  · exact same_advance.bind fun _ _ leads => same_eachBlock agree (leads.lt room) opening
  · exact same_advance.bind fun _ _ leads => same_inclusion agree (leads.lt room) opening
  · exact same_advance.bind fun _ _ leads =>
      (same_commandExpression agree (leads.lt room)).bind fun _ _ _ => same_spanFrom.2 (same_pure _)
  · exact same_advance.bind fun _ _ leads =>
      (same_commandExpression agree (leads.lt room)).bind fun _ _ _ => same_spanFrom.2 (same_pure _)
  · exact same_advance.bind fun _ _ leads => same_ifBlock agree (leads.lt room) opening
  · exact same_advance.bind fun _ _ leads =>
      (same_definitions agree (leads.lt room) false).bind fun _ _ _ =>
        (takes_expectMarker _).same.bind fun _ _ _ => same_spanFrom.2 (same_pure _)
  · exact same_unexpected

/-- A chunk consumes its first token. -/
theorem consumes_chunk (room : c.ahead ≤ k) : Consumes o c (chunk R) (chunk S) := by
  unfold chunk
  simp only [consumes_current]
  split
  · next kind =>
    exact (takes_advance (going_of_kind kind (by simp))).followed fun _ _ _ _ =>
      same_spanFrom.2 (same_pure _)
  · next kind =>
    refine (takes_advance (going_of_kind kind (by simp))).followed fun _ _ _ shorter => ?_
    exact (agree.expression (Nat.lt_of_lt_of_le shorter room) true false).bind fun _ _ _ =>
      (takes_expectMarker _).same.bind fun _ _ _ => same_spanFrom.2 (same_pure _)
  · next kind =>
    refine (takes_advance (going_of_kind kind (by simp))).followed fun _ _ _ shorter => ?_
    exact same_command agree (Nat.lt_of_lt_of_le shorter room) _
  · exact ⟨rfl, trivial⟩

/-! ## All depths -/

/-- Unfolded once more, the rules agree before one token more. -/
theorem agree_unfold : Rules.Agree (k + 1) R.unfold S.unfold where
  expression room commas noIn :=
    (consumes_expression agree (Nat.le_of_lt_succ room) commas noIn).same
  assignment room noIn := (consumes_assignment agree (Nat.le_of_lt_succ room) noIn).same
  operators room := same_operators agree (Nat.le_of_lt_succ room)
  unary room calls := (consumes_unary agree (Nat.le_of_lt_succ room) calls).same
  primary room calls := (consumes_primary agree (Nat.le_of_lt_succ room) calls).same
  statement room around := (consumes_statement agree (Nat.le_of_lt_succ room) around).same
  chunk room := (consumes_chunk agree (Nat.le_of_lt_succ room)).same

end Rules

/-- Any rules agree wherever less than nothing lies ahead. -/
theorem agree_none {R S : Rules} : Rules.Agree 0 R S := by
  constructor <;> exact fun room => absurd room (Nat.not_lt_zero _)

/-- The rules for nestings up to two depths agree wherever less than both depths lies ahead. By
induction on what lies ahead: nothing is less than nothing. -/
theorem agree_upTo {k n m : Nat} (first : k ≤ n) (second : k ≤ m) :
    Rules.Agree k (Rules.upTo n) (Rules.upTo m) := by
  induction k generalizing n m with
  | zero => exact agree_none
  | succ k ih =>
    obtain ⟨n, rfl⟩ :=
      Nat.exists_eq_succ_of_ne_zero (Nat.ne_of_gt (Nat.lt_of_lt_of_le k.succ_pos first))
    obtain ⟨m, rfl⟩ :=
      Nat.exists_eq_succ_of_ne_zero (Nat.ne_of_gt (Nat.lt_of_lt_of_le k.succ_pos second))
    exact agree_unfold (ih (Nat.le_of_succ_le_succ first) (Nat.le_of_succ_le_succ second))

end Stencil.Grammar
