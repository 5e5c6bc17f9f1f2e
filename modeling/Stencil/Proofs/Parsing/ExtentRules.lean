import Stencil.Proofs.Parsing.Extents
/-!
# Where the rules of the grammar lay their trees

Run with spans, every rule of the grammar lays the trees it reads behind one another in the text it
goes over, and gives each a span from its first token to its last. A tree begins where its rule was
entered (`Cursor.Fills`); where a rule goes on behind a left operand, it begins where the operand
did, so such a rule is described from an earlier cursor.

The rules of one depth are followed one by one, given those that are entered again from within
(`Rules.Placing`), and the depths by induction.
-/

set_option autoImplicit false
set_option linter.unusedSectionVars false

namespace Stencil.Grammar

open Stencil.Error (Fault ParseError)
open Stencil.Syntax
open Stencil.Text (Position Span)
open Stencil.Grammar.Parser

/-- The rules that are entered again from within others lay their trees where they are entered, and
binary operators where their left operand begins. -/
structure Rules.Placing (strict : Bool) (text : List Char) (R : Rules) : Prop where
  expression : ∀ {c : Cursor}, c.InText text → ∀ commas noIn,
    Gives (withSpans strict) c (R.expression commas noIn)
      fun e behind => c.Fills text [.expr e] behind
  assignment : ∀ {c : Cursor}, c.InText text → ∀ noIn,
    Gives (withSpans strict) c (R.assignment noIn) fun e behind => c.Fills text [.expr e] behind
  operators : ∀ {first c : Cursor} {left}, first.Fills text [.expr left] c → ∀ bound noIn,
    Gives (withSpans strict) c (R.operators left first.token.span.start bound noIn)
      fun e behind => first.Fills text [.expr e] behind
  unary : ∀ {c : Cursor}, c.InText text → ∀ calls,
    Gives (withSpans strict) c (R.unary calls) fun e behind => c.Fills text [.expr e] behind
  primary : ∀ {c : Cursor}, c.InText text → ∀ calls,
    Gives (withSpans strict) c (R.primary calls) fun e behind => c.Fills text [.expr e] behind
  statement : ∀ {c : Cursor}, c.InText text → ∀ around,
    Gives (withSpans strict) c (R.statement around) fun s behind => c.Fills text [.stmt s] behind
  chunk : ∀ {c : Cursor}, c.InText text →
    Gives (withSpans strict) c R.chunk fun chunk behind => c.Fills text [.chunk chunk] behind

/-- The parts below branches of which the last one gets a statement more. -/
theorem children_addToLast (statement : Stmt) {cases : List SwitchCase} (some : cases ≠ []) :
    (addToLast statement cases).flatMap SwitchCase.children =
      cases.flatMap SwitchCase.children ++ [.stmt statement] := by
  induction cases with
  | nil => exact absurd rfl some
  | cons first rest ih =>
    obtain ⟨test, body⟩ := first
    cases rest with
    | nil =>
      rw [addToLast]
      simp [SwitchCase.children]
    | cons second rest =>
      have deeper : addToLast statement (.mk test body :: second :: rest) =
          .mk test body :: addToLast statement (second :: rest) := rfl
      rw [deeper, List.flatMap_cons, ih (by simp), ← List.append_assoc, ← List.flatMap_cons]

section Rules

variable {strict : Bool} {text : List Char} {c : Cursor}

/-- Checking an update moves nothing. -/
theorem gives_checkUpdate (op : UnaryOp) (operand : Expr) :
    Gives (withSpans strict) c (checkUpdate op operand) fun _ behind => behind = c := by
  simp only [Gives, checkUpdate, ends_bind, ends_read, ends_ite, ends_pure]
  split_ifs
  exact gives_faultHere _

/-- Nor does taking the names that an iteration binds, which are those of the expressions listed. -/
theorem gives_bindingNames {o : Options} (listSpan : Span) (items : List Expr) :
    Gives o c (bindingNames listSpan items) fun names behind =>
      behind = c ∧ ∀ n ∈ names, ∃ s, Expr.name s n ∈ items := by
  induction items with
  | nil => exact ⟨rfl, by simp⟩
  | cons item rest ih =>
    cases item with
    | name s name =>
      rw [Gives, bindingNames, ends_bind]
      refine ih.next fun names _ found => ⟨found.1, fun n named => ?_⟩
      rcases List.mem_cons.1 named with rfl | named
      · exact ⟨s, List.mem_cons_self ..⟩
      · obtain ⟨s', there⟩ := found.2 n named
        exact ⟨s', List.mem_cons_of_mem _ there⟩
    | _ => trivial

variable {R : Rules} (placing : R.Placing strict text) {first : Cursor}

include placing

/-! ## Expressions -/

theorem lays_expressionList (inText : c.InText text) (closing : Char) (trailing gaps : Bool) :
    Gives (withSpans strict) c (expressionList R closing trailing gaps) fun items behind =>
      c.Lays text (items.map .expr) behind := by
  simp only [Gives, expressionList, ends_bind, ends_pure]
  refine gives_loop (fun items behind => c.Lays text (items.map .expr) behind) ?_ []
    (.refl inText)
  intro items behind laid
  have item {later : Cursor} (laid : c.Lays text (items.map .expr) later) :
      if trailing && later.token.isPunctuation closing then
        Gives (withSpans strict) later advance fun _ behind => c.Lays text (items.map .expr) behind
      else if gaps && later.token.isPunctuation ',' then
        c.Lays text ((items ++ [Expr.atom none .undefined]).map .expr) later
      else
        Gives (withSpans strict) later (R.expression false false) fun e behind =>
          c.Lays text ((items ++ [e]).map .expr) behind := by
    split_ifs
    · exact (lays_advance laid.there).next fun _ _ closed => by simpa using laid.trans closed
    · rw [List.map_append]
      exact laid.missing
    · exact (placing.expression laid.there false false).next fun _ _ read => laid.snoc read
  simp only [ends_bind, ends_atPunctuation, ends_ite, ends_pure]
  split
  · exact (lays_advance laid.there).next fun _ _ closed => by simpa using laid.trans closed
  · split
    · refine (fills_expectPunctuation laid.there ',').next fun _ _ comma => ?_
      exact item (by simpa using laid.trans comma.lays)
    · exact item laid

theorem fills_block (inText : c.InText text) (around : Surroundings) :
    Gives (withSpans strict) c (block R around)
      fun body behind => c.Fills text (body.map .stmt) behind := by
  simp only [Gives, block, ends_bind, ends_pure]
  refine (fills_expectPunctuation inText '\x7b').next fun _ inside opened => ?_
  refine gives_loop (fun body behind => inside.Lays text (body.map .stmt) behind) ?_ []
    (.refl opened.there)
  intro body behind laid
  simp only [ends_bind, ends_atPunctuation, ends_current, ends_ite, ends_pure]
  split_ifs
  · exact (lays_advance laid.there).next fun _ _ closed => by
      simpa using opened.trans (laid.trans closed)
  · exact gives_unexpected
  · exact (placing.statement laid.there around).next fun _ _ read => laid.snoc read

theorem lays_function (inText : c.InText text) (declaration : Bool) :
    Gives (withSpans strict) c (function R declaration)
      fun fn behind => c.Lays text fn.children behind := by
  have behind (name : Option String) {later : Cursor} (named : c.Lays text [] later) :
      Gives (withSpans strict) later (expectPunctuation '(') fun _ inside =>
        Gives (withSpans strict) inside parameters fun names closed =>
          Gives (withSpans strict) closed (block R .ofFunction) fun body behind =>
            c.Lays text (Function.mk name names body).children behind := by
    refine (fills_expectPunctuation named.there '(').next fun _ _ opened => ?_
    refine (lays_parameters opened.there).next fun _ _ closed => ?_
    exact (fills_block placing closed.there .ofFunction).next fun _ _ body =>
      named.trans (opened.lays.trans (closed.trans body.lays))
  simp only [Gives, function, ends_bind, ends_currentKind]
  split
  · simp only [ends_bind, ends_pure]
    exact (lays_advance inText).next fun _ _ named => behind _ named
  · split_ifs
    · exact gives_unexpected
    · simp only [ends_bind, ends_pure]
      exact behind none (.refl inText)

theorem lays_property (inText : c.InText text) :
    Gives (withSpans strict) c (property R)
      fun property behind => c.Lays text property.children behind := by
  simp only [Gives, property, ends_bind, ends_currentKind, ends_atPunctuation]
  refine (lays_propertyKey inText).next fun _ _ keyed => ?_
  split
  · simp only [ends_bind, ends_pure]
    refine (lays_anyName keyed.there).next fun _ _ named => ?_
    exact (lays_function placing named.there false).next fun _ _ read =>
      keyed.trans (named.trans read)
  · simp only [ends_bind, ends_pure]
    refine (lays_anyName keyed.there).next fun _ _ named => ?_
    exact (lays_function placing named.there false).next fun _ _ read =>
      keyed.trans (named.trans read)
  · simp only [ends_bind, ends_pure]
    refine (fills_expectPunctuation keyed.there ':').next fun _ _ colon => ?_
    exact (placing.expression colon.there false false).next fun _ _ read =>
      keyed.trans (colon.lays.trans read.lays)

theorem lays_objectBody (inText : c.InText text) :
    Gives (withSpans strict) c (objectBody R) fun properties behind =>
      c.Lays text (properties.flatMap Property.children) behind := by
  simp only [Gives, objectBody, ends_bind, ends_read, ends_pure]
  refine gives_loop
    (fun properties behind => c.Lays text (properties.flatMap Property.children) behind)
    ?_ [] (.refl inText)
  intro properties behind laid
  simp only [ends_bind, ends_atPunctuation, ends_ite, ends_pure]
  split_ifs
  · exact (lays_advance laid.there).next fun _ _ closed => by simpa using laid.trans closed
  · refine (fills_expectPunctuation laid.there ',').next fun _ _ comma => ?_
    split_ifs
    · exact (lays_advance comma.there).next fun _ _ closed => by
        simpa using laid.trans (comma.lays.trans closed)
    · exact (lays_property placing comma.there).next fun _ _ read =>
        laid.snocAll (comma.lays.trans read)
  · exact (lays_advance laid.there).next fun _ _ closed => by simpa using laid.trans closed
  · exact (lays_property placing laid.there).next fun _ _ read => laid.snocAll read

/-- Member accesses and calls behind an operand, which each goes round. -/
theorem fills_subscripts {operand : Expr} (read : first.Fills text [.expr operand] c)
    (calls : Bool) :
    Gives (withSpans strict) c (subscripts R operand first.token.span.start calls) fun e behind =>
      first.Fills text [.expr e] behind := by
  unfold subscripts
  refine gives_loop (fun e behind => first.Fills text [.expr e] behind) ?_ operand read
  intro operand behind read
  simp only [ends_bind, ends_atPunctuation, ends_ite, ends_spanFrom, ends_pure]
  split_ifs
  · refine (lays_advance read.there).next fun _ _ point => ?_
    exact (lays_anyName point.there).next fun _ _ named =>
      (read.trans (point.trans named)).enclose rfl rfl
  · refine (lays_advance read.there).next fun _ _ opened => ?_
    refine (placing.expression opened.there true false).next fun index _ inside => ?_
    exact (fills_expectPunctuation inside.there ']').next fun _ _ closed =>
      (read.trans (opened.trans (inside.lays.trans closed.lays))).enclose rfl rfl
  · refine (lays_advance read.there).next fun _ _ opened => ?_
    exact (lays_expressionList placing opened.there ')' false false).next fun args _ closed =>
      (read.trans (opened.trans closed)).enclose rfl rfl
  · exact read

theorem fills_newExpression (opened : first.Fills text [] c) :
    Gives (withSpans strict) c (newExpression R first.token.span.start) fun e behind =>
      first.Fills text [.expr e] behind := by
  simp only [Gives, newExpression, ends_bind, ends_atPunctuation]
  refine (placing.primary opened.there false).next fun callee behind read => ?_
  have called := opened.trans read.lays
  split_ifs
  · simp only [ends_bind, ends_spanFrom]
    refine (lays_advance called.there).next fun _ _ paren => ?_
    refine (lays_expressionList placing paren.there ')' false false).next fun args _ closed => ?_
    exact fills_subscripts placing ((called.trans (paren.trans closed)).enclose rfl rfl) true
  · simp only [ends_bind, ends_pure, ends_spanFrom]
    exact fills_subscripts placing (called.enclose rfl rfl) true

theorem fills_atom (inText : c.InText text) :
    Gives (withSpans strict) c (atom R c.token.span.start)
      fun e behind => c.Fills text [.expr e] behind := by
  have single {make : Option Span → Expr} (going : c.token.isEof = false)
      (own : ∀ span, (make span).span = span) (leaf : ∀ span, (make span).children = []) :
      Gives (withSpans strict) c (do advance; return make (← spanFrom c.token.span.start))
        fun e behind => c.Fills text [.expr e] behind := by
    simp only [Gives, ends_bind, ends_spanFrom, ends_pure]
    exact (fills_advance inText going).next fun _ _ read => read.enclose (own _) (leaf _)
  simp only [Gives, atom, ends_bind, ends_currentKind]
  split
  · next kind =>
    simp only [ends_bind, ends_read, ends_spanFrom, ends_pure]
    refine (fills_advance inText (going_of_kind kind (by simp))).next fun _ _ opened => ?_
    exact (lays_expressionList placing opened.there _ _ _).next fun items _ closed =>
      (opened.trans closed).enclose rfl rfl
  · next kind =>
    simp only [ends_bind, ends_spanFrom, ends_pure]
    refine (fills_advance inText (going_of_kind kind (by simp))).next fun _ _ opened => ?_
    exact (lays_objectBody placing opened.there).next fun properties _ closed =>
      (opened.trans closed).enclose rfl rfl
  · next kind =>
    simp only [ends_bind, ends_spanFrom, ends_pure]
    refine (fills_advance inText (going_of_kind kind (by simp))).next fun _ _ opened => ?_
    exact (lays_function placing opened.there false).next fun fn _ read =>
      (opened.trans read).enclose rfl rfl
  · next kind => exact single (going_of_kind kind (by simp)) (fun _ => rfl) fun _ => rfl
  · next kind => exact single (going_of_kind kind (by simp)) (fun _ => rfl) fun _ => rfl
  · next kind => exact single (going_of_kind kind (by simp)) (fun _ => rfl) fun _ => rfl
  · next kind => exact single (going_of_kind kind (by simp)) (fun _ => rfl) fun _ => rfl
  · next kind => exact single (going_of_kind kind (by simp)) (fun _ => rfl) fun _ => rfl
  · exact gives_unexpected

theorem fills_primary (inText : c.InText text) (calls : Bool) :
    Gives (withSpans strict) c (primary R calls) fun e behind => c.Fills text [.expr e] behind := by
  simp only [Gives, primary, ends_bind, ends_startOfToken, ends_atOperator, ends_atPunctuation,
    ends_ite]
  split_ifs with new paren
  · exact (fills_advance inText (going_of_operator new)).next fun _ _ opened =>
      fills_newExpression placing opened
  · refine (fills_advance inText (going_of_punctuation paren)).next fun _ _ opened => ?_
    refine (placing.expression opened.there true false).next fun inner _ read => ?_
    exact (fills_expectPunctuation read.there ')').next fun _ _ closed =>
      fills_subscripts placing (opened.trans (read.lays.trans closed.lays)) calls
  · exact (fills_atom placing inText).next fun operand _ read =>
      fills_subscripts placing read calls

theorem fills_unary (inText : c.InText text) (calls : Bool) :
    Gives (withSpans strict) c (unary R calls) fun e behind => c.Fills text [.expr e] behind := by
  simp only [Gives, unary, ends_bind, ends_startOfToken, ends_currentKind]
  split
  · next op before =>
    simp only [ends_bind, ends_spanFrom, ends_pure]
    refine (fills_advance inText (going_of_before before)).next fun _ _ sign => ?_
    refine (placing.unary sign.there calls).next fun operand _ read => ?_
    refine (gives_checkUpdate op operand).next fun _ _ same => ?_
    subst same
    exact (sign.trans read.lays).enclose rfl rfl
  · rw [ends_bind]
    refine (fills_primary placing inText calls).next fun operand _ read => ?_
    refine gives_loop (fun e behind => c.Fills text [.expr e] behind) ?_ operand read
    intro operand behind read
    simp only [ends_bind, ends_current]
    split
    · next op _ =>
      simp only [ends_bind, ends_spanFrom, ends_pure]
      refine (lays_advance read.there).next fun _ _ sign => ?_
      refine (gives_checkUpdate op operand).next fun _ _ same => ?_
      subst same
      exact (read.trans sign).enclose rfl rfl
    · exact read

/-- Binary operators behind a left operand, which begin where it does. -/
theorem fills_operators {left : Expr} (read : first.Fills text [.expr left] c) (bound : Nat)
    (noIn : Bool) :
    Gives (withSpans strict) c (operators R left first.token.span.start bound noIn) fun e behind =>
      first.Fills text [.expr e] behind := by
  simp only [Gives, operators, ends_bind, ends_currentKind]
  split
  · exact read
  · next op _ =>
    simp only [ends_bind, ends_ite, ends_startOfToken, ends_spanFrom, ends_pure]
    split_ifs
    · exact read
    · refine (lays_advance read.there).next fun _ _ sign => ?_
      refine (fills_unary placing sign.there true).next fun operand _ operated => ?_
      refine (placing.operators operated op.precedence noIn).next fun right _ whole => ?_
      exact placing.operators ((read.trans (sign.trans whole.lays)).enclose rfl rfl) bound noIn

theorem fills_conditional (inText : c.InText text) (noIn : Bool) :
    Gives (withSpans strict) c (conditional R noIn)
      fun e behind => c.Fills text [.expr e] behind := by
  simp only [Gives, conditional, ends_bind, ends_startOfToken, ends_atOperator, ends_ite,
    ends_spanFrom, ends_pure]
  refine (fills_unary placing inText true).next fun operand _ operated => ?_
  refine (fills_operators placing operated 0 noIn).next fun test _ tested => ?_
  split_ifs
  · refine (lays_advance tested.there).next fun _ _ mark => ?_
    refine (placing.expression mark.there false false).next fun yes _ one => ?_
    refine (fills_expectPunctuation one.there ':').next fun _ _ colon => ?_
    exact (placing.expression colon.there false noIn).next fun no _ other =>
      (tested.trans (mark.trans (one.lays.trans (colon.lays.trans other.lays)))).enclose rfl rfl
  · exact tested

theorem fills_assignment (inText : c.InText text) (noIn : Bool) :
    Gives (withSpans strict) c (assignment R noIn)
      fun e behind => c.Fills text [.expr e] behind := by
  simp only [Gives, assignment, ends_bind, ends_startOfToken, ends_currentKind]
  refine (fills_conditional placing inText noIn).next fun target _ aimed => ?_
  split
  · exact aimed
  · simp only [ends_bind, ends_read, ends_ite, ends_spanFrom, ends_pure]
    split_ifs
    · exact gives_faultHere _
    · refine (lays_advance aimed.there).next fun _ _ sign => ?_
      exact (placing.assignment sign.there noIn).next fun value _ read =>
        (aimed.trans (sign.trans read.lays)).enclose rfl rfl

theorem fills_expression (inText : c.InText text) (commas noIn : Bool) :
    Gives (withSpans strict) c (expression R commas noIn)
      fun e behind => c.Fills text [.expr e] behind := by
  simp only [Gives, expression, ends_bind, ends_startOfToken, ends_atPunctuation, ends_ite,
    ends_spanFrom, ends_pure]
  refine (fills_assignment placing inText noIn).next fun first _ read => ?_
  split_ifs
  · refine (lays_advance read.there).next fun _ _ comma => ?_
    exact (placing.expression comma.there true noIn).next fun rest _ others =>
      (read.trans (comma.trans others.lays)).enclose rfl rfl
  · exact read

theorem lays_definitions (inText : c.InText text) (noIn : Bool) :
    Gives (withSpans strict) c (definitions R noIn) fun defs behind =>
      c.Lays text (defs.flatMap VarDef.children) behind := by
  unfold definitions
  refine gives_loop
    (fun defs behind => c.Lays text (defs.flatMap VarDef.children) behind) ?_ []
    (.refl inText)
  intro defs behind laid
  have finish {defs : List VarDef} {later : Cursor}
      (laid : c.Lays text (defs.flatMap VarDef.children) later) :
      if later.token.isPunctuation ',' then
        Gives (withSpans strict) later advance fun _ behind =>
          c.Lays text (defs.flatMap VarDef.children) behind
      else c.Lays text (defs.flatMap VarDef.children) later := by
    split_ifs
    · exact (lays_advance laid.there).next fun _ _ comma => by simpa using laid.trans comma
    · exact laid
  simp only [ends_bind, ends_atOperator, ends_atPunctuation, ends_ite, ends_pure]
  refine (lays_plainName laid.there).next fun name _ named => ?_
  split
  · refine (lays_advance named.there).next fun _ _ sign => ?_
    refine (placing.expression sign.there false noIn).next fun value _ read => ?_
    exact finish (laid.snocAll (named.trans (sign.trans read.lays)))
  · exact finish (laid.snocAll named)

theorem lays_parenthesised (inText : c.InText text) :
    Gives (withSpans strict) c (parenthesised R) fun e behind => c.Lays text [.expr e] behind := by
  simp only [Gives, parenthesised, ends_bind, ends_pure]
  refine (fills_expectPunctuation inText '(').next fun _ _ opened => ?_
  refine (placing.expression opened.there true false).next fun value _ read => ?_
  exact (fills_expectPunctuation read.there ')').next fun _ _ closed =>
    opened.lays.trans (read.lays.trans closed.lays)

/-! ## Statements -/

theorem fills_expressionStatement (inText : c.InText text) :
    Gives (withSpans strict) c (expressionStatement R c.token.span.start) fun s behind =>
      c.Fills text [.stmt s] behind := by
  simp only [Gives, expressionStatement, ends_bind, ends_spanFrom, ends_pure]
  refine (fills_expression placing inText true false).next fun value _ read => ?_
  exact (lays_semicolon read.there).next fun _ _ ended => (read.trans ended).enclose rfl rfl

theorem fills_labelledStatement (opened : first.Fills text [] c) (around : Surroundings)
    (label : String) :
    Gives (withSpans strict) c (labelledStatement R around first.token.span.start label)
      fun s behind => first.Fills text [.stmt s] behind := by
  unfold labelledStatement
  split_ifs
  · exact gives_faultHere _
  · simp only [ends_bind, ends_spanFrom, ends_pure]
    exact (placing.statement opened.there _).next fun body _ read =>
      (opened.trans read.lays).enclose rfl rfl

theorem fills_doStatement (opened : first.Fills text [] c) (around : Surroundings) :
    Gives (withSpans strict) c (doStatement R around first.token.span.start) fun s behind =>
      first.Fills text [.stmt s] behind := by
  simp only [Gives, doStatement, ends_bind, ends_atKeyword]
  refine (placing.statement opened.there around.looping).next fun body _ read => ?_
  split_ifs
  · exact gives_expected _
  · simp only [ends_bind, ends_spanFrom, ends_pure]
    refine (lays_advance read.there).next fun _ _ keyword => ?_
    refine (lays_parenthesised placing keyword.there).next fun condition _ tested => ?_
    exact (lays_semicolon tested.there).next fun _ _ ended =>
      (opened.trans (read.lays.trans (keyword.trans (tested.trans ended)))).enclose rfl rfl

theorem lays_optionalBefore (inText : c.InText text) (closing : Char) :
    Gives (withSpans strict) c (optionalBefore R closing) fun value behind =>
      c.Lays text (optionalChild value) behind := by
  simp only [Gives, optionalBefore, ends_bind, ends_atPunctuation, ends_ite, ends_pure]
  split_ifs
  · exact .refl inText
  · exact (placing.expression inText true false).next fun _ _ read => read.lays

theorem fills_conditionalFor {head : Option ForHead}
    (opened : first.Fills text (head.toList.flatMap ForHead.children) c) (around : Surroundings) :
    Gives (withSpans strict) c (conditionalFor R around first.token.span.start head) fun s behind =>
      first.Fills text [.stmt s] behind := by
  simp only [Gives, conditionalFor, ends_bind, ends_spanFrom, ends_pure]
  refine (fills_expectPunctuation opened.there ';').next fun _ _ one => ?_
  refine (lays_optionalBefore placing one.there ';').next fun test _ tested => ?_
  refine (fills_expectPunctuation tested.there ';').next fun _ _ two => ?_
  refine (lays_optionalBefore placing two.there ')').next fun step _ stepped => ?_
  refine (fills_expectPunctuation stepped.there ')').next fun _ _ closed => ?_
  refine (placing.statement closed.there around.looping).next fun body _ read => ?_
  have whole := opened.trans (one.lays.trans (tested.trans (two.lays.trans (stepped.trans
    (closed.lays.trans read.lays)))))
  exact whole.enclose rfl (by simp [Part.children, Stmt.children])

theorem fills_iteratingFor {head : ForHead} (opened : first.Fills text head.children c)
    (around : Surroundings) :
    Gives (withSpans strict) c (iteratingFor R around first.token.span.start head) fun s behind =>
      first.Fills text [.stmt s] behind := by
  have iterating :
      Gives (withSpans strict) c
        (do
          advance
          let object ← R.expression true false
          expectPunctuation ')'
          let body ← R.statement around.looping
          return .forIn (← spanFrom first.token.span.start) head object body)
        fun s behind => first.Fills text [.stmt s] behind := by
    simp only [Gives, ends_bind, ends_spanFrom, ends_pure]
    refine (lays_advance opened.there).next fun _ _ keyword => ?_
    refine (placing.expression keyword.there true false).next fun object _ ranged => ?_
    refine (fills_expectPunctuation ranged.there ')').next fun _ _ closed => ?_
    exact (placing.statement closed.there around.looping).next fun body _ read =>
      (opened.trans (keyword.trans (ranged.lays.trans (closed.lays.trans read.lays)))).enclose
        rfl rfl
  unfold iteratingFor
  dsimp only
  split
  · exact gives_faultHere _
  · exact iterating

theorem fills_forStatement (opened : first.Fills text [] c) (around : Surroundings) :
    Gives (withSpans strict) c (forStatement R around first.token.span.start) fun s behind =>
      first.Fills text [.stmt s] behind := by
  simp only [Gives, forStatement, ends_bind, ends_atPunctuation]
  refine (fills_expectPunctuation opened.there '(').next fun _ inside paren => ?_
  have within := opened.trans paren.lays
  have behind (head : ForHead) {later : Cursor} (read : inside.Lays text head.children later) :
      Gives (withSpans strict) later
        (do
          if ← atOperator "in" then iteratingFor R around first.token.span.start head
          else conditionalFor R around first.token.span.start (some head))
        fun s behind => first.Fills text [.stmt s] behind := by
    simp only [Gives, ends_bind, ends_atOperator, ends_ite]
    split_ifs
    · exact fills_iteratingFor placing (within.trans read) around
    · have headed : first.Fills text ((some head).toList.flatMap ForHead.children) later := by
        simpa using within.trans read
      exact fills_conditionalFor placing headed around
  split_ifs
  · exact fills_conditionalFor placing within around
  · rw [ends_atKeyword]
    split_ifs
    · simp only [ends_bind]
      refine (lays_advance paren.there).next fun _ _ keyword => ?_
      refine (lays_definitions placing keyword.there true).next fun defs _ read => ?_
      exact behind (.var defs) (keyword.trans read)
    · simp only [ends_bind]
      refine (placing.expression paren.there true true).next fun value _ read => ?_
      exact behind (.expr value) read.lays

theorem fills_ifStatement (opened : first.Fills text [] c) (around : Surroundings) :
    Gives (withSpans strict) c (ifStatement R around first.token.span.start) fun s behind =>
      first.Fills text [.stmt s] behind := by
  simp only [Gives, ifStatement, ends_bind, ends_atKeyword]
  refine (lays_parenthesised placing opened.there).next fun condition _ tested => ?_
  refine (placing.statement tested.there around).next fun thenBranch _ read => ?_
  have known := opened.trans (tested.trans read.lays)
  split_ifs
  · simp only [ends_bind, ends_pure, ends_spanFrom]
    refine (lays_advance known.there).next fun _ _ keyword => ?_
    exact (placing.statement keyword.there around).next fun elseBranch _ other =>
      (known.trans (keyword.trans other.lays)).enclose rfl rfl
  · simp only [ends_bind, ends_pure, ends_spanFrom]
    exact known.enclose rfl rfl

theorem fills_returnStatement (opened : first.Fills text [] c) (around : Surroundings) :
    Gives (withSpans strict) c (returnStatement R around first.token.span.start) fun s behind =>
      first.Fills text [.stmt s] behind := by
  unfold returnStatement
  split_ifs
  · exact gives_faultHere _
  · simp only [Gives, ends_bind, ends_atPunctuation]
    split_ifs
    · simp only [ends_bind, ends_pure, ends_spanFrom]
      exact (lays_advance opened.there).next fun _ _ ended => (opened.trans ended).enclose rfl rfl
    · simp only [mayOmitSemicolon, ends_bind, ends_current, ends_read, ends_pure]
      split_ifs
      · simp only [ends_bind, ends_pure, ends_spanFrom]
        exact opened.enclose rfl rfl
      · simp only [ends_bind, ends_pure, ends_spanFrom]
        refine (placing.expression opened.there true false).next fun value _ read => ?_
        exact (lays_semicolon read.there).next fun _ _ ended =>
          (opened.trans (read.lays.trans ended)).enclose rfl rfl

theorem fills_switchStatement (opened : first.Fills text [] c) (around : Surroundings) :
    Gives (withSpans strict) c (switchStatement R around first.token.span.start) fun s behind =>
      first.Fills text [.stmt s] behind := by
  simp only [Gives, switchStatement, ends_bind, ends_spanFrom, ends_pure]
  refine (lays_parenthesised placing opened.there).next fun discriminant _ chosen => ?_
  refine (fills_expectPunctuation chosen.there '\x7b').next fun _ inside brace => ?_
  refine gives_loop
    (fun cases behind => inside.Lays text (cases.flatMap SwitchCase.children) behind) ?_ []
    (.refl brace.there)
  intro cases behind laid
  simp only [ends_bind, ends_atPunctuation, ends_atKeyword, ends_ite, ends_pure]
  split_ifs with closing labelled default none
  · refine (lays_advance laid.there).next fun _ _ closed => ?_
    have whole := opened.trans (chosen.trans (brace.lays.trans (laid.trans closed)))
    exact whole.enclose rfl (by simp [Part.children, Stmt.children])
  · refine (lays_advance laid.there).next fun _ _ keyword => ?_
    refine (placing.expression keyword.there true false).next fun test _ read => ?_
    exact (fills_expectPunctuation read.there ':').next fun _ _ colon =>
      laid.snocAll (keyword.trans (read.lays.trans colon.lays))
  · refine (lays_advance laid.there).next fun _ _ keyword => ?_
    exact (fills_expectPunctuation keyword.there ':').next fun _ _ colon =>
      laid.snocAll (keyword.trans colon.lays)
  · exact gives_unexpected
  · refine (placing.statement laid.there around.looping).next fun statement _ read => ?_
    have some : cases ≠ [] := by simpa using none
    rw [children_addToLast statement some]
    exact laid.trans read.lays

/-- What is left of a `try` statement behind its handler. -/
theorem fills_finalizer {body : List Stmt} {handler : Option Handler}
    (handled : first.Fills text (body.map .stmt ++ handler.toList.flatMap Handler.children) c)
    (around : Surroundings) :
    Gives (withSpans strict) c
      (do
        let finalizer ←
          if ← atKeyword .finally then do
            advance
            pure (some (← block R around))
          else pure none
        if handler.isNone && finalizer.isNone then faultHere .bareTry
        return .tryCatch (← spanFrom first.token.span.start) body handler finalizer : Parser Stmt)
      fun s behind => first.Fills text [.stmt s] behind := by
  simp only [Gives, ends_bind, ends_atKeyword]
  split_ifs
  · simp only [ends_bind, ends_ite, ends_spanFrom, ends_pure]
    refine (lays_advance handled.there).next fun _ _ keyword => ?_
    refine (fills_block placing keyword.there around).next fun finalizer _ final => ?_
    split_ifs
    · exact gives_faultHere _
    · exact (handled.trans (keyword.trans final.lays)).enclose rfl rfl
  · simp only [ends_bind, ends_ite, ends_spanFrom, ends_pure]
    split_ifs
    · exact gives_faultHere _
    · exact handled.enclose rfl (by simp [Part.children, Stmt.children])

theorem fills_tryStatement (opened : first.Fills text [] c) (around : Surroundings) :
    Gives (withSpans strict) c (tryStatement R around first.token.span.start) fun s behind =>
      first.Fills text [.stmt s] behind := by
  simp only [Gives, tryStatement]
  rw [ends_bind]
  refine (fills_block placing opened.there around).next fun body _ tried => ?_
  rw [ends_bind, ends_atKeyword]
  split_ifs
  · rw [ends_bind]
    refine (lays_advance tried.there).next fun _ _ keyword => ?_
    rw [ends_bind]
    refine (fills_expectPunctuation keyword.there '(').next fun _ _ paren => ?_
    rw [ends_bind]
    refine (lays_plainName paren.there).next fun name _ named => ?_
    rw [ends_bind]
    refine (fills_expectPunctuation named.there ')').next fun _ _ closed => ?_
    rw [ends_bind]
    refine (fills_block placing closed.there around).next fun handling _ handled => ?_
    rw [ends_bind, ends_pure]
    have caught := keyword.trans (paren.lays.trans (named.trans (closed.lays.trans handled.lays)))
    refine fills_finalizer placing ?_ around
    simpa [Handler.children] using opened.trans (tried.lays.trans caught)
  · rw [ends_bind]
    exact fills_finalizer placing (by simpa using opened.trans tried.lays) around

theorem fills_throwStatement (opened : first.Fills text [] c) :
    Gives (withSpans strict) c (throwStatement R first.token.span.start) fun s behind =>
      first.Fills text [.stmt s] behind := by
  simp only [Gives, throwStatement, ends_bind, ends_current, ends_ite, ends_spanFrom, ends_pure]
  split_ifs
  · exact gives_faultHere _
  · refine (placing.expression opened.there true false).next fun value _ read => ?_
    exact (lays_semicolon read.there).next fun _ _ ended =>
      (opened.trans (read.lays.trans ended)).enclose rfl rfl

theorem fills_keywordStatement (opened : first.Fills text [] c) (around : Surroundings)
    (keyword : Keyword) :
    Gives (withSpans strict) c (keywordStatement R around first.token.span.start keyword)
      fun s behind => first.Fills text [.stmt s] behind := by
  have declared {make : Option Span → List VarDef → Stmt}
      (own : ∀ span defs, (make span defs).span = span)
      (below : ∀ span defs, (make span defs).children = defs.flatMap VarDef.children) :
      Gives (withSpans strict) c
        (do
          let defs ← definitions R false
          semicolon
          return make (← spanFrom first.token.span.start) defs)
        fun s behind => first.Fills text [.stmt s] behind := by
    simp only [Gives, ends_bind, ends_spanFrom, ends_pure]
    refine (lays_definitions placing opened.there false).next fun defs _ read => ?_
    exact (lays_semicolon read.there).next fun _ _ ended =>
      (opened.trans (read.trans ended)).enclose (own _ _) (by simpa [Part.children] using below _ _)
  have looped {make : Option Span → Expr → Stmt → Stmt} (inner : Surroundings)
      (own : ∀ span e s, (make span e s).span = span)
      (below : ∀ span e s, (make span e s).children = [.expr e, .stmt s]) :
      Gives (withSpans strict) c
        (do
          let head ← parenthesised R
          let body ← R.statement inner
          return make (← spanFrom first.token.span.start) head body)
        fun s behind => first.Fills text [.stmt s] behind := by
    simp only [Gives, ends_bind, ends_spanFrom, ends_pure]
    refine (lays_parenthesised placing opened.there).next fun head _ tested => ?_
    exact (placing.statement tested.there inner).next fun body _ read =>
      (opened.trans (tested.trans read.lays)).enclose (own _ _ _) (below _ _ _)
  unfold keywordStatement
  cases keyword with
  | «break» | «continue» =>
    simp only [Gives, ends_bind, ends_spanFrom, ends_pure]
    exact (lays_jumpTarget opened.there around _).next fun _ _ jumped =>
      (opened.trans jumped).enclose rfl rfl
  | debugger =>
    simp only [Gives, ends_bind, ends_spanFrom, ends_pure]
    exact (lays_semicolon opened.there).next fun _ _ ended => (opened.trans ended).enclose rfl rfl
  | «do» => exact fills_doStatement placing opened around
  | «for» => exact fills_forStatement placing opened around
  | function =>
    simp only [Gives, ends_bind, ends_spanFrom, ends_pure]
    exact (lays_function placing opened.there true).next fun fn _ read =>
      (opened.trans read).enclose rfl rfl
  | «if» => exact fills_ifStatement placing opened around
  | «return» => exact fills_returnStatement placing opened around
  | switch => exact fills_switchStatement placing opened around
  | throw => exact fills_throwStatement placing opened
  | «try» => exact fills_tryStatement placing opened around
  | var => exact declared (fun _ _ => rfl) fun _ _ => rfl
  | const => exact declared (fun _ _ => rfl) fun _ _ => rfl
  | «while» => exact looped around.looping (fun _ _ _ => rfl) fun _ _ _ => rfl
  | «with» => exact looped around (fun _ _ _ => rfl) fun _ _ _ => rfl
  | case | «catch» | default | «else» | «finally» => exact gives_unexpected

/-- A statement that begins with no slash that is to be read again. -/
theorem fills_statementFrom (inText : c.InText text) (around : Surroundings) :
    Gives (withSpans strict) c (statementFrom R around)
      fun s behind => c.Fills text [.stmt s] behind := by
  simp only [Gives, statementFrom, ends_bind, ends_startOfToken, ends_currentKind]
  split
  · next label kind =>
    simp only [ends_bind, ends_ite]
    refine gives_following.next fun token behind same => ?_
    subst same
    split_ifs
    · refine (fills_advance inText (going_of_kind kind (by simp))).next fun _ _ named => ?_
      exact (lays_advance named.there).next fun _ _ colon =>
        fills_labelledStatement placing (named.trans colon) around label
    · exact fills_expressionStatement placing inText
  · exact fills_expressionStatement placing inText
  · exact fills_expressionStatement placing inText
  · exact fills_expressionStatement placing inText
  · exact fills_expressionStatement placing inText
  · exact fills_expressionStatement placing inText
  · exact fills_expressionStatement placing inText
  · exact fills_expressionStatement placing inText
  · simp only [ends_bind, ends_spanFrom, ends_pure]
    exact (fills_block placing inText around).next fun body _ read => read.enclose rfl rfl
  · next kind =>
    simp only [ends_bind, ends_spanFrom, ends_pure]
    exact (fills_advance inText (going_of_kind kind (by simp))).next fun _ _ read =>
      read.enclose rfl rfl
  · next keyword kind =>
    split_ifs
    · rw [ends_bind]
      exact (fills_advance inText (going_of_kind kind (by simp))).next fun _ _ opened =>
        fills_keywordStatement placing opened around keyword
    · exact gives_unexpected
  · exact gives_unexpected

theorem fills_statement (inText : c.InText text) (around : Surroundings) :
    Gives (withSpans strict) c (statement R around)
      fun s behind => c.Fills text [.stmt s] behind := by
  unfold statement
  rw [Gives, ends_bind, ends_atOperator, ends_bind, ends_atOperator]
  split_ifs with slash
  · have going : c.token.isEof = false := by
      rcases Bool.or_eq_true_iff.1 slash with divide | assign
      · exact going_of_operator divide
      · exact going_of_operator assign
    rw [ends_bind]
    refine (gives_rereadRegexp inText going).next fun _ behind reread => ?_
    exact (fills_statementFrom placing reread.1 around).next fun _ _ read =>
      read.of_start inText reread.2
  · exact fills_statementFrom placing inText around

/-! ## Chunks -/

theorem lays_commandExpression (inText : c.InText text) :
    Gives (withSpans strict) c (commandExpression R)
      fun e behind => c.Lays text [.expr e] behind := by
  simp only [Gives, commandExpression, ends_bind, ends_pure]
  refine (placing.expression inText true false).next fun value _ read => ?_
  exact (fills_expectMarker read.there .commandClose).next fun _ _ closed =>
    read.lays.trans closed.lays

theorem lays_blockBody (inText : c.InText text) (name : String) (opening : Span)
    (branches : Bool) :
    Gives (withSpans strict) c (blockBody R name opening branches) fun chunks behind =>
      c.Lays text (chunks.map .chunk) behind := by
  unfold blockBody
  refine gives_loop (fun chunks behind => c.Lays text (chunks.map .chunk) behind) ?_ []
    (.refl inText)
  intro chunks behind laid
  have chunk {later : Cursor} (same : later = behind) :
      Gives (withSpans strict) later R.chunk fun chunk last =>
        c.Lays text ((chunks ++ [chunk]).map .chunk) last := by
    subst same
    exact (placing.chunk laid.there).next fun _ _ read => laid.snoc read
  simp only [ends_bind, ends_current, ends_ite, ends_pure]
  split
  · trivial
  · split
    · exact laid
    · split
      · refine gives_following.next fun _ _ same => ?_
        split
        · exact same ▸ laid
        · exact chunk same
      · exact chunk rfl

/-- The head of an iteration. The names that it binds are parts of no tree. -/
theorem lays_eachHead (inText : c.InText text) :
    Gives (withSpans strict) c (eachHead R)
      fun head behind => c.Lays text [.expr head.2] behind := by
  simp only [Gives, eachHead, ends_bind, ends_current, ends_atPunctuation]
  split_ifs
  · simp only [ends_bind, ends_atMarker]
    refine (lays_advance inText).next fun _ _ paren => ?_
    refine (lays_expressionList placing paren.there ')' false false).next fun items _ listed => ?_
    split_ifs
    · rcases items with _ | ⟨collection, _ | ⟨other, others⟩⟩
      · trivial
      · exact paren.trans listed
      · trivial
    · simp only [ends_bind, ends_pure]
      refine (gives_bindingNames _ items).next fun names _ found => ?_
      obtain ⟨rfl, -⟩ := found
      exact (placing.expression listed.there true false).next fun collection _ read =>
        paren.trans (listed.forget.trans read.lays)
  · simp only [ends_bind, ends_pure]
    exact (placing.expression inText true false).next fun collection _ read => read.lays

theorem fills_eachBlock (opened : first.Fills text [] c) :
    Gives (withSpans strict) c (eachBlock R first.token.span) fun chunk behind =>
      first.Fills text [.chunk chunk] behind := by
  simp only [Gives, eachBlock, ends_bind, ends_spanFrom, ends_pure]
  refine (lays_eachHead placing opened.there).next fun head _ read => ?_
  refine (fills_expectMarker read.there .commandClose).next fun _ _ closed => ?_
  refine (lays_blockBody placing closed.there "each" _ false).next fun body _ inside => ?_
  refine (lays_closeBlock inside.there "each" _).next fun _ _ ended => ?_
  have whole := opened.trans (read.trans (closed.lays.trans (inside.trans ended)))
  exact whole.enclose rfl (by simp [Part.children, Chunk.children])

/-- The branches of a conditional behind the first one, in the order in which they are written: when
the one without a condition is read, no other can follow it. -/
theorem lays_elseBranches (inText : c.InText text) (opening : Span) :
    Gives (withSpans strict) c (elseBranches R opening) fun branches behind =>
      c.Lays text (branches.1.flatMap ElseIf.children ++ (branches.2.getD []).map .chunk)
        behind := by
  unfold elseBranches
  refine gives_loop
    (fun branches behind =>
      c.Lays text (branches.1.flatMap ElseIf.children ++ (branches.2.getD []).map .chunk) behind)
    ?_ ([], none) (.refl inText)
  rintro ⟨elseIfs, elseBranch⟩ behind laid
  simp only [ends_bind, ends_atMarker, ends_ite, ends_pure]
  split_ifs with others last
  · exact laid
  · refine (lays_advance laid.there).next fun _ _ opened => ?_
    refine (lays_advance opened.there).next fun _ _ keyword => ?_
    split
    · trivial
    · trivial
  · obtain rfl : elseBranch = none := by simpa using last
    have branches : c.Lays text (elseIfs.flatMap ElseIf.children) behind := by simpa using laid
    refine (lays_advance laid.there).next fun _ _ opened => ?_
    refine (lays_advance opened.there).next fun _ _ keyword => ?_
    split
    · refine (lays_advance keyword.there).next fun _ _ closed => ?_
      exact (lays_blockBody placing closed.there "if" opening true).next fun body _ inside =>
        branches.trans (opened.trans (keyword.trans (closed.trans inside)))
    · refine (lays_commandExpression placing keyword.there).next fun condition _ tested => ?_
      refine (lays_blockBody placing tested.there "if" opening true).next fun body _ inside => ?_
      have branch : behind.Lays text (ElseIf.mk condition body).children _ :=
        opened.trans (keyword.trans (tested.trans inside))
      simpa using branches.snocAll branch

theorem fills_ifBlock (opened : first.Fills text [] c) :
    Gives (withSpans strict) c (ifBlock R first.token.span) fun chunk behind =>
      first.Fills text [.chunk chunk] behind := by
  simp only [Gives, ifBlock, ends_bind, ends_spanFrom, ends_pure]
  refine (lays_commandExpression placing opened.there).next fun condition _ tested => ?_
  refine (lays_blockBody placing tested.there "if" _ true).next fun thenBranch _ inside => ?_
  refine (lays_elseBranches placing inside.there _).next fun branches _ others => ?_
  refine (lays_closeBlock others.there "if" _).next fun _ _ ended => ?_
  have whole := opened.trans (tested.trans (inside.trans (others.trans ended)))
  exact whole.enclose rfl (by simp [Part.children, Chunk.children])

theorem fills_inclusion (opened : first.Fills text [] c) :
    Gives (withSpans strict) c (inclusion R first.token.span) fun chunk behind =>
      first.Fills text [.chunk chunk] behind := by
  have named (args : Option (List Expr)) {later : Cursor}
      (listed : c.Lays text ((args.getD []).map .expr) later) :
      Gives (withSpans strict) later (commandExpression R) fun name behind =>
        first.Fills text [.chunk (.include (some ⟨first.token.span.start, behind.stop⟩) args name)]
          behind :=
    (lays_commandExpression placing listed.there).next fun name _ read =>
      (opened.trans (listed.trans read)).enclose rfl rfl
  simp only [Gives, inclusion, ends_bind, ends_atPunctuation]
  split_ifs
  · simp only [ends_bind, ends_spanFrom, ends_pure]
    refine (lays_advance opened.there).next fun _ _ paren => ?_
    exact (lays_expressionList placing paren.there ')' false false).next fun args _ listed =>
      named (some args) (paren.trans listed)
  · simp only [ends_bind, ends_spanFrom, ends_pure]
    exact named none (.refl opened.there)

theorem fills_command (opened : first.Fills text [] c) :
    Gives (withSpans strict) c (command R first.token.span) fun chunk behind =>
      first.Fills text [.chunk chunk] behind := by
  have simple {make : Option Span → Expr → Chunk} (own : ∀ span e, (make span e).span = span)
      (below : ∀ span e, (make span e).children = [.expr e]) :
      Gives (withSpans strict) c
        (do
          advance
          let value ← commandExpression R
          return make (← spanFrom first.token.span.start) value)
        fun chunk behind => first.Fills text [.chunk chunk] behind := by
    simp only [Gives, ends_bind, ends_spanFrom, ends_pure]
    refine (lays_advance opened.there).next fun _ _ named => ?_
    exact (lays_commandExpression placing named.there).next fun value _ read =>
      (opened.trans (named.trans read)).enclose (own _ _) (below _ _)
  simp only [Gives, command, ends_bind, ends_currentKind]
  split
  · rw [ends_bind]
    exact (lays_advance opened.there).next fun _ _ named =>
      fills_eachBlock placing (opened.trans named)
  · rw [ends_bind]
    exact (lays_advance opened.there).next fun _ _ named =>
      fills_inclusion placing (opened.trans named)
  · exact simple (fun _ _ => rfl) fun _ _ => rfl
  · exact simple (fun _ _ => rfl) fun _ _ => rfl
  · rw [ends_bind]
    exact (lays_advance opened.there).next fun _ _ named =>
      fills_ifBlock placing (opened.trans named)
  · simp only [ends_bind, ends_spanFrom, ends_pure]
    refine (lays_advance opened.there).next fun _ _ named => ?_
    refine (lays_definitions placing named.there false).next fun defs _ read => ?_
    refine (fills_expectMarker read.there .commandClose).next fun _ _ closed => ?_
    exact (opened.trans (named.trans (read.trans closed.lays))).enclose rfl
      (by simp [Part.children, Chunk.children])
  · exact gives_unexpected

theorem fills_chunk (inText : c.InText text) :
    Gives (withSpans strict) c (chunk R)
      fun chunk behind => c.Fills text [.chunk chunk] behind := by
  simp only [Gives, chunk, ends_bind, ends_current]
  split
  · next kind =>
    simp only [ends_bind, ends_spanFrom, ends_pure]
    exact (fills_advance inText (going_of_kind kind (by simp))).next fun _ _ read =>
      read.enclose rfl rfl
  · next kind =>
    simp only [ends_bind, ends_spanFrom, ends_pure]
    refine (fills_advance inText (going_of_kind kind (by simp))).next fun _ _ opened => ?_
    refine (placing.expression opened.there true false).next fun value _ read => ?_
    exact (fills_expectMarker read.there .echoClose).next fun _ _ closed =>
      (opened.trans (read.lays.trans closed.lays)).enclose rfl rfl
  · next kind =>
    rw [ends_bind]
    exact (fills_advance inText (going_of_kind kind (by simp))).next fun _ _ opened =>
      fills_command placing opened
  · exact gives_unexpected

/-! ## Whole texts -/

theorem lays_program (inText : c.InText text) :
    Gives (withSpans strict) c (program R)
      fun script behind => c.Lays text (script.body.map .stmt) behind := by
  simp only [Gives, program, ends_bind, ends_pure]
  refine gives_loop (fun body behind => c.Lays text (body.map .stmt) behind) ?_ [] (.refl inText)
  intro body behind laid
  simp only [ends_bind, ends_current, ends_ite, ends_pure]
  split_ifs
  · exact laid
  · exact (fills_statement placing laid.there .outermost).next fun _ _ read => laid.snoc read

theorem lays_template (inText : c.InText text) :
    Gives (withSpans strict) c (template R)
      fun t behind => c.Lays text (t.chunks.map .chunk) behind := by
  simp only [Gives, template, ends_bind, ends_pure]
  refine gives_loop (fun chunks behind => c.Lays text (chunks.map .chunk) behind) ?_ []
    (.refl inText)
  intro chunks behind laid
  simp only [ends_bind, ends_current, ends_ite, ends_pure]
  split_ifs
  · exact laid
  · exact (fills_chunk placing laid.there).next fun _ _ read => laid.snoc read

theorem lays_wholeExpression (inText : c.InText text) :
    Gives (withSpans strict) c (wholeExpression R)
      fun e behind => c.Lays text [.expr e] behind := by
  simp only [Gives, wholeExpression, ends_bind, ends_current, ends_ite, ends_pure]
  refine (fills_expression placing inText true false).next fun e _ read => ?_
  split_ifs
  · exact read.lays
  · exact gives_unexpected

/-! ## All depths -/

/-- Unfolded once more, the rules still lay their trees where they are entered. -/
theorem placing_unfold : R.unfold.Placing strict text where
  expression inText := fills_expression placing inText
  assignment inText := fills_assignment placing inText
  operators read := fills_operators placing read
  unary inText := fills_unary placing inText
  primary inText := fills_primary placing inText
  statement inText := fills_statement placing inText
  chunk inText := fills_chunk placing inText

end Rules

/-- The rules of every depth lay their trees where they are entered: by induction on the depth. -/
theorem placing_upTo (strict : Bool) (text : List Char) (depth : Nat) :
    (Rules.upTo depth).Placing strict text := by
  induction depth with
  | zero => constructor <;> intros <;> trivial
  | succ depth ih => exact placing_unfold ih

end Stencil.Grammar
