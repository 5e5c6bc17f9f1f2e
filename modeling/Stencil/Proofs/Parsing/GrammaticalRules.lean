import Stencil.Proofs.Parsing.Bounds
import Stencil.Proofs.Parsing.SureTokens
import Stencil.Proofs.Printing.Grammatical
/-!
# What the rules of the grammar make sure of

Every tree that a rule reads is grammatical: its operators stand where the grammar has them, its
names are no reserved words, and every list that must not be empty has a member. Every jump in a
statement has a target in the surroundings in which the statement was read, and an `else` is never
left behind a statement that could have taken it, so that an `if` with an `else` has the one that was
meant.

The rules of one depth are followed one by one, given those that are entered again from within
(`Rules.Grammatical`), and the depths by induction.
-/

set_option autoImplicit false
set_option linter.unusedSectionVars false

namespace Stencil.Grammar

open Stencil.Error (Fault)
open Stencil.Print
open Stencil.Syntax
open Stencil.Text (Position Span)
open Stencil.Grammar.Parser

variable {α : Type}

/-- The token of a cursor is sure, and so is what stands behind it. -/
def Cursor.Sure (c : Cursor) : Prop := Lexer.Sure c.token c.lexer

/-- A result is sound: its parts are grammatical, and the token behind it is sure. -/
def Sound (parts : α → List Part) (result : α) (behind : Cursor) : Prop :=
  behind.Sure ∧ Everywhere Grammatical (parts result)

/-- A statement is sound in its surroundings. -/
structure SoundStmt (around : Surroundings) (s : Stmt) (behind : Cursor) : Prop where
  sure : behind.Sure
  parts : Everywhere Grammatical s.parts
  jumps : s.Scoped around
  /-- An `else` behind the statement would have been read with it. -/
  taken : s.opensElse = true → behind.token.isKeyword .else = false

/-- The rules that are entered again from within others read what is grammatical. -/
structure Rules.Grammatical (o : Options) (R : Rules) : Prop where
  expression : ∀ {c : Cursor}, c.Sure → ∀ commas noIn,
    Gives o c (R.expression commas noIn) (Sound Expr.parts)
  assignment : ∀ {c : Cursor}, c.Sure → ∀ noIn, Gives o c (R.assignment noIn) (Sound Expr.parts)
  operators : ∀ {c : Cursor} {left}, Sound Expr.parts left c → ∀ start bound noIn,
    Gives o c (R.operators left start bound noIn) (Sound Expr.parts)
  unary : ∀ {c : Cursor}, c.Sure → ∀ calls, Gives o c (R.unary calls) (Sound Expr.parts)
  primary : ∀ {c : Cursor}, c.Sure → ∀ calls, Gives o c (R.primary calls) (Sound Expr.parts)
  statement : ∀ {c : Cursor}, c.Sure → ∀ around,
    Gives o c (R.statement around) (SoundStmt around)

/-! ## Rules that build no tree -/

section Laws

variable {o : Options} {c : Cursor}

theorem sure_advance (sure : c.Sure) : Gives o c advance fun _ behind => behind.Sure := by
  rw [Gives, ends_advance]
  split
  · next token lexer read => exact Lexer.sure_next sure.unbroken read
  · trivial

/-- Consuming the current token for a result. -/
theorem sure_advance_pure {good : α → Prop} {a : α} (sure : c.Sure) (holds : good a) :
    Gives o c (do advance; return a) fun result behind => behind.Sure ∧ good result := by
  simp only [Gives, ends_bind, ends_pure]
  exact (sure_advance sure).next fun _ _ behind => ⟨behind, holds⟩

theorem sure_expectPunctuation (sure : c.Sure) (char : Char) :
    Gives o c (expectPunctuation char) fun _ behind => behind.Sure := by
  simp only [Gives, expectPunctuation, ends_bind, ends_current, ends_ite]
  split_ifs
  · exact sure_advance sure
  · trivial

theorem sure_semicolon (sure : c.Sure) : Gives o c semicolon fun _ behind => behind.Sure := by
  simp only [Gives, semicolon, mayOmitSemicolon, ends_bind, ends_atPunctuation, ends_ite,
    ends_current, ends_read, ends_pure]
  split_ifs
  · exact sure_advance sure
  · exact sure
  · exact gives_unexpected

/-- A slash that is read again as the beginning of a regular expression. -/
theorem sure_rereadRegexp (sure : c.Sure)
    (slash : c.token.kind = .operator "/" ∨ c.token.kind = .operator "/=") :
    Gives o c rereadRegexp fun _ behind => behind.Sure := by
  unfold rereadRegexp
  rw [Gives, ends_bind, ends_get]
  dsimp only
  split
  · next token lexer read =>
    obtain ⟨kind, unbroken, clear⟩ := Lexer.Sure.rereadRegexp sure slash read
    exact ⟨kind, unbroken, clear⟩
  · trivial

/-- A name that is read is no reserved word. -/
theorem plain_of_name {name : String} (sure : c.Sure) (kind : c.token.kind = .name name) :
    IsPlainWord name := by
  have known := sure.kind
  rw [kind] at known
  exact known

theorem sure_plainName (sure : c.Sure) :
    Gives o c plainName fun name behind => behind.Sure ∧ IsPlainWord name := by
  simp only [Gives, plainName, ends_bind, ends_currentKind]
  split
  · next kind => exact sure_advance_pure sure (plain_of_name sure kind)
  · exact gives_unexpected

theorem sure_anyName (sure : c.Sure) : Gives o c anyName fun _ behind => behind.Sure := by
  have word (text : String) :
      Gives o c (do advance; return text : Parser String) fun _ behind => behind.Sure := by
    rw [Gives, ends_bind]
    exact sure_advance sure
  simp only [Gives, anyName, ends_bind, ends_currentKind]
  split
  · exact word _
  · exact word _
  · exact word _
  · rw [ends_ite]
    split_ifs
    · exact word _
    · exact gives_unexpected
  · exact gives_unexpected

theorem sure_propertyKey (sure : c.Sure) : Gives o c propertyKey fun _ behind => behind.Sure := by
  have word (text : String) :
      Gives o c (do advance; return text : Parser String) fun _ behind => behind.Sure := by
    rw [Gives, ends_bind]
    exact sure_advance sure
  simp only [Gives, propertyKey, ends_bind, ends_currentKind]
  split
  · exact word _
  · exact word _
  · exact sure_anyName sure

/-- The parameters of a function are names. -/
theorem sure_parameters (sure : c.Sure) :
    Gives o c parameters fun names behind => behind.Sure ∧ ∀ n ∈ names, IsPlainWord n := by
  simp only [Gives, parameters, ends_bind, ends_pure]
  refine gives_loop (fun names behind => behind.Sure ∧ ∀ n ∈ names, IsPlainWord n) ?_ []
    ⟨sure, by simp⟩
  rintro names behind ⟨sure, plain⟩
  have more {name : String} (named : IsPlainWord name) :
      ∀ n ∈ names ++ [name], IsPlainWord n := by
    simpa [or_imp, forall_and] using ⟨plain, named⟩
  simp only [ends_bind, ends_atPunctuation, ends_ite, ends_pure]
  split_ifs
  · exact (sure_advance sure).next fun _ _ closed => ⟨closed, plain⟩
  · refine (sure_expectPunctuation sure ',').next fun _ _ comma => ?_
    exact (sure_plainName comma).next fun _ _ named => ⟨named.1, more named.2⟩
  · exact (sure_plainName sure).next fun _ _ named => ⟨named.1, more named.2⟩

/-- A jump that is read has a target. -/
theorem sure_jumpTarget (sure : c.Sure) (around : Surroundings) (keyword : Keyword) :
    Gives o c (jumpTarget around keyword) fun label behind =>
      behind.Sure ∧ (∀ name ∈ label, IsPlainWord name) ∧ JumpScoped around label := by
  simp only [Gives, jumpTarget, mayOmitSemicolon, ends_bind, ends_current, ends_read, ends_pure,
    ends_currentKind]
  split
  · next _ label kind _ =>
    simp only [ends_bind, ends_ite, ends_pure]
    refine (sure_advance sure).next fun _ _ named => ?_
    split_ifs with known
    · exact gives_faultHere _
    · have target : JumpScoped around (some label) := by simpa [JumpScoped] using known
      refine (sure_semicolon named).next fun _ _ ended => ⟨ended, ?_, target⟩
      rintro name ⟨⟩
      exact plain_of_name sure kind
  · simp only [ends_bind, ends_ite, ends_pure]
    split_ifs with inside
    · exact gives_faultHere _
    · have target : JumpScoped around none := by simpa [JumpScoped] using inside
      exact (sure_semicolon sure).next fun _ _ ended => ⟨ended, by simp, target⟩

end Laws

section Rules

variable {o : Options} {c : Cursor}

/-- Checking an update moves nothing. -/
theorem gives_checkedUpdate (op : UnaryOp) (operand : Expr) :
    Gives o c (checkUpdate op operand) fun _ behind => behind = c := by
  simp only [Gives, checkUpdate, ends_bind, ends_read, ends_ite, ends_pure]
  split_ifs
  exact gives_faultHere _

/-- An expression around others that are grammatical. -/
theorem sound_node {e : Expr} {parts : List Part} {behind : Cursor}
    (own : e.parts = .expr e :: parts) (holds : GrammaticalExpr e) (sure : behind.Sure)
    (below : Everywhere Grammatical parts) : Sound Expr.parts e behind :=
  ⟨sure, own ▸ (everywhere_cons _ _).2 ⟨holds, below⟩⟩

/-- An operator behind its operand is an update. -/
theorem isUpdate_of_operatorBehind {token : Token} {op : UnaryOp}
    (found : operatorBehind token = some op) : op.isUpdate = true := by
  unfold operatorBehind at found
  split at found
  · split_ifs at found
    unfold UnaryOp.behind? at found
    have holds := List.find?_some found
    exact (Bool.and_eq_true_iff.1 holds).1
  · cases found

/-- The operator of an assignment is one that has such a form. -/
theorem isCompound_of_assignmentOperator {kind : TokenKind} {op : Option BinaryOp}
    (assigns : assignmentOperator kind = some op) :
    ∀ symbol, op = some symbol → symbol.isCompound = true := by
  rintro symbol rfl
  unfold assignmentOperator at assigns
  split at assigns
  · split_ifs at assigns
    · cases assigns
    · obtain ⟨symbol', found, same⟩ := Option.map_eq_some_iff.1 assigns
      cases same
      unfold BinaryOp.ofAssignment? at found
      have holds := List.find?_some found
      exact (Bool.and_eq_true_iff.1 holds).1
  · cases assigns

/-- A statement around what is grammatical. -/
theorem soundStmt_node {around : Surroundings} {s : Stmt} {parts : List Part} {behind : Cursor}
    (own : s.parts = .stmt s :: parts) (holds : GrammaticalStmt s) (sure : behind.Sure)
    (below : Everywhere Grammatical parts) (jumps : s.Scoped around)
    (taken : s.opensElse = true → behind.token.isKeyword .else = false) :
    SoundStmt around s behind :=
  ⟨sure, own ▸ (everywhere_cons _ _).2 ⟨holds, below⟩, jumps, taken⟩

/-- A statement that no `else` can follow as its own. -/
theorem soundStmt_closed {around : Surroundings} {s : Stmt} {parts : List Part} {behind : Cursor}
    (own : s.parts = .stmt s :: parts) (holds : GrammaticalStmt s) (sure : behind.Sure)
    (below : Everywhere Grammatical parts) (jumps : s.Scoped around)
    (closed : s.opensElse = false) : SoundStmt around s behind :=
  soundStmt_node own holds sure below jumps (by simp [closed])

/-- The branches of a switch stay grammatical when a statement is added to the last. -/
theorem everywhere_addToLast {s : Stmt} {cases : List SwitchCase}
    (known : Everywhere Grammatical (partsOfCases cases)) (read : Everywhere Grammatical s.parts) :
    Everywhere Grammatical (partsOfCases (addToLast s cases)) := by
  induction cases with
  | nil => exact known
  | cons first rest ih =>
    obtain ⟨test, body⟩ := first
    cases rest with
    | nil =>
      simp only [partsOfCases, addToLast, SwitchCase.parts, List.append_nil, everywhere_cons,
        everywhere_append, everywhere_stmts] at known ⊢
      simpa [Grammatical, or_imp, forall_and] using ⟨known.2.1, known.2.2, read⟩
    | cons second rest =>
      simp only [partsOfCases, everywhere_append] at known
      rw [addToLast, partsOfCases, everywhere_append]
      · exact ⟨known.1, ih (by simpa [partsOfCases] using known.2)⟩
      · simp

/-- The jumps of the branches of a switch keep their targets when a statement is added. -/
theorem scopedCases_addToLast {around : Surroundings} {s : Stmt} {cases : List SwitchCase}
    (known : scopedCases around cases) (read : s.Scoped around) :
    scopedCases around (addToLast s cases) := by
  induction cases with
  | nil => exact known
  | cons first rest ih =>
    obtain ⟨test, body⟩ := first
    cases rest with
    | nil =>
      simp only [addToLast, scopedCases, scopedStmts_iff] at known ⊢
      simpa [or_imp, forall_and] using ⟨known.1, read⟩
    | cons second rest =>
      rw [scopedCases] at known
      rw [addToLast, scopedCases]
      · exact ⟨known.1, ih known.2⟩
      · simp

variable {R : Rules} (rules : R.Grammatical o)

include rules

/-! ## Expressions -/

theorem sound_expressionList (sure : c.Sure) (closing : Char) (trailing gaps : Bool) :
    Gives o c (expressionList R closing trailing gaps) (Sound partsOfExprs) := by
  simp only [Gives, expressionList, ends_bind, ends_pure]
  refine gives_loop (Sound partsOfExprs) ?_ [] ⟨sure, everywhere_nil⟩
  rintro items behind ⟨sure, known⟩
  have more {e : Expr} (read : Everywhere Grammatical e.parts) :
      Everywhere Grammatical (partsOfExprs (items ++ [e])) := by
    rw [everywhere_exprs] at known ⊢
    simpa [or_imp, forall_and] using ⟨known, read⟩
  have item {later : Cursor} (sure : later.Sure) :
      if trailing && later.token.isPunctuation closing then
        Gives o later advance fun _ behind => Sound partsOfExprs items behind
      else if gaps && later.token.isPunctuation ',' then
        Sound partsOfExprs (items ++ [Expr.atom none .undefined]) later
      else
        Gives o later (R.expression false false) fun e behind =>
          Sound partsOfExprs (items ++ [e]) behind := by
    split_ifs
    · exact (sure_advance sure).next fun _ _ closed => ⟨closed, known⟩
    · exact ⟨sure, more (by simp [Grammatical, GrammaticalExpr])⟩
    · exact (rules.expression sure false false).next fun _ _ read => ⟨read.1, more read.2⟩
  simp only [ends_bind, ends_atPunctuation, ends_ite, ends_pure]
  split
  · exact (sure_advance sure).next fun _ _ closed => ⟨closed, known⟩
  · split
    · exact (sure_expectPunctuation sure ',').next fun _ _ comma => item comma
    · exact item sure

theorem sound_block (sure : c.Sure) (around : Surroundings) :
    Gives o c (block R around) fun body behind =>
      Sound partsOfStmts body behind ∧ scopedStmts around body := by
  simp only [Gives, block, ends_bind, ends_pure]
  refine (sure_expectPunctuation sure '\x7b').next fun _ inside opened => ?_
  refine gives_loop (fun body behind => Sound partsOfStmts body behind ∧ scopedStmts around body)
    ?_ [] ⟨⟨opened, everywhere_nil⟩, trivial⟩
  rintro body behind ⟨⟨sure, known⟩, jumps⟩
  simp only [ends_bind, ends_atPunctuation, ends_current, ends_ite, ends_pure]
  split_ifs
  · exact (sure_advance sure).next fun _ _ closed => ⟨⟨closed, known⟩, jumps⟩
  · exact gives_unexpected
  · refine (rules.statement sure around).next fun _ _ read => ⟨⟨read.sure, ?_⟩, ?_⟩
    · rw [everywhere_stmts] at known ⊢
      simpa [or_imp, forall_and] using ⟨known, read.parts⟩
    · rw [scopedStmts_iff] at jumps ⊢
      simpa [or_imp, forall_and] using ⟨jumps, read.jumps⟩

theorem sound_function (sure : c.Sure) (declaration : Bool) :
    Gives o c (function R declaration) fun fn behind =>
      Sound Function.parts fn behind ∧ (declaration = true → IsDeclaration fn) := by
  have behind {name : Option String} (plain : ∀ n ∈ name, IsPlainWord n)
      (declared : declaration = true → name.isSome = true) {later : Cursor} (sure : later.Sure) :
      Gives o later (expectPunctuation '(') fun _ inside =>
        Gives o inside parameters fun names closed =>
          Gives o closed (block R .ofFunction) fun body behind =>
            Sound Function.parts (.mk name names body) behind ∧
              (declaration = true → IsDeclaration (.mk name names body)) := by
    refine (sure_expectPunctuation sure '(').next fun _ _ opened => ?_
    refine (sure_parameters opened).next fun names _ closed => ?_
    refine (sound_block rules closed.1 .ofFunction).next fun body _ read => ?_
    exact ⟨⟨read.1.1, (everywhere_cons _ _).2 ⟨⟨plain, closed.2, read.2⟩, read.1.2⟩⟩, declared⟩
  simp only [Gives, function, ends_bind, ends_currentKind]
  split
  · next kind =>
    simp only [ends_bind, ends_pure]
    refine (sure_advance sure).next fun _ _ named => behind ?_ (fun _ => rfl) named
    rintro n ⟨⟩
    exact plain_of_name sure kind
  · split_ifs with wanted
    · exact gives_unexpected
    · simp only [ends_bind, ends_pure]
      exact behind (by simp) (fun declared => absurd declared wanted) sure

theorem sound_property (sure : c.Sure) : Gives o c (property R) (Sound Property.parts) := by
  have accessor {make : String → Function → Property}
      (below : ∀ key fn, (make key fn).parts = .property (make key fn) :: fn.parts)
      {later : Cursor} (sure : later.Sure) :
      Gives o later (do let key ← anyName; return make key (← function R false))
        (Sound Property.parts) := by
    simp only [Gives, ends_bind, ends_pure]
    refine (sure_anyName sure).next fun key _ named => ?_
    refine (sound_function rules named false).next fun fn _ read => ⟨read.1.1, ?_⟩
    rw [below]
    exact (everywhere_cons _ _).2 ⟨trivial, read.1.2⟩
  simp only [Gives, property, ends_bind, ends_currentKind, ends_atPunctuation]
  refine (sure_propertyKey sure).next fun key _ keyed => ?_
  split
  · exact accessor (fun _ _ => rfl) keyed
  · exact accessor (fun _ _ => rfl) keyed
  · simp only [ends_bind, ends_pure]
    refine (sure_expectPunctuation keyed ':').next fun _ _ colon => ?_
    exact (rules.expression colon false false).next fun value _ read =>
      ⟨read.1, (everywhere_cons _ _).2 ⟨trivial, read.2⟩⟩

theorem sound_objectBody (sure : c.Sure) :
    Gives o c (objectBody R) (Sound partsOfProperties) := by
  simp only [Gives, objectBody, ends_bind, ends_read, ends_pure]
  refine gives_loop (Sound partsOfProperties) ?_ [] ⟨sure, everywhere_nil⟩
  rintro properties behind ⟨sure, known⟩
  have closes {later : Cursor} (sure : later.Sure) :
      Gives o later advance fun _ behind => Sound partsOfProperties properties behind :=
    (sure_advance sure).next fun _ _ closed => ⟨closed, known⟩
  have more {later : Cursor} (sure : later.Sure) :
      Gives o later (property R) fun p behind =>
        Sound partsOfProperties (properties ++ [p]) behind := by
    refine (sound_property rules sure).next fun p _ read => ⟨read.1, ?_⟩
    have known := known
    rw [everywhere_properties] at known ⊢
    simpa [or_imp, forall_and] using ⟨known, read.2⟩
  simp only [ends_bind, ends_atPunctuation, ends_ite, ends_pure]
  split_ifs
  · exact closes sure
  · refine (sure_expectPunctuation sure ',').next fun _ _ comma => ?_
    split_ifs
    · exact closes comma
    · exact more comma
  · exact closes sure
  · exact more sure

theorem sound_subscripts {operand : Expr} (read : Sound Expr.parts operand c) (start : Position)
    (calls : Bool) : Gives o c (subscripts R operand start calls) (Sound Expr.parts) := by
  unfold subscripts
  refine gives_loop (Sound Expr.parts) ?_ operand read
  rintro operand behind ⟨sure, known⟩
  simp only [ends_bind, ends_atPunctuation, ends_ite, ends_spanFrom, ends_pure]
  split_ifs
  · refine (sure_advance sure).next fun _ _ point => ?_
    exact (sure_anyName point).next fun _ _ named => sound_node rfl trivial named known
  · refine (sure_advance sure).next fun _ _ opened => ?_
    refine (rules.expression opened true false).next fun index _ inside => ?_
    exact (sure_expectPunctuation inside.1 ']').next fun _ _ closed =>
      sound_node rfl trivial closed ((everywhere_append _ _).2 ⟨known, inside.2⟩)
  · refine (sure_advance sure).next fun _ _ opened => ?_
    exact (sound_expressionList rules opened ')' false false).next fun args _ closed =>
      sound_node rfl trivial closed.1 ((everywhere_append _ _).2 ⟨known, closed.2⟩)
  · exact ⟨sure, known⟩

theorem sound_newExpression (sure : c.Sure) (start : Position) :
    Gives o c (newExpression R start) (Sound Expr.parts) := by
  simp only [Gives, newExpression, ends_bind, ends_atPunctuation]
  refine (rules.primary sure false).next fun callee behind read => ?_
  split_ifs
  · simp only [ends_bind, ends_spanFrom]
    refine (sure_advance read.1).next fun _ _ paren => ?_
    refine (sound_expressionList rules paren ')' false false).next fun args last closed => ?_
    have whole (span : Option Span) : Sound Expr.parts (.new span callee args) last :=
      sound_node rfl trivial closed.1 ((everywhere_append _ _).2 ⟨read.2, closed.2⟩)
    exact sound_subscripts rules (whole _) _ _
  · simp only [ends_bind, ends_pure, ends_spanFrom]
    have whole (span : Option Span) : Sound Expr.parts (.new span callee []) behind :=
      sound_node rfl trivial read.1 ((everywhere_append _ _).2 ⟨read.2, everywhere_nil⟩)
    exact sound_subscripts rules (whole _) _ _

theorem sound_atom (sure : c.Sure) (start : Position) :
    Gives o c (atom R start) (Sound Expr.parts) := by
  have single {make : Option Span → Expr} (leaf : ∀ span, (make span).parts = [.expr (make span)])
      (holds : ∀ span, GrammaticalExpr (make span)) :
      Gives o c (do advance; return make (← spanFrom start)) (Sound Expr.parts) := by
    simp only [Gives, ends_bind, ends_spanFrom, ends_pure]
    exact (sure_advance sure).next fun _ _ behind =>
      sound_node (leaf _) (holds _) behind everywhere_nil
  simp only [Gives, atom, ends_bind, ends_currentKind]
  split
  · simp only [ends_bind, ends_read, ends_spanFrom, ends_pure]
    refine (sure_advance sure).next fun _ _ opened => ?_
    exact (sound_expressionList rules opened _ _ _).next fun items _ closed =>
      sound_node rfl trivial closed.1 closed.2
  · simp only [ends_bind, ends_spanFrom, ends_pure]
    refine (sure_advance sure).next fun _ _ opened => ?_
    exact (sound_objectBody rules opened).next fun properties _ closed =>
      sound_node rfl trivial closed.1 closed.2
  · simp only [ends_bind, ends_spanFrom, ends_pure]
    refine (sure_advance sure).next fun _ _ opened => ?_
    exact (sound_function rules opened false).next fun fn _ read =>
      sound_node rfl trivial read.1.1 read.1.2
  · exact single (fun _ => rfl) fun _ => trivial
  · exact single (fun _ => rfl) fun _ => trivial
  · next kind => exact single (fun _ => rfl) fun _ => plain_of_name sure kind
  · exact single (fun _ => rfl) fun _ => trivial
  · next pattern flags kind =>
    have fine : IsFineRegexp pattern flags := by
      have known := sure.kind
      rw [kind] at known
      exact known
    exact single (fun _ => rfl) fun _ => fine
  · exact gives_unexpected

theorem sound_primary (sure : c.Sure) (calls : Bool) :
    Gives o c (primary R calls) (Sound Expr.parts) := by
  simp only [Gives, primary, ends_bind, ends_startOfToken, ends_atOperator, ends_atPunctuation,
    ends_ite]
  split_ifs
  · exact (sure_advance sure).next fun _ _ opened => sound_newExpression rules opened _
  · refine (sure_advance sure).next fun _ _ opened => ?_
    refine (rules.expression opened true false).next fun inner _ read => ?_
    exact (sure_expectPunctuation read.1 ')').next fun _ _ closed =>
      sound_subscripts rules ⟨closed, read.2⟩ _ _
  · exact (sound_atom rules sure _).next fun operand _ read => sound_subscripts rules read _ _

theorem sound_unary (sure : c.Sure) (calls : Bool) :
    Gives o c (unary R calls) (Sound Expr.parts) := by
  simp only [Gives, unary, ends_bind, ends_startOfToken, ends_currentKind]
  split
  · next op before =>
    simp only [ends_bind, ends_spanFrom, ends_pure]
    refine (sure_advance sure).next fun _ _ sign => ?_
    refine (rules.unary sign calls).next fun operand _ read => ?_
    refine (gives_checkedUpdate op operand).next fun _ _ same => ?_
    subst same
    exact sound_node rfl trivial read.1 read.2
  · rw [ends_bind]
    refine (sound_primary rules sure calls).next fun operand _ read => ?_
    refine gives_loop (Sound Expr.parts) ?_ operand read
    rintro operand behind ⟨sure, known⟩
    simp only [ends_bind, ends_current]
    split
    · next op update =>
      simp only [ends_bind, ends_spanFrom, ends_pure]
      refine (sure_advance sure).next fun _ _ sign => ?_
      refine (gives_checkedUpdate op operand).next fun _ _ same => ?_
      subst same
      exact sound_node rfl (isUpdate_of_operatorBehind update) sign known
    · exact ⟨sure, known⟩

/-- Binary operators behind a left operand. -/
theorem sound_operators {left : Expr} (read : Sound Expr.parts left c) (start : Position)
    (bound : Nat) (noIn : Bool) :
    Gives o c (operators R left start bound noIn) (Sound Expr.parts) := by
  simp only [Gives, operators, ends_bind, ends_currentKind]
  split
  · exact read
  · next op _ =>
    simp only [ends_bind, ends_ite, ends_startOfToken, ends_spanFrom, ends_pure]
    split_ifs
    · exact read
    · refine (sure_advance read.1).next fun _ _ sign => ?_
      refine (sound_unary rules sign true).next fun operand _ operated => ?_
      refine (rules.operators operated _ op.precedence noIn).next fun right behind other => ?_
      have whole (span : Option Span) : Sound Expr.parts (.binary span op left right) behind :=
        sound_node rfl trivial other.1 ((everywhere_append _ _).2 ⟨read.2, other.2⟩)
      exact rules.operators (whole _) _ bound noIn

theorem sound_conditional (sure : c.Sure) (noIn : Bool) :
    Gives o c (conditional R noIn) (Sound Expr.parts) := by
  simp only [Gives, conditional, ends_bind, ends_startOfToken, ends_atOperator, ends_ite,
    ends_spanFrom, ends_pure]
  refine (sound_unary rules sure true).next fun operand _ operated => ?_
  refine (sound_operators rules operated _ 0 noIn).next fun test _ tested => ?_
  split_ifs
  · refine (sure_advance tested.1).next fun _ _ mark => ?_
    refine (rules.expression mark false false).next fun yes _ one => ?_
    refine (sure_expectPunctuation one.1 ':').next fun _ _ colon => ?_
    refine (rules.expression colon false noIn).next fun no _ other => ?_
    refine sound_node rfl trivial other.1 ?_
    rw [everywhere_append, everywhere_append]
    exact ⟨⟨tested.2, one.2⟩, other.2⟩
  · exact tested

theorem sound_assignment (sure : c.Sure) (noIn : Bool) :
    Gives o c (assignment R noIn) (Sound Expr.parts) := by
  simp only [Gives, assignment, ends_bind, ends_startOfToken, ends_currentKind]
  refine (sound_conditional rules sure noIn).next fun target _ aimed => ?_
  split
  · exact aimed
  · next op assigns =>
    simp only [ends_bind, ends_read, ends_ite, ends_spanFrom, ends_pure]
    split_ifs
    · exact gives_faultHere _
    · refine (sure_advance aimed.1).next fun _ _ sign => ?_
      exact (rules.assignment sign noIn).next fun value _ read =>
        sound_node rfl (isCompound_of_assignmentOperator assigns) read.1
          ((everywhere_append _ _).2 ⟨aimed.2, read.2⟩)

theorem sound_expression (sure : c.Sure) (commas noIn : Bool) :
    Gives o c (expression R commas noIn) (Sound Expr.parts) := by
  simp only [Gives, expression, ends_bind, ends_startOfToken, ends_atPunctuation, ends_ite,
    ends_spanFrom, ends_pure]
  refine (sound_assignment rules sure noIn).next fun first _ read => ?_
  split_ifs
  · refine (sure_advance read.1).next fun _ _ comma => ?_
    exact (rules.expression comma true noIn).next fun rest _ others =>
      sound_node rfl trivial others.1 ((everywhere_append _ _).2 ⟨read.2, others.2⟩)
  · exact read

theorem sound_definitions (sure : c.Sure) (noIn : Bool) :
    Gives o c (definitions R noIn) fun defs behind =>
      Sound partsOfVarDefs defs behind ∧ defs ≠ [] := by
  unfold definitions
  refine gives_loop (Sound partsOfVarDefs) ?_ [] ⟨sure, everywhere_nil⟩
  rintro defs behind ⟨sure, known⟩
  have more {later : Cursor} {name : String} {value : Option Expr} (plain : IsPlainWord name)
      (read : Sound partsOfOptional value later) :
      Sound partsOfVarDefs (defs ++ [.mk name value]) later := by
    refine ⟨read.1, ?_⟩
    rw [everywhere_varDefs] at known ⊢
    simpa [or_imp, forall_and, Grammatical] using ⟨known, plain, read.2⟩
  have finish {defs : List VarDef} {later : Cursor} (some : defs ≠ [])
      (read : Sound partsOfVarDefs defs later) :
      if later.token.isPunctuation ',' then
        Gives o later advance fun _ behind => Sound partsOfVarDefs defs behind
      else Sound partsOfVarDefs defs later ∧ defs ≠ [] := by
    split_ifs
    · exact (sure_advance read.1).next fun _ _ comma => ⟨comma, read.2⟩
    · exact ⟨read, some⟩
  simp only [ends_bind, ends_atOperator, ends_atPunctuation, ends_ite, ends_pure]
  refine (sure_plainName sure).next fun name _ named => ?_
  split
  · refine (sure_advance named.1).next fun _ _ sign => ?_
    refine (rules.expression sign false noIn).next fun value _ read => ?_
    exact finish (by simp) (more named.2 read)
  · exact finish (by simp) (more named.2 ⟨named.1, everywhere_nil⟩)

theorem sound_parenthesised (sure : c.Sure) :
    Gives o c (parenthesised R) (Sound Expr.parts) := by
  simp only [Gives, parenthesised, ends_bind, ends_pure]
  refine (sure_expectPunctuation sure '(').next fun _ _ opened => ?_
  refine (rules.expression opened true false).next fun value _ read => ?_
  exact (sure_expectPunctuation read.1 ')').next fun _ _ closed => ⟨closed, read.2⟩

/-! ## Statements -/

theorem sound_expressionStatement (sure : c.Sure) (around : Surroundings) (start : Position) :
    Gives o c (expressionStatement R start) (SoundStmt around) := by
  simp only [Gives, expressionStatement, ends_bind, ends_spanFrom, ends_pure]
  refine (sound_expression rules sure true false).next fun value _ read => ?_
  exact (sure_semicolon read.1).next fun _ _ ended =>
    soundStmt_closed rfl trivial ended read.2 trivial rfl

theorem sound_labelledStatement (sure : c.Sure) (around : Surroundings) (start : Position)
    {label : String} (plain : IsPlainWord label) :
    Gives o c (labelledStatement R around start label) (SoundStmt around) := by
  unfold labelledStatement
  split_ifs with taken
  · exact gives_faultHere _
  · simp only [ends_bind, ends_spanFrom, ends_pure]
    exact (rules.statement sure _).next fun body _ read =>
      soundStmt_node rfl plain read.sure read.parts ⟨by simpa using taken, read.jumps⟩ read.taken

theorem sound_doStatement (sure : c.Sure) (around : Surroundings) (start : Position) :
    Gives o c (doStatement R around start) (SoundStmt around) := by
  simp only [Gives, doStatement, ends_bind, ends_atKeyword]
  refine (rules.statement sure around.looping).next fun body _ read => ?_
  split_ifs
  · exact gives_expected _
  · simp only [ends_bind, ends_spanFrom, ends_pure]
    refine (sure_advance read.sure).next fun _ _ keyword => ?_
    refine (sound_parenthesised rules keyword).next fun condition _ tested => ?_
    exact (sure_semicolon tested.1).next fun _ _ ended =>
      soundStmt_closed rfl trivial ended ((everywhere_append _ _).2 ⟨read.parts, tested.2⟩)
        read.jumps rfl

theorem sound_optionalBefore (sure : c.Sure) (closing : Char) :
    Gives o c (optionalBefore R closing) (Sound partsOfOptional) := by
  simp only [Gives, optionalBefore, ends_bind, ends_atPunctuation, ends_ite, ends_pure]
  split_ifs
  · exact ⟨sure, everywhere_nil⟩
  · exact (rules.expression sure true false).next fun _ _ read => read

/-- The parts of the head of a loop, if there is one. -/
theorem sound_conditionalFor (sure : c.Sure) {head : Option ForHead}
    (headed : ∀ h, head = some h → Everywhere Grammatical h.parts) (around : Surroundings)
    (start : Position) :
    Gives o c (conditionalFor R around start head) (SoundStmt around) := by
  simp only [Gives, conditionalFor, ends_bind, ends_spanFrom, ends_pure]
  refine (sure_expectPunctuation sure ';').next fun _ _ one => ?_
  refine (sound_optionalBefore rules one ';').next fun test _ tested => ?_
  refine (sure_expectPunctuation tested.1 ';').next fun _ _ two => ?_
  refine (sound_optionalBefore rules two ')').next fun step _ stepped => ?_
  refine (sure_expectPunctuation stepped.1 ')').next fun _ _ closed => ?_
  refine (rules.statement closed around.looping).next fun body _ read => ?_
  exact ⟨read.sure, everywhere_for.2 ⟨trivial, headed, tested.2, stepped.2, read.parts⟩,
    read.jumps, read.taken⟩

theorem sound_iteratingFor (sure : c.Sure) {head : ForHead}
    (headed : Everywhere Grammatical head.parts) (around : Surroundings) (start : Position) :
    Gives o c (iteratingFor R around start head) (SoundStmt around) := by
  have iterating (single : ∀ first second rest, head ≠ .var (first :: second :: rest)) :
      Gives o c
        (do
          advance
          let object ← R.expression true false
          expectPunctuation ')'
          let body ← R.statement around.looping
          return .forIn (← spanFrom start) head object body)
        (SoundStmt around) := by
    simp only [Gives, ends_bind, ends_spanFrom, ends_pure]
    refine (sure_advance sure).next fun _ _ keyword => ?_
    refine (rules.expression keyword true false).next fun object _ ranged => ?_
    refine (sure_expectPunctuation ranged.1 ')').next fun _ _ closed => ?_
    refine (rules.statement closed around.looping).next fun body _ read => ?_
    refine soundStmt_node rfl ?_ read.sure ?_ read.jumps read.taken
    · cases head with
      | expr value => trivial
      | var defs =>
        have given : defs ≠ [] := ((everywhere_cons _ _).1 headed).1
        rcases defs with _ | ⟨first, _ | ⟨second, rest⟩⟩
        · exact absurd rfl given
        · exact ⟨first, rfl⟩
        · exact absurd rfl (single first second rest)
    · simp only [everywhere_append]
      exact ⟨⟨headed, ranged.2⟩, read.parts⟩
  unfold iteratingFor
  dsimp only
  split
  · exact gives_faultHere _
  · next single => exact iterating fun first second rest same => single first second rest same

theorem sound_forStatement (sure : c.Sure) (around : Surroundings) (start : Position) :
    Gives o c (forStatement R around start) (SoundStmt around) := by
  have behind (head : ForHead) {later : Cursor} (read : Sound ForHead.parts head later) :
      Gives o later
        (do
          if ← atOperator "in" then iteratingFor R around start head
          else conditionalFor R around start (some head))
        (SoundStmt around) := by
    simp only [Gives, ends_bind, ends_atOperator, ends_ite]
    split_ifs
    · exact sound_iteratingFor rules read.1 read.2 around start
    · exact sound_conditionalFor rules read.1 (by simpa using read.2) around start
  simp only [Gives, forStatement, ends_bind, ends_atPunctuation]
  refine (sure_expectPunctuation sure '(').next fun _ inside paren => ?_
  split_ifs
  · exact sound_conditionalFor rules paren (by simp) around start
  · rw [ends_atKeyword]
    split_ifs
    · simp only [ends_bind]
      refine (sure_advance paren).next fun _ _ keyword => ?_
      refine (sound_definitions rules keyword true).next fun defs _ read => ?_
      exact behind (.var defs) ⟨read.1.1, (everywhere_cons _ _).2 ⟨read.2, read.1.2⟩⟩
    · simp only [ends_bind]
      refine (rules.expression paren true true).next fun value _ read => ?_
      exact behind (.expr value) ⟨read.1, (everywhere_cons _ _).2 ⟨trivial, read.2⟩⟩

/-- An `if` takes the `else` that follows it: so its first branch could not have taken it. -/
theorem sound_ifStatement (sure : c.Sure) (around : Surroundings) (start : Position) :
    Gives o c (ifStatement R around start) (SoundStmt around) := by
  simp only [Gives, ifStatement, ends_bind, ends_atKeyword]
  refine (sound_parenthesised rules sure).next fun condition _ tested => ?_
  refine (rules.statement tested.1 around).next fun thenBranch behind read => ?_
  split_ifs with follows
  · simp only [ends_bind, ends_pure, ends_spanFrom]
    refine (sure_advance read.sure).next fun _ _ keyword => ?_
    refine (rules.statement keyword around).next fun elseBranch _ other => ?_
    have closed : thenBranch.opensElse = false :=
      Bool.eq_false_iff.2 fun opens => by simpa [follows] using read.taken opens
    refine soundStmt_node rfl closed other.sure ?_ ⟨read.jumps, other.jumps⟩ other.taken
    simp only [everywhere_append]
    exact ⟨⟨tested.2, read.parts⟩, other.parts⟩
  · simp only [ends_bind, ends_pure, ends_spanFrom]
    refine soundStmt_node rfl trivial read.sure ?_ ⟨read.jumps, trivial⟩ ?_
    · simp only [everywhere_append]
      exact ⟨⟨tested.2, read.parts⟩, everywhere_nil⟩
    · exact fun _ => by simpa using follows

theorem sound_returnStatement (sure : c.Sure) (around : Surroundings) (start : Position) :
    Gives o c (returnStatement R around start) (SoundStmt around) := by
  unfold returnStatement
  split_ifs with outside
  · exact gives_faultHere _
  · have inside : around.inFunction = true := by simpa using outside
    simp only [Gives, ends_bind, ends_atPunctuation]
    split_ifs
    · simp only [ends_bind, ends_pure, ends_spanFrom]
      exact (sure_advance sure).next fun _ _ ended =>
        soundStmt_closed rfl trivial ended everywhere_nil inside rfl
    · simp only [mayOmitSemicolon, ends_bind, ends_current, ends_read, ends_pure]
      split_ifs
      · simp only [ends_bind, ends_pure, ends_spanFrom]
        exact soundStmt_closed rfl trivial sure everywhere_nil inside rfl
      · simp only [ends_bind, ends_pure, ends_spanFrom]
        refine (rules.expression sure true false).next fun value _ read => ?_
        exact (sure_semicolon read.1).next fun _ _ ended =>
          soundStmt_closed rfl trivial ended read.2 inside rfl

theorem sound_switchStatement (sure : c.Sure) (around : Surroundings) (start : Position) :
    Gives o c (switchStatement R around start) (SoundStmt around) := by
  simp only [Gives, switchStatement, ends_bind, ends_spanFrom, ends_pure]
  refine (sound_parenthesised rules sure).next fun discriminant _ chosen => ?_
  refine (sure_expectPunctuation chosen.1 '\x7b').next fun _ inside brace => ?_
  refine gives_loop
    (fun cases behind => Sound partsOfCases cases behind ∧ scopedCases around.looping cases) ?_ []
    ⟨⟨brace, everywhere_nil⟩, trivial⟩
  rintro cases behind ⟨⟨sure, known⟩, jumps⟩
  have more {later : Cursor} {test : Option Expr} (read : Sound partsOfOptional test later) :
      Sound partsOfCases (cases ++ [.mk test []]) later ∧
        scopedCases around.looping (cases ++ [.mk test []]) := by
    refine ⟨⟨read.1, ?_⟩, ?_⟩
    · rw [everywhere_cases] at known ⊢
      simpa [or_imp, forall_and, Grammatical, partsOfStmts] using ⟨known, read.2⟩
    · rw [scopedCases_iff] at jumps ⊢
      simpa [or_imp, forall_and, scopedStmts] using jumps
  simp only [ends_bind, ends_atPunctuation, ends_atKeyword, ends_ite, ends_pure]
  split_ifs
  · refine (sure_advance sure).next fun _ _ closed => ?_
    exact soundStmt_closed rfl trivial closed ((everywhere_append _ _).2 ⟨chosen.2, known⟩) jumps rfl
  · refine (sure_advance sure).next fun _ _ keyword => ?_
    refine (rules.expression keyword true false).next fun test _ read => ?_
    exact (sure_expectPunctuation read.1 ':').next fun _ _ colon => more ⟨colon, read.2⟩
  · refine (sure_advance sure).next fun _ _ keyword => ?_
    exact (sure_expectPunctuation keyword ':').next fun _ _ colon => more ⟨colon, everywhere_nil⟩
  · exact gives_unexpected
  · refine (rules.statement sure around.looping).next fun statement _ read => ?_
    exact ⟨⟨read.sure, everywhere_addToLast known read.parts⟩,
      scopedCases_addToLast jumps read.jumps⟩

/-- What is left of a `try` statement behind its handler. -/
theorem sound_finalizer (sure : c.Sure) {body : List Stmt} {handler : Option Handler}
    (tried : Everywhere Grammatical (partsOfStmts body)) {around : Surroundings}
    (jumps : scopedStmts around body)
    (handled : ∀ h, handler = some h → Everywhere Grammatical h.parts)
    (jumps' : ∀ name handling, handler = some (.mk name handling) → scopedStmts around handling)
    (start : Position) :
    Gives o c
      (do
        let finalizer ←
          if ← atKeyword .finally then do
            advance
            pure (some (← block R around))
          else pure none
        if handler.isNone && finalizer.isNone then faultHere .bareTry
        return .tryCatch (← spanFrom start) body handler finalizer : Parser Stmt)
      (SoundStmt around) := by
  have whole {later : Cursor} {finalizer : Option (List Stmt)} (span : Option Span)
      (given : ¬(handler.isNone && finalizer.isNone) = true) (sure : later.Sure)
      (final : ∀ body, finalizer = some body → Everywhere Grammatical (partsOfStmts body))
      (jumps'' : ∀ body, finalizer = some body → scopedStmts around body) :
      SoundStmt around (.tryCatch span body handler finalizer) later := by
    have either : handler.isSome = true ∨ finalizer.isSome = true := by
      cases handler <;> cases finalizer <;> simp_all
    exact ⟨sure, everywhere_tryCatch.2 ⟨either, tried, handled, final⟩,
      scoped_tryCatch.2 ⟨jumps, jumps', jumps''⟩, by rintro ⟨⟩⟩
  simp only [Gives, ends_bind, ends_atKeyword]
  split_ifs
  · simp only [ends_bind, ends_ite, ends_spanFrom, ends_pure]
    refine (sure_advance sure).next fun _ _ keyword => ?_
    refine (sound_block rules keyword around).next fun finalizer _ final => ?_
    split_ifs with bare
    · exact gives_faultHere _
    · exact whole _ bare final.1.1 (by simpa using final.1.2) (by simpa using final.2)
  · simp only [ends_bind, ends_ite, ends_spanFrom, ends_pure]
    split_ifs with bare
    · exact gives_faultHere _
    · exact whole _ bare sure (by simp) (by simp)

theorem sound_tryStatement (sure : c.Sure) (around : Surroundings) (start : Position) :
    Gives o c (tryStatement R around start) (SoundStmt around) := by
  simp only [Gives, tryStatement]
  rw [ends_bind]
  refine (sound_block rules sure around).next fun body _ tried => ?_
  rw [ends_bind, ends_atKeyword]
  split_ifs
  · rw [ends_bind]
    refine (sure_advance tried.1.1).next fun _ _ keyword => ?_
    rw [ends_bind]
    refine (sure_expectPunctuation keyword '(').next fun _ _ paren => ?_
    rw [ends_bind]
    refine (sure_plainName paren).next fun name _ named => ?_
    rw [ends_bind]
    refine (sure_expectPunctuation named.1 ')').next fun _ _ closed => ?_
    rw [ends_bind]
    refine (sound_block rules closed around).next fun handling _ handled => ?_
    rw [ends_bind, ends_pure]
    refine sound_finalizer rules handled.1.1 tried.1.2 tried.2 ?_ ?_ start
    · rintro h ⟨⟩
      exact (everywhere_cons _ _).2 ⟨named.2, handled.1.2⟩
    · rintro _ _ ⟨⟩
      exact handled.2
  · rw [ends_bind]
    exact sound_finalizer rules tried.1.1 tried.1.2 tried.2 (by simp) (by simp) start

theorem sound_throwStatement (sure : c.Sure) (around : Surroundings) (start : Position) :
    Gives o c (throwStatement R start) (SoundStmt around) := by
  simp only [Gives, throwStatement, ends_bind, ends_current, ends_ite, ends_spanFrom, ends_pure]
  split_ifs
  · exact gives_faultHere _
  · refine (rules.expression sure true false).next fun value _ read => ?_
    exact (sure_semicolon read.1).next fun _ _ ended =>
      soundStmt_closed rfl trivial ended read.2 trivial rfl

theorem sound_keywordStatement (sure : c.Sure) (around : Surroundings) (start : Position)
    (keyword : Keyword) :
    Gives o c (keywordStatement R around start keyword) (SoundStmt around) := by
  have declared {make : Option Span → List VarDef → Stmt}
      (own : ∀ span defs, (make span defs).parts = .stmt (make span defs) :: partsOfVarDefs defs)
      (holds : ∀ span defs, defs ≠ [] → GrammaticalStmt (make span defs))
      (jumps : ∀ span defs, (make span defs).Scoped around)
      (closed : ∀ span defs, (make span defs).opensElse = false) :
      Gives o c
        (do
          let defs ← definitions R false
          semicolon
          return make (← spanFrom start) defs)
        (SoundStmt around) := by
    simp only [Gives, ends_bind, ends_spanFrom, ends_pure]
    refine (sound_definitions rules sure false).next fun defs _ read => ?_
    exact (sure_semicolon read.1.1).next fun _ _ ended =>
      soundStmt_node (own _ _) (holds _ _ read.2) ended read.1.2 (jumps _ _) (by simp [closed])
  have looped {make : Option Span → Expr → Stmt → Stmt} (inner : Surroundings)
      (own : ∀ span e s, (make span e s).parts = .stmt (make span e s) :: (e.parts ++ s.parts))
      (holds : ∀ span e s, GrammaticalStmt (make span e s))
      (jumps : ∀ span e s, s.Scoped inner → (make span e s).Scoped around)
      (opens : ∀ span e s, (make span e s).opensElse = s.opensElse) :
      Gives o c
        (do
          let head ← parenthesised R
          let body ← R.statement inner
          return make (← spanFrom start) head body)
        (SoundStmt around) := by
    simp only [Gives, ends_bind, ends_spanFrom, ends_pure]
    refine (sound_parenthesised rules sure).next fun head _ tested => ?_
    refine (rules.statement tested.1 inner).next fun body _ read => ?_
    refine soundStmt_node (own _ _ _) (holds _ _ _) read.sure
      ((everywhere_append _ _).2 ⟨tested.2, read.parts⟩) (jumps _ _ _ read.jumps) ?_
    rw [opens]
    exact read.taken
  unfold keywordStatement
  cases keyword with
  | «break» | «continue» =>
    simp only [Gives, ends_bind, ends_spanFrom, ends_pure]
    exact (sure_jumpTarget sure around _).next fun _ _ jumped =>
      soundStmt_closed rfl jumped.2.1 jumped.1 everywhere_nil jumped.2.2 rfl
  | debugger =>
    simp only [Gives, ends_bind, ends_spanFrom, ends_pure]
    exact (sure_semicolon sure).next fun _ _ ended =>
      soundStmt_closed rfl trivial ended everywhere_nil trivial rfl
  | «do» => exact sound_doStatement rules sure around start
  | «for» => exact sound_forStatement rules sure around start
  | function =>
    simp only [Gives, ends_bind, ends_spanFrom, ends_pure]
    exact (sound_function rules sure true).next fun fn _ read =>
      soundStmt_closed rfl (read.2 rfl) read.1.1 read.1.2 trivial rfl
  | «if» => exact sound_ifStatement rules sure around start
  | «return» => exact sound_returnStatement rules sure around start
  | switch => exact sound_switchStatement rules sure around start
  | throw => exact sound_throwStatement rules sure around start
  | «try» => exact sound_tryStatement rules sure around start
  | var =>
    exact declared (fun _ _ => rfl) (fun _ _ some => some) (fun _ _ => trivial) fun _ _ => rfl
  | const =>
    exact declared (fun _ _ => rfl) (fun _ _ some => some) (fun _ _ => trivial) fun _ _ => rfl
  | «while» =>
    exact looped around.looping (fun _ _ _ => rfl) (fun _ _ _ => trivial)
      (fun _ _ _ jumps => jumps) fun _ _ _ => rfl
  | «with» =>
    exact looped around (fun _ _ _ => rfl) (fun _ _ _ => trivial) (fun _ _ _ jumps => jumps)
      fun _ _ _ => rfl
  | case | «catch» | default | «else» | «finally» => exact gives_unexpected

/-- A statement that begins with no slash that is to be read again. -/
theorem sound_statementFrom (sure : c.Sure) (around : Surroundings) :
    Gives o c (statementFrom R around) (SoundStmt around) := by
  simp only [Gives, statementFrom, ends_bind, ends_startOfToken, ends_currentKind]
  split
  · next label kind =>
    simp only [ends_bind, ends_ite]
    refine gives_following.next fun token behind same => ?_
    subst same
    split_ifs
    · refine (sure_advance sure).next fun _ _ named => ?_
      exact (sure_advance named).next fun _ _ colon =>
        sound_labelledStatement rules colon around _ (plain_of_name sure kind)
    · exact sound_expressionStatement rules sure around _
  · exact sound_expressionStatement rules sure around _
  · exact sound_expressionStatement rules sure around _
  · exact sound_expressionStatement rules sure around _
  · exact sound_expressionStatement rules sure around _
  · exact sound_expressionStatement rules sure around _
  · exact sound_expressionStatement rules sure around _
  · exact sound_expressionStatement rules sure around _
  · simp only [ends_bind, ends_spanFrom, ends_pure]
    exact (sound_block rules sure around).next fun body _ read =>
      soundStmt_closed rfl trivial read.1.1 read.1.2 read.2 rfl
  · simp only [ends_bind, ends_spanFrom, ends_pure]
    exact (sure_advance sure).next fun _ _ ended =>
      soundStmt_closed rfl trivial ended everywhere_nil trivial rfl
  · next keyword kind =>
    split_ifs
    · rw [ends_bind]
      exact (sure_advance sure).next fun _ _ opened =>
        sound_keywordStatement rules opened around _ keyword
    · exact gives_unexpected
  · exact gives_unexpected

theorem sound_statement (sure : c.Sure) (around : Surroundings) :
    Gives o c (statement R around) (SoundStmt around) := by
  unfold statement
  rw [Gives, ends_bind, ends_atOperator, ends_bind, ends_atOperator]
  split_ifs with slash
  · have divides := (Bool.or_eq_true_iff.1 slash).imp kind_of_operator kind_of_operator
    rw [ends_bind]
    exact (sure_rereadRegexp sure divides).next fun _ _ reread =>
      sound_statementFrom rules reread around
  · exact sound_statementFrom rules sure around

/-- A whole script. -/
theorem sound_program (sure : c.Sure) :
    Gives o c (program R) fun script behind =>
      Sound Program.parts script behind ∧ scopedStmts .outermost script.body := by
  simp only [Gives, program, ends_bind, ends_pure]
  refine gives_loop
    (fun body behind => Sound partsOfStmts body behind ∧ scopedStmts .outermost body) ?_ []
    ⟨⟨sure, everywhere_nil⟩, trivial⟩
  rintro body behind ⟨⟨sure, known⟩, jumps⟩
  simp only [ends_bind, ends_current, ends_ite, ends_pure]
  split_ifs
  · exact ⟨⟨sure, known⟩, jumps⟩
  · refine (sound_statement rules sure .outermost).next fun _ _ read => ⟨⟨read.sure, ?_⟩, ?_⟩
    · rw [everywhere_stmts] at known ⊢
      simpa [or_imp, forall_and] using ⟨known, read.parts⟩
    · rw [scopedStmts_iff] at jumps ⊢
      simpa [or_imp, forall_and] using ⟨jumps, read.jumps⟩

/-! ## All depths -/

/-- Unfolded once more, the rules still read what is grammatical. -/
theorem grammatical_unfold : R.unfold.Grammatical o where
  expression sure := sound_expression rules sure
  assignment sure := sound_assignment rules sure
  operators read := sound_operators rules read
  unary sure := sound_unary rules sure
  primary sure := sound_primary rules sure
  statement sure := sound_statement rules sure

end Rules

/-- The rules of every depth read what is grammatical: by induction on the depth. -/
theorem grammatical_upTo (o : Options) (depth : Nat) : (Rules.upTo depth).Grammatical o := by
  induction depth with
  | zero => constructor <;> intros <;> trivial
  | succ depth ih => exact grammatical_unfold ih

end Stencil.Grammar
