import Stencil.Proofs.Printing.Laying
import Stencil.Syntax.Erase
import Stencil.Proofs.Syntax.Induction
/-!
# The text of an expression does not depend on spans

Spans reach printed code only as marks, which write nothing. So an expression has the same text with
spans and without, also where it holds functions, whose statements are marked.
-/

set_option autoImplicit false

namespace Stencil.Print

open Stencil.Syntax

/-- The piece without the span that it marks. -/
def Piece.unmarked : Piece → Piece
  | .mark _ => .mark none
  | piece => piece

/-- What pieces write does not depend on the spans they mark. -/
theorem written_unmarked (unit : String) (depth : Nat) (pieces : List Piece) :
    written unit depth (pieces.map Piece.unmarked) = written unit depth pieces := by
  induction pieces generalizing depth with
  | nil => rfl
  | cons piece pieces ih => cases piece <;> simp [Piece.unmarked, written, ih]

theorem inlineCode_unmarked (pieces : List Piece) :
    inlineCode (pieces.map Piece.unmarked) = inlineCode pieces := by
  apply String.toList_injective
  rw [inlineCode_toList, inlineCode_toList, written_unmarked]

/-! ## What is asked of an expression before it is written -/

@[simp] theorem isNumber_eraseSpans (e : Expr) : isNumber e.eraseSpans = isNumber e := by
  cases e <;> rfl

@[simp] theorem hasCall_eraseSpans (e : Expr) : hasCall e.eraseSpans = hasCall e := by
  fun_induction hasCall e with
  | case1 => rfl
  | case2 => rfl
  | case3 _ target _ ih => exact ih
  | case4 _ target _ ih => exact ih
  | case5 e => cases e <;> simp_all [hasCall]

@[simp] theorem containsIn_eraseSpans (e : Expr) : containsIn e.eraseSpans = containsIn e := by
  fun_induction containsIn e with
  | case1 _ op left right ih ih' => simp [containsIn, ih, ih']
  | case2 _ op target value ih ih' => simp [containsIn, ih, ih']
  | case3 _ first rest ih ih' => simp [containsIn, ih, ih']
  | case4 _ test yes no ih ih' ih'' => simp [containsIn, ih, ih', ih'']
  | case5 _ op operand ih => simp [containsIn, ih]
  | case6 _ op operand ih => simp [containsIn, ih]
  | case7 e binary assign seq conditional pre post =>
    cases e with
    | binary s op left right => exact (binary s op left right rfl).elim
    | assign s op target value => exact (assign s op target value rfl).elim
    | seq s first rest => exact (seq s first rest rfl).elim
    | conditional s test yes no => exact (conditional s test yes no rfl).elim
    | prefixOp s op operand => exact (pre s op operand rfl).elim
    | postfixOp s op operand => exact (post s op operand rfl).elim
    | _ => rfl

/-! ## Texts -/

/-- The expression has the same text with spans and without. -/
def SameText (e : Expr) : Prop := ∀ least, exprText least e.eraseSpans = exprText least e

/-- The property has the same text with spans and without. -/
def SamePropertyText (p : Property) : Prop := propertyText p.eraseSpans = propertyText p

/-- The function is written in the same pieces with spans and without, up to marks. -/
def SameFunctionPieces (fn : Function) : Prop :=
  functionPieces fn.eraseSpans = (functionPieces fn).map Piece.unmarked ∧
    functionTail fn.eraseSpans = (functionTail fn).map Piece.unmarked

/-- The statement is written in the same pieces with spans and without, up to marks. -/
def SamePieces (s : Stmt) : Prop := stmtPieces s.eraseSpans = (stmtPieces s).map Piece.unmarked

theorem exprTexts_erase {items : List Expr} (ih : ∀ e ∈ items, SameText e) :
    exprTexts (items.map Expr.eraseSpans) = exprTexts items := by
  induction items with
  | nil => rfl
  | cons e items step =>
    rw [List.map_cons, exprTexts, exprTexts, ih e (by simp),
      step fun e listed => ih e (List.mem_cons_of_mem _ listed)]

theorem propertyTexts_erase {properties : List Property}
    (ih : ∀ p ∈ properties, SamePropertyText p) :
    propertyTexts (properties.map Property.eraseSpans) = propertyTexts properties := by
  induction properties with
  | nil => rfl
  | cons p properties step =>
    rw [List.map_cons, propertyTexts, propertyTexts, ih p (by simp),
      step fun p listed => ih p (List.mem_cons_of_mem _ listed)]

theorem linePieces_erase {body : List Stmt} (ih : ∀ s ∈ body, SamePieces s) :
    linePieces (body.map Stmt.eraseSpans) = (linePieces body).map Piece.unmarked := by
  induction body with
  | nil => rfl
  | cons s body step =>
    rw [List.map_cons, linePieces, linePieces, ih s (by simp),
      step fun s listed => ih s (List.mem_cons_of_mem _ listed)]
    simp [Piece.unmarked]

theorem blockPieces_erase {body : List Stmt} (ih : ∀ s ∈ body, SamePieces s) :
    blockPieces (body.map Stmt.eraseSpans) = (blockPieces body).map Piece.unmarked := by
  cases body with
  | nil => rfl
  | cons s body =>
    rw [List.map_cons, blockPieces, blockPieces, ih s (by simp),
      linePieces_erase fun s listed => ih s (List.mem_cons_of_mem _ listed)]
    simp [Piece.unmarked]

theorem spacedText_erase {value : Option Expr} (ih : ∀ e ∈ value, SameText e) :
    spacedText? (eraseOptional value) = spacedText? value := by
  cases value with
  | none => rfl
  | some e => rw [eraseOptional, spacedText?, spacedText?, ih e rfl]

theorem varDefTexts_erase {defs : List VarDef} (ih : InVarDefs SameText defs) :
    varDefTexts (defs.map VarDef.eraseSpans) = varDefTexts defs ∧
      loopVarDefTexts (defs.map VarDef.eraseSpans) = loopVarDefTexts defs := by
  induction defs with
  | nil => exact ⟨rfl, rfl⟩
  | cons d defs step =>
    obtain ⟨name, value⟩ := d
    obtain ⟨rest, rest'⟩ := step fun name value listed =>
      ih name value (List.mem_cons_of_mem _ listed)
    cases value with
    | none => simp [varDefTexts, loopVarDefTexts, rest, rest']
    | some value =>
      have same : SameText value := ih name value (by simp)
      simp [varDefTexts, loopVarDefTexts, rest, rest', same sequenceLevel, same assignmentLevel]

theorem headText_erase {head : ForHead} (ih : InHead SameText head) :
    headText head.eraseSpans = headText head := by
  cases head with
  | var defs => simp [headText, (varDefTexts_erase ih).2]
  | expr value =>
    have same : SameText value := ih
    simp [headText, same sequenceLevel]

theorem casePieces_erase {cases : List SwitchCase} (ih : InCases SameText SamePieces cases) :
    casePieces (cases.map SwitchCase.eraseSpans) = (casePieces cases).map Piece.unmarked := by
  induction cases with
  | nil => rfl
  | cons first rest step =>
    obtain ⟨test, body⟩ := first
    obtain ⟨tested, nested⟩ := ih test body (by simp)
    have rest := step fun test body listed => ih test body (List.mem_cons_of_mem _ listed)
    have lines := linePieces_erase nested
    cases test with
    | none => simp [Piece.unmarked, lines, rest]
    | some test => simp [Piece.unmarked, lines, rest, tested test rfl sequenceLevel]

/-- Every construct is written alike with spans and without when its parts are. -/
theorem unmarked_steps : Induction SameText SamePropertyText SameFunctionPieces SamePieces where
  num s value least := rfl
  string s text least := rfl
  name s name least := rfl
  atom s atom least := rfl
  regexp s pattern flags least := rfl
  array s items ih least := by simp [exprText, exprTexts_erase ih]
  object s properties ih least := by simp [exprText, propertyTexts_erase ih]
  dot s target property ih least := by simp [exprText, ih sequenceLevel, ih memberLevel]
  sub s target index ih ih' least := by simp [exprText, ih memberLevel, ih' sequenceLevel]
  call s callee args ih ih' least := by simp [exprText, ih memberLevel, exprTexts_erase ih']
  new s callee args ih ih' least := by
    simp [exprText, ih sequenceLevel, ih memberLevel, exprTexts_erase ih']
  prefixOp s op operand ih least := by simp [exprText, ih prefixLevel]
  postfixOp s op operand ih least := by simp [exprText, ih memberLevel]
  binary s op left right ih ih' least := by
    simp [exprText, ih (binaryLevel + op.precedence), ih' (binaryLevel + op.precedence + 1)]
  conditional s test yes no ih ih' ih'' least := by
    simp [exprText, ih binaryLevel, ih' assignmentLevel, ih'' assignmentLevel]
  assign s op target value ih ih' least := by
    simp [exprText, ih binaryLevel, ih' assignmentLevel]
  seq s first rest ih ih' least := by simp [exprText, ih assignmentLevel, ih' sequenceLevel]
  function s fn ih least := by simp [exprText, ih.1, inlineCode_unmarked]
  init key value ih := by simp [SamePropertyText, propertyText, ih assignmentLevel]
  getter key fn ih := by simp [SamePropertyText, propertyText, ih.2, inlineCode_unmarked]
  setter key fn ih := by simp [SamePropertyText, propertyText, ih.2, inlineCode_unmarked]
  functionBody name params body ih := by
    constructor <;> simp [functionPieces, functionTail, blockPieces_erase ih, Piece.unmarked]
  block s body ih := by simp [SamePieces, blockPieces_erase ih, Piece.unmarked]
  expression s value ih := by simp [SamePieces, ih sequenceLevel, Piece.unmarked]
  varStmt s defs ih := by simp [SamePieces, (varDefTexts_erase ih).2, Piece.unmarked]
  constStmt s defs ih := by simp [SamePieces, (varDefTexts_erase ih).1, Piece.unmarked]
  ifElse s condition thenBranch elseBranch ih ih' ih'' := by
    unfold SamePieces at ih' ⊢
    cases elseBranch with
    | none => simp [ih sequenceLevel, ih', Piece.unmarked]
    | some branch =>
      have last : SamePieces branch := ih'' branch rfl
      unfold SamePieces at last
      simp [ih sequenceLevel, ih', last, Piece.unmarked]
  forStmt s head test step body ih ih' ih'' body_ := by
    unfold SamePieces at body_ ⊢
    cases head with
    | none => simp [spacedText_erase ih', spacedText_erase ih'', body_, Piece.unmarked]
    | some head =>
      simp [headText_erase (ih head rfl), spacedText_erase ih', spacedText_erase ih'', body_,
        Piece.unmarked]
  forIn s head object body ih ih' ih'' := by
    unfold SamePieces at ih'' ⊢
    simp [headText_erase ih, ih' sequenceLevel, ih'', Piece.unmarked]
  whileStmt s condition body ih ih' := by
    unfold SamePieces at ih' ⊢
    simp [ih sequenceLevel, ih', Piece.unmarked]
  doWhile s body condition ih ih' := by
    unfold SamePieces at ih ⊢
    simp [ih, ih' sequenceLevel, Piece.unmarked]
  switch s discriminant cases ih ih' := by
    simp [SamePieces, ih sequenceLevel, casePieces_erase ih', Piece.unmarked]
  tryCatch s body handler finalizer ih ih' ih'' := by
    have first := blockPieces_erase ih
    rcases handler with _ | ⟨name, handling⟩
    · cases finalizer with
      | none => simp [SamePieces, first, Piece.unmarked]
      | some ending => simp [SamePieces, first, blockPieces_erase (ih'' ending rfl), Piece.unmarked]
    · have second := blockPieces_erase (ih' name handling rfl)
      cases finalizer with
      | none => simp [SamePieces, first, second, Piece.unmarked]
      | some ending =>
        simp [SamePieces, first, second, blockPieces_erase (ih'' ending rfl), Piece.unmarked]
  defun s fn ih := by simp [SamePieces, ih.1, Piece.unmarked]
  returnStmt s value ih := by simp [SamePieces, spacedText_erase ih, Piece.unmarked]
  breakStmt s label := rfl
  continueStmt s label := rfl
  labelled s label body ih := by
    unfold SamePieces at ih ⊢
    simp [ih, Piece.unmarked]
  throwStmt s value ih := by simp [SamePieces, ih sequenceLevel, Piece.unmarked]
  withStmt s object body ih ih' := by
    unfold SamePieces at ih' ⊢
    simp [ih sequenceLevel, ih', Piece.unmarked]
  debuggerStmt s := rfl

/-- The text of an expression does not depend on spans. -/
theorem ofExpr_eraseSpans (e : Expr) : ofExpr e.eraseSpans = ofExpr e :=
  unmarked_steps.expr e sequenceLevel

end Stencil.Print
