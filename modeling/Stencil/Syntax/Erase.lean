import Stencil.Syntax.Tree
/-!
# Trees without spans

`eraseSpans` removes every span of a tree, at any depth, and keeps all else. Two trees that
differ only in where they were read from have the same erasure.
-/

set_option autoImplicit false

namespace Stencil.Syntax

mutual

/-- The expression without spans. -/
def Expr.eraseSpans : Expr → Expr
  | .num _ value => .num none value
  | .string _ text => .string none text
  | .name _ name => .name none name
  | .atom _ atom => .atom none atom
  | .regexp _ pattern flags => .regexp none pattern flags
  | .array _ items => .array none (eraseExprs items)
  | .object _ properties => .object none (eraseProperties properties)
  | .dot _ target property => .dot none target.eraseSpans property
  | .sub _ target index => .sub none target.eraseSpans index.eraseSpans
  | .call _ callee args => .call none callee.eraseSpans (eraseExprs args)
  | .new _ callee args => .new none callee.eraseSpans (eraseExprs args)
  | .prefixOp _ op operand => .prefixOp none op operand.eraseSpans
  | .postfixOp _ op operand => .postfixOp none op operand.eraseSpans
  | .binary _ op left right => .binary none op left.eraseSpans right.eraseSpans
  | .conditional _ test yes no =>
    .conditional none test.eraseSpans yes.eraseSpans no.eraseSpans
  | .assign _ op target value => .assign none op target.eraseSpans value.eraseSpans
  | .seq _ first rest => .seq none first.eraseSpans rest.eraseSpans
  | .function _ function => .function none function.eraseSpans

/-- The expressions of a list without spans. -/
def eraseExprs : List Expr → List Expr
  | [] => []
  | e :: rest => e.eraseSpans :: eraseExprs rest

/-- The property without spans. -/
def Property.eraseSpans : Property → Property
  | .init key value => .init key value.eraseSpans
  | .getter key function => .getter key function.eraseSpans
  | .setter key function => .setter key function.eraseSpans

/-- The properties of a list without spans. -/
def eraseProperties : List Property → List Property
  | [] => []
  | p :: rest => p.eraseSpans :: eraseProperties rest

/-- The function without spans. -/
def Function.eraseSpans : Function → Function
  | .mk name params body => .mk name params (eraseStmts body)

/-- The statement without spans. -/
def Stmt.eraseSpans : Stmt → Stmt
  | .block _ body => .block none (eraseStmts body)
  | .expression _ value => .expression none value.eraseSpans
  | .var _ defs => .var none (eraseVarDefs defs)
  | .const _ defs => .const none (eraseVarDefs defs)
  | .ifElse _ condition thenBranch elseBranch =>
    .ifElse none condition.eraseSpans thenBranch.eraseSpans
      (match elseBranch with
        | none => none
        | some branch => some branch.eraseSpans)
  | .for _ head test step body =>
    .for none
      (match head with
        | none => none
        | some head => some head.eraseSpans)
      (eraseOptional test) (eraseOptional step) body.eraseSpans
  | .forIn _ head object body => .forIn none head.eraseSpans object.eraseSpans body.eraseSpans
  | .while _ condition body => .while none condition.eraseSpans body.eraseSpans
  | .doWhile _ body condition => .doWhile none body.eraseSpans condition.eraseSpans
  | .switch _ discriminant cases => .switch none discriminant.eraseSpans (eraseCases cases)
  | .tryCatch _ body handler finalizer =>
    .tryCatch none (eraseStmts body)
      (match handler with
        | none => none
        | some handler => some handler.eraseSpans)
      (match finalizer with
        | none => none
        | some body => some (eraseStmts body))
  | .defun _ function => .defun none function.eraseSpans
  | .return _ value => .return none (eraseOptional value)
  | .break _ label => .break none label
  | .continue _ label => .continue none label
  | .labelled _ label body => .labelled none label body.eraseSpans
  | .throw _ value => .throw none value.eraseSpans
  | .with _ object body => .with none object.eraseSpans body.eraseSpans
  | .debugger _ => .debugger none

/-- The statements of a list without spans. -/
def eraseStmts : List Stmt → List Stmt
  | [] => []
  | s :: rest => s.eraseSpans :: eraseStmts rest

/-- The expression that may be absent, without spans. -/
def eraseOptional : Option Expr → Option Expr
  | none => none
  | some e => some e.eraseSpans

/-- The variable without spans. -/
def VarDef.eraseSpans : VarDef → VarDef
  | .mk name value => .mk name (eraseOptional value)

/-- The variables of a list without spans. -/
def eraseVarDefs : List VarDef → List VarDef
  | [] => []
  | d :: rest => d.eraseSpans :: eraseVarDefs rest

/-- The head of a loop without spans. -/
def ForHead.eraseSpans : ForHead → ForHead
  | .var defs => .var (eraseVarDefs defs)
  | .expr value => .expr value.eraseSpans

/-- The branch without spans. -/
def SwitchCase.eraseSpans : SwitchCase → SwitchCase
  | .mk test body => .mk (eraseOptional test) (eraseStmts body)

/-- The branches of a list without spans. -/
def eraseCases : List SwitchCase → List SwitchCase
  | [] => []
  | c :: rest => c.eraseSpans :: eraseCases rest

/-- The handler without spans. -/
def Handler.eraseSpans : Handler → Handler
  | .mk name body => .mk name (eraseStmts body)

end

mutual

/-- The chunk without spans. -/
def Chunk.eraseSpans : Chunk → Chunk
  | .html _ text => .html none text
  | .echo _ value => .echo none value.eraseSpans
  | .include _ args name => .include none (args.map eraseExprs) name.eraseSpans
  | .each _ bindings collection body =>
    .each none bindings collection.eraseSpans (eraseChunks body)
  | .ifElse _ condition thenBranch elseIfs elseBranch =>
    .ifElse none condition.eraseSpans (eraseChunks thenBranch) (eraseElseIfs elseIfs)
      (match elseBranch with
        | none => none
        | some branch => some (eraseChunks branch))
  | .rawHtml _ value => .rawHtml none value.eraseSpans
  | .layout _ name => .layout none name.eraseSpans
  | .var _ defs => .var none (eraseVarDefs defs)

/-- The chunks of a list without spans. -/
def eraseChunks : List Chunk → List Chunk
  | [] => []
  | c :: rest => c.eraseSpans :: eraseChunks rest

/-- The conditional branch without spans. -/
def ElseIf.eraseSpans : ElseIf → ElseIf
  | .mk condition body => .mk condition.eraseSpans (eraseChunks body)

/-- The conditional branches of a list without spans. -/
def eraseElseIfs : List ElseIf → List ElseIf
  | [] => []
  | b :: rest => b.eraseSpans :: eraseElseIfs rest

end

/-- The template without spans. -/
def Template.eraseSpans (t : Template) : Template := ⟨eraseChunks t.chunks⟩

/-- The script without spans. -/
def Program.eraseSpans (p : Program) : Program := ⟨eraseStmts p.body⟩

/-! ## List by list

Without spans a list has the same members, each without its spans. -/

attribute [simp] Expr.eraseSpans Property.eraseSpans Function.eraseSpans Stmt.eraseSpans
  VarDef.eraseSpans ForHead.eraseSpans SwitchCase.eraseSpans Handler.eraseSpans eraseOptional
  Chunk.eraseSpans ElseIf.eraseSpans

/-- Expressions without spans. -/
@[simp] theorem eraseExprs_eq (items : List Expr) : eraseExprs items = items.map Expr.eraseSpans := by
  induction items with
  | nil => rfl
  | cons e items ih => rw [eraseExprs, ih, List.map_cons]

/-- Properties without spans. -/
@[simp] theorem eraseProperties_eq (properties : List Property) :
    eraseProperties properties = properties.map Property.eraseSpans := by
  induction properties with
  | nil => rfl
  | cons p properties ih => rw [eraseProperties, ih, List.map_cons]

/-- Statements without spans. -/
@[simp] theorem eraseStmts_eq (body : List Stmt) : eraseStmts body = body.map Stmt.eraseSpans := by
  induction body with
  | nil => rfl
  | cons s body ih => rw [eraseStmts, ih, List.map_cons]

/-- Variables without spans. -/
@[simp] theorem eraseVarDefs_eq (defs : List VarDef) :
    eraseVarDefs defs = defs.map VarDef.eraseSpans := by
  induction defs with
  | nil => rfl
  | cons d defs ih => rw [eraseVarDefs, ih, List.map_cons]

/-- Branches without spans. -/
@[simp] theorem eraseCases_eq (cases : List SwitchCase) :
    eraseCases cases = cases.map SwitchCase.eraseSpans := by
  induction cases with
  | nil => rfl
  | cons case cases ih => rw [eraseCases, ih, List.map_cons]

/-- Chunks without spans. -/
@[simp] theorem eraseChunks_eq (chunks : List Chunk) :
    eraseChunks chunks = chunks.map Chunk.eraseSpans := by
  induction chunks with
  | nil => rfl
  | cons c chunks ih => rw [eraseChunks, ih, List.map_cons]

/-- Conditional branches without spans. -/
@[simp] theorem eraseElseIfs_eq (branches : List ElseIf) :
    eraseElseIfs branches = branches.map ElseIf.eraseSpans := by
  induction branches with
  | nil => rfl
  | cons b branches ih => rw [eraseElseIfs, ih, List.map_cons]

/-- An expression that may be absent, without spans. -/
theorem eraseOptional_eq (value : Option Expr) : eraseOptional value = value.map Expr.eraseSpans := by
  cases value <;> rfl

end Stencil.Syntax
