import Stencil.Syntax.Tree
/-!
# The parts of a tree

A tree is made of expressions, properties, functions, statements, variables, handlers and chunks.
`parts` lists all of them, at any depth, the bodies of functions included. A condition on trees
that every part meets by itself is stated over this list, so that two such conditions are joined
without a further induction.
-/

set_option autoImplicit false

namespace Stencil.Syntax

/-- A part of a tree. -/
inductive Part where
  | expr (e : Expr)
  | property (property : Property)
  | function (function : Function)
  | stmt (stmt : Stmt)
  | varDef (def_ : VarDef)
  | head (head : ForHead)
  | switchCase (case : SwitchCase)
  | handler (handler : Handler)
  | chunk (chunk : Chunk)
  | elseIf (branch : ElseIf)

mutual

/-- The parts of an expression: the expression and everything below it. -/
def Expr.parts : Expr → List Part
  | .array s items => .expr (.array s items) :: partsOfExprs items
  | .object s properties => .expr (.object s properties) :: partsOfProperties properties
  | .dot s target property => .expr (.dot s target property) :: target.parts
  | .sub s target index => .expr (.sub s target index) :: (target.parts ++ index.parts)
  | .call s callee args => .expr (.call s callee args) :: (callee.parts ++ partsOfExprs args)
  | .new s callee args => .expr (.new s callee args) :: (callee.parts ++ partsOfExprs args)
  | .prefixOp s op operand => .expr (.prefixOp s op operand) :: operand.parts
  | .postfixOp s op operand => .expr (.postfixOp s op operand) :: operand.parts
  | .binary s op left right => .expr (.binary s op left right) :: (left.parts ++ right.parts)
  | .conditional s test yes no =>
    .expr (.conditional s test yes no) :: (test.parts ++ yes.parts ++ no.parts)
  | .assign s op target value =>
    .expr (.assign s op target value) :: (target.parts ++ value.parts)
  | .seq s first rest => .expr (.seq s first rest) :: (first.parts ++ rest.parts)
  | .function s fn => .expr (.function s fn) :: fn.parts
  | e => [.expr e]

/-- The parts of the expressions of a list. -/
def partsOfExprs : List Expr → List Part
  | [] => []
  | e :: rest => e.parts ++ partsOfExprs rest

/-- The parts of a property. -/
def Property.parts : Property → List Part
  | .init key value => .property (.init key value) :: value.parts
  | .getter key fn => .property (.getter key fn) :: fn.parts
  | .setter key fn => .property (.setter key fn) :: fn.parts

/-- The parts of the properties of a list. -/
def partsOfProperties : List Property → List Part
  | [] => []
  | p :: rest => p.parts ++ partsOfProperties rest

/-- The parts of a function. -/
def Function.parts : Function → List Part
  | .mk name params body => .function (.mk name params body) :: partsOfStmts body

/-- The parts of a statement. -/
def Stmt.parts : Stmt → List Part
  | .block s body => .stmt (.block s body) :: partsOfStmts body
  | .expression s value => .stmt (.expression s value) :: value.parts
  | .var s defs => .stmt (.var s defs) :: partsOfVarDefs defs
  | .const s defs => .stmt (.const s defs) :: partsOfVarDefs defs
  | .ifElse s condition thenBranch elseBranch =>
    .stmt (.ifElse s condition thenBranch elseBranch) ::
      (condition.parts ++ thenBranch.parts
        ++ match elseBranch with
          | none => []
          | some branch => branch.parts)
  | .for s head test step body =>
    .stmt (.for s head test step body) ::
      ((match head with
        | none => []
        | some head => head.parts)
        ++ partsOfOptional test ++ partsOfOptional step ++ body.parts)
  | .forIn s head object body =>
    .stmt (.forIn s head object body) :: (head.parts ++ object.parts ++ body.parts)
  | .while s condition body => .stmt (.while s condition body) :: (condition.parts ++ body.parts)
  | .doWhile s body condition =>
    .stmt (.doWhile s body condition) :: (body.parts ++ condition.parts)
  | .switch s discriminant cases =>
    .stmt (.switch s discriminant cases) :: (discriminant.parts ++ partsOfCases cases)
  | .tryCatch s body handler finalizer =>
    .stmt (.tryCatch s body handler finalizer) ::
      (partsOfStmts body
        ++ (match handler with
          | none => []
          | some handler => handler.parts)
        ++ match finalizer with
          | none => []
          | some body => partsOfStmts body)
  | .defun s fn => .stmt (.defun s fn) :: fn.parts
  | .return s value => .stmt (.return s value) :: partsOfOptional value
  | .break s label => [.stmt (.break s label)]
  | .continue s label => [.stmt (.continue s label)]
  | .labelled s label body => .stmt (.labelled s label body) :: body.parts
  | .throw s value => .stmt (.throw s value) :: value.parts
  | .with s object body => .stmt (.with s object body) :: (object.parts ++ body.parts)
  | .debugger s => [.stmt (.debugger s)]

/-- The parts of the statements of a list. -/
def partsOfStmts : List Stmt → List Part
  | [] => []
  | s :: rest => s.parts ++ partsOfStmts rest

/-- The parts of an expression that may be absent. -/
def partsOfOptional : Option Expr → List Part
  | none => []
  | some e => e.parts

/-- The parts of a variable. -/
def VarDef.parts : VarDef → List Part
  | .mk name value => .varDef (.mk name value) :: partsOfOptional value

/-- The parts of the variables of a list. -/
def partsOfVarDefs : List VarDef → List Part
  | [] => []
  | d :: rest => d.parts ++ partsOfVarDefs rest

/-- The parts of the head of a loop. -/
def ForHead.parts : ForHead → List Part
  | .var defs => .head (.var defs) :: partsOfVarDefs defs
  | .expr value => .head (.expr value) :: value.parts

/-- The parts of a branch of a switch. -/
def SwitchCase.parts : SwitchCase → List Part
  | .mk test body => .switchCase (.mk test body) :: (partsOfOptional test ++ partsOfStmts body)

/-- The parts of the branches of a list. -/
def partsOfCases : List SwitchCase → List Part
  | [] => []
  | c :: rest => c.parts ++ partsOfCases rest

/-- The parts of a handler. -/
def Handler.parts : Handler → List Part
  | .mk name body => .handler (.mk name body) :: partsOfStmts body

end

mutual

/-- The parts of a chunk. -/
def Chunk.parts : Chunk → List Part
  | .html s text => [.chunk (.html s text)]
  | .echo s value => .chunk (.echo s value) :: value.parts
  | .include s args name =>
    .chunk (.include s args name) :: (partsOfExprs (args.getD []) ++ name.parts)
  | .each s bindings collection body =>
    .chunk (.each s bindings collection body) :: (collection.parts ++ partsOfChunks body)
  | .ifElse s condition thenBranch elseIfs elseBranch =>
    .chunk (.ifElse s condition thenBranch elseIfs elseBranch) ::
      (condition.parts ++ partsOfChunks thenBranch ++ partsOfElseIfs elseIfs
        ++ match elseBranch with
          | none => []
          | some branch => partsOfChunks branch)
  | .rawHtml s value => .chunk (.rawHtml s value) :: value.parts
  | .layout s name => .chunk (.layout s name) :: name.parts
  | .var s defs => .chunk (.var s defs) :: partsOfVarDefs defs

/-- The parts of the chunks of a list. -/
def partsOfChunks : List Chunk → List Part
  | [] => []
  | c :: rest => c.parts ++ partsOfChunks rest

/-- The parts of a conditional branch. -/
def ElseIf.parts : ElseIf → List Part
  | .mk condition body => .elseIf (.mk condition body) :: (condition.parts ++ partsOfChunks body)

/-- The parts of the conditional branches of a list. -/
def partsOfElseIfs : List ElseIf → List Part
  | [] => []
  | b :: rest => b.parts ++ partsOfElseIfs rest

end

attribute [simp] Expr.parts Property.parts Function.parts Stmt.parts VarDef.parts ForHead.parts
  SwitchCase.parts Handler.parts Chunk.parts ElseIf.parts

/-- The parts of a script. -/
def Program.parts (program : Program) : List Part := partsOfStmts program.body

/-- The parts of a template. -/
def Template.parts (t : Template) : List Part := partsOfChunks t.chunks

/-! ## Conditions on every part -/

/-- Whether every part meets a condition. -/
def Everywhere (condition : Part → Prop) (parts : List Part) : Prop :=
  ∀ part ∈ parts, condition part

section Everywhere

variable {condition : Part → Prop}

@[simp] theorem everywhere_nil : Everywhere condition [] :=
  fun _ listed => absurd listed List.not_mem_nil

@[simp] theorem everywhere_cons (part : Part) (parts : List Part) :
    Everywhere condition (part :: parts) ↔ condition part ∧ Everywhere condition parts :=
  List.forall_mem_cons

@[simp] theorem everywhere_append (parts more : List Part) :
    Everywhere condition (parts ++ more) ↔
      Everywhere condition parts ∧ Everywhere condition more :=
  List.forall_mem_append

/-- A condition holds everywhere in a list of expressions when it holds everywhere in each. -/
theorem everywhere_exprs {items : List Expr} :
    Everywhere condition (partsOfExprs items) ↔
      ∀ e ∈ items, Everywhere condition e.parts := by
  induction items with
  | nil => simp [partsOfExprs]
  | cons e items ih => simp [partsOfExprs, ih]

/-- A condition holds everywhere in a list of properties when it holds everywhere in each. -/
theorem everywhere_properties {properties : List Property} :
    Everywhere condition (partsOfProperties properties) ↔
      ∀ p ∈ properties, Everywhere condition p.parts := by
  induction properties with
  | nil => simp [partsOfProperties]
  | cons p properties ih => simp [partsOfProperties, ih]

/-- A condition holds everywhere in a list of statements when it holds everywhere in each. -/
theorem everywhere_stmts {body : List Stmt} :
    Everywhere condition (partsOfStmts body) ↔
      ∀ s ∈ body, Everywhere condition s.parts := by
  induction body with
  | nil => simp [partsOfStmts]
  | cons s body ih => simp [partsOfStmts, ih]

/-- A condition holds everywhere in a list of variables when it holds everywhere in each. -/
theorem everywhere_varDefs {defs : List VarDef} :
    Everywhere condition (partsOfVarDefs defs) ↔
      ∀ d ∈ defs, Everywhere condition d.parts := by
  induction defs with
  | nil => simp [partsOfVarDefs]
  | cons d defs ih => simp [partsOfVarDefs, ih]

/-- A condition holds everywhere in a list of branches of a switch when it holds everywhere in each. -/
theorem everywhere_cases {cases : List SwitchCase} :
    Everywhere condition (partsOfCases cases) ↔
      ∀ c ∈ cases, Everywhere condition c.parts := by
  induction cases with
  | nil => simp [partsOfCases]
  | cons c cases ih => simp [partsOfCases, ih]

/-- A condition holds everywhere in a list of chunks when it holds everywhere in each. -/
theorem everywhere_chunks {chunks : List Chunk} :
    Everywhere condition (partsOfChunks chunks) ↔
      ∀ c ∈ chunks, Everywhere condition c.parts := by
  induction chunks with
  | nil => simp [partsOfChunks]
  | cons c chunks ih => simp [partsOfChunks, ih]

/-- A condition holds everywhere in a list of conditional branches when it holds everywhere in each. -/
theorem everywhere_elseIfs {branches : List ElseIf} :
    Everywhere condition (partsOfElseIfs branches) ↔
      ∀ b ∈ branches, Everywhere condition b.parts := by
  induction branches with
  | nil => simp [partsOfElseIfs]
  | cons b branches ih => simp [partsOfElseIfs, ih]

/-- A condition holds everywhere in a branching when it holds of it and everywhere in its
parts. -/
theorem everywhere_ifElse {s : Option Text.Span} {test : Expr} {thenBranch : Stmt}
    {elseBranch : Option Stmt} :
    Everywhere condition (Stmt.ifElse s test thenBranch elseBranch).parts ↔
      condition (.stmt (.ifElse s test thenBranch elseBranch)) ∧
        Everywhere condition test.parts ∧ Everywhere condition thenBranch.parts ∧
        ∀ branch, elseBranch = some branch → Everywhere condition branch.parts := by
  cases elseBranch with
  | none => simp
  | some branch => simp

/-- A condition holds everywhere in a loop when it holds of it and everywhere in its parts. -/
theorem everywhere_for {s : Option Text.Span} {head : Option ForHead} {test step : Option Expr}
    {body : Stmt} :
    Everywhere condition (Stmt.for s head test step body).parts ↔
      condition (.stmt (.for s head test step body)) ∧
        (∀ h, head = some h → Everywhere condition h.parts) ∧
        Everywhere condition (partsOfOptional test) ∧
        Everywhere condition (partsOfOptional step) ∧ Everywhere condition body.parts := by
  cases head with
  | none => simp
  | some head => simp

/-- A condition holds everywhere in a `try` statement when it holds of it and everywhere in its
parts. -/
theorem everywhere_tryCatch {s : Option Text.Span} {body : List Stmt} {handler : Option Handler}
    {finalizer : Option (List Stmt)} :
    Everywhere condition (Stmt.tryCatch s body handler finalizer).parts ↔
      condition (.stmt (.tryCatch s body handler finalizer)) ∧
        Everywhere condition (partsOfStmts body) ∧
        (∀ h, handler = some h → Everywhere condition h.parts) ∧
        ∀ final, finalizer = some final → Everywhere condition (partsOfStmts final) := by
  rcases handler with _ | ⟨name, handling⟩
  · cases finalizer with
    | none => simp
    | some final => simp
  · cases finalizer with
    | none => simp
    | some final => simp [and_assoc]

/-- A condition holds everywhere in a conditional when it holds of it and everywhere in its
branches. -/
theorem everywhere_conditional {s : Option Text.Span} {test : Expr} {thenBranch : List Chunk}
    {elseIfs : List ElseIf} {elseBranch : Option (List Chunk)} :
    Everywhere condition (Chunk.ifElse s test thenBranch elseIfs elseBranch).parts ↔
      condition (.chunk (.ifElse s test thenBranch elseIfs elseBranch)) ∧
        Everywhere condition test.parts ∧ Everywhere condition (partsOfChunks thenBranch) ∧
        Everywhere condition (partsOfElseIfs elseIfs) ∧
        ∀ body, elseBranch = some body → Everywhere condition (partsOfChunks body) := by
  cases elseBranch with
  | none => simp
  | some branch => simp

end Everywhere

end Stencil.Syntax
