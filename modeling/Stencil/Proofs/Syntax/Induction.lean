import Stencil.Syntax.Tree
/-!
# Induction over trees

Expressions, properties, functions and statements contain each other, in lists and where they may
be absent. `Induction` names what has to be shown for every constructor, with a hypothesis for
every tree below it; from that the statement follows for all trees.
-/

set_option autoImplicit false
set_option linter.unusedSectionVars false

namespace Stencil.Syntax

/-- What has to hold of the expressions in variables. -/
def InVarDefs (onExpr : Expr → Prop) (defs : List VarDef) : Prop :=
  ∀ name value, VarDef.mk name (some value) ∈ defs → onExpr value

/-- What has to hold of the expressions in the head of a loop. -/
def InHead (onExpr : Expr → Prop) : ForHead → Prop
  | .var defs => InVarDefs onExpr defs
  | .expr value => onExpr value

/-- What has to hold of the expressions and statements in the branches of a switch. -/
def InCases (onExpr : Expr → Prop) (onStmt : Stmt → Prop) (cases : List SwitchCase) : Prop :=
  ∀ test body, SwitchCase.mk test body ∈ cases →
    (∀ e ∈ test, onExpr e) ∧ ∀ s ∈ body, onStmt s

/-- The steps of an induction over trees. -/
structure Induction (onExpr : Expr → Prop) (onProperty : Property → Prop)
    (onFunction : Function → Prop) (onStmt : Stmt → Prop) : Prop where
  num (s value) : onExpr (.num s value)
  string (s text) : onExpr (.string s text)
  name (s name) : onExpr (.name s name)
  atom (s atom) : onExpr (.atom s atom)
  regexp (s pattern flags) : onExpr (.regexp s pattern flags)
  array (s items) (ih : ∀ e ∈ items, onExpr e) : onExpr (.array s items)
  object (s properties) (ih : ∀ p ∈ properties, onProperty p) : onExpr (.object s properties)
  dot (s target property) (ih : onExpr target) : onExpr (.dot s target property)
  sub (s target index) (ih : onExpr target) (ih' : onExpr index) : onExpr (.sub s target index)
  call (s callee args) (ih : onExpr callee) (ih' : ∀ e ∈ args, onExpr e) :
    onExpr (.call s callee args)
  new (s callee args) (ih : onExpr callee) (ih' : ∀ e ∈ args, onExpr e) :
    onExpr (.new s callee args)
  prefixOp (s op operand) (ih : onExpr operand) : onExpr (.prefixOp s op operand)
  postfixOp (s op operand) (ih : onExpr operand) : onExpr (.postfixOp s op operand)
  binary (s op left right) (ih : onExpr left) (ih' : onExpr right) :
    onExpr (.binary s op left right)
  conditional (s test yes no) (ih : onExpr test) (ih' : onExpr yes) (ih'' : onExpr no) :
    onExpr (.conditional s test yes no)
  assign (s op target value) (ih : onExpr target) (ih' : onExpr value) :
    onExpr (.assign s op target value)
  seq (s first rest) (ih : onExpr first) (ih' : onExpr rest) : onExpr (.seq s first rest)
  function (s fn) (ih : onFunction fn) : onExpr (.function s fn)
  init (key value) (ih : onExpr value) : onProperty (.init key value)
  getter (key fn) (ih : onFunction fn) : onProperty (.getter key fn)
  setter (key fn) (ih : onFunction fn) : onProperty (.setter key fn)
  functionBody (name params body) (ih : ∀ s ∈ body, onStmt s) : onFunction (.mk name params body)
  block (s body) (ih : ∀ s ∈ body, onStmt s) : onStmt (.block s body)
  expression (s value) (ih : onExpr value) : onStmt (.expression s value)
  varStmt (s defs) (ih : InVarDefs onExpr defs) : onStmt (.var s defs)
  constStmt (s defs) (ih : InVarDefs onExpr defs) : onStmt (.const s defs)
  ifElse (s condition thenBranch elseBranch) (ih : onExpr condition) (ih' : onStmt thenBranch)
    (ih'' : ∀ s ∈ elseBranch, onStmt s) :
    onStmt (.ifElse s condition thenBranch elseBranch)
  forStmt (s head test step body) (ih : ∀ h ∈ head, InHead onExpr h) (ih' : ∀ e ∈ test, onExpr e)
    (ih'' : ∀ e ∈ step, onExpr e) (body_ : onStmt body) : onStmt (.for s head test step body)
  forIn (s head object body) (ih : InHead onExpr head) (ih' : onExpr object)
    (ih'' : onStmt body) : onStmt (.forIn s head object body)
  whileStmt (s condition body) (ih : onExpr condition) (ih' : onStmt body) :
    onStmt (.while s condition body)
  doWhile (s body condition) (ih : onStmt body) (ih' : onExpr condition) :
    onStmt (.doWhile s body condition)
  switch (s discriminant cases) (ih : onExpr discriminant) (ih' : InCases onExpr onStmt cases) :
    onStmt (.switch s discriminant cases)
  tryCatch (s body handler finalizer) (ih : ∀ s ∈ body, onStmt s)
    (ih' : ∀ name body, handler = some (.mk name body) → ∀ s ∈ body, onStmt s)
    (ih'' : ∀ body, finalizer = some body → ∀ s ∈ body, onStmt s) :
    onStmt (.tryCatch s body handler finalizer)
  defun (s fn) (ih : onFunction fn) : onStmt (.defun s fn)
  returnStmt (s value) (ih : ∀ e ∈ value, onExpr e) : onStmt (.return s value)
  breakStmt (s label) : onStmt (.break s label)
  continueStmt (s label) : onStmt (.continue s label)
  labelled (s label body) (ih : onStmt body) : onStmt (.labelled s label body)
  throwStmt (s value) (ih : onExpr value) : onStmt (.throw s value)
  withStmt (s object body) (ih : onExpr object) (ih' : onStmt body) : onStmt (.with s object body)
  debuggerStmt (s) : onStmt (.debugger s)

namespace Induction

variable {onExpr : Expr → Prop} {onProperty : Property → Prop} {onFunction : Function → Prop}
  {onStmt : Stmt → Prop} (steps : Induction onExpr onProperty onFunction onStmt)

include steps

mutual

/-- The statement for expressions. -/
theorem expr : ∀ e, onExpr e
  | .num s value => steps.num s value
  | .string s text => steps.string s text
  | .name s name => steps.name s name
  | .atom s atom => steps.atom s atom
  | .regexp s pattern flags => steps.regexp s pattern flags
  | .array s items => steps.array s items (exprs items)
  | .object s properties => steps.object s properties (properties_ properties)
  | .dot s target property => steps.dot s target property (expr target)
  | .sub s target index => steps.sub s target index (expr target) (expr index)
  | .call s callee args => steps.call s callee args (expr callee) (exprs args)
  | .new s callee args => steps.new s callee args (expr callee) (exprs args)
  | .prefixOp s op operand => steps.prefixOp s op operand (expr operand)
  | .postfixOp s op operand => steps.postfixOp s op operand (expr operand)
  | .binary s op left right => steps.binary s op left right (expr left) (expr right)
  | .conditional s test yes no =>
    steps.conditional s test yes no (expr test) (expr yes) (expr no)
  | .assign s op target value => steps.assign s op target value (expr target) (expr value)
  | .seq s first rest => steps.seq s first rest (expr first) (expr rest)
  | .function s fn => steps.function s fn (function_ fn)

/-- The statement for the expressions of a list. -/
theorem exprs : ∀ items : List Expr, ∀ e ∈ items, onExpr e
  | [], _, listed => absurd listed List.not_mem_nil
  | e :: rest, d, listed => by
    rcases List.mem_cons.1 listed with same | listed
    · exact same ▸ expr e
    · exact exprs rest d listed

/-- The statement for properties. -/
theorem property : ∀ p, onProperty p
  | .init key value => steps.init key value (expr value)
  | .getter key fn => steps.getter key fn (function_ fn)
  | .setter key fn => steps.setter key fn (function_ fn)

/-- The statement for the properties of a list. -/
theorem properties_ : ∀ properties : List Property, ∀ p ∈ properties, onProperty p
  | [], _, listed => absurd listed List.not_mem_nil
  | p :: rest, q, listed => by
    rcases List.mem_cons.1 listed with same | listed
    · exact same ▸ property p
    · exact properties_ rest q listed

/-- The statement for functions. -/
theorem function_ : ∀ fn, onFunction fn
  | .mk name params body => steps.functionBody name params body (stmts body)

/-- The statement for statements. -/
theorem stmt : ∀ s, onStmt s
  | .block s body => steps.block s body (stmts body)
  | .expression s value => steps.expression s value (expr value)
  | .var s defs => steps.varStmt s defs (varDefs defs)
  | .const s defs => steps.constStmt s defs (varDefs defs)
  | .ifElse s condition thenBranch elseBranch =>
    steps.ifElse s condition thenBranch elseBranch (expr condition) (stmt thenBranch)
      (optionalStmt elseBranch)
  | .for s head test step body =>
    steps.forStmt s head test step body (optionalHead head) (optionalExpr test) (optionalExpr step)
      (stmt body)
  | .forIn s head object body =>
    steps.forIn s head object body (head_ head) (expr object) (stmt body)
  | .while s condition body => steps.whileStmt s condition body (expr condition) (stmt body)
  | .doWhile s body condition => steps.doWhile s body condition (stmt body) (expr condition)
  | .switch s discriminant cases =>
    steps.switch s discriminant cases (expr discriminant) (cases_ cases)
  | .tryCatch s body handler finalizer =>
    steps.tryCatch s body handler finalizer (stmts body) (optionalHandler handler)
      (optionalStmts finalizer)
  | .defun s fn => steps.defun s fn (function_ fn)
  | .return s value => steps.returnStmt s value (optionalExpr value)
  | .break s label => steps.breakStmt s label
  | .continue s label => steps.continueStmt s label
  | .labelled s label body => steps.labelled s label body (stmt body)
  | .throw s value => steps.throwStmt s value (expr value)
  | .with s object body => steps.withStmt s object body (expr object) (stmt body)
  | .debugger s => steps.debuggerStmt s

/-- The statement for the statements of a list. -/
theorem stmts : ∀ body : List Stmt, ∀ s ∈ body, onStmt s
  | [], _, listed => absurd listed List.not_mem_nil
  | s :: rest, t, listed => by
    rcases List.mem_cons.1 listed with same | listed
    · exact same ▸ stmt s
    · exact stmts rest t listed

/-- The statement for an expression that may be absent. -/
theorem optionalExpr : ∀ value : Option Expr, ∀ e ∈ value, onExpr e
  | none, _, listed => absurd listed (by simp)
  | some value, e, listed => by
    obtain rfl := Option.some.inj listed
    exact expr value

/-- The statement for a statement that may be absent. -/
theorem optionalStmt : ∀ branch : Option Stmt, ∀ s ∈ branch, onStmt s
  | none, _, listed => absurd listed (by simp)
  | some branch, s, listed => by
    obtain rfl := Option.some.inj listed
    exact stmt branch

/-- The statement for statements that may be absent. -/
theorem optionalStmts : ∀ finalizer : Option (List Stmt),
    ∀ body, finalizer = some body → ∀ s ∈ body, onStmt s
  | none, _, same => absurd same (by simp)
  | some finalizer, body, same => by
    obtain rfl := Option.some.inj same
    exact stmts finalizer

/-- The statement for the variables of a declaration. -/
theorem varDefs : ∀ defs : List VarDef, InVarDefs onExpr defs
  | [], _, _, listed => absurd listed List.not_mem_nil
  | .mk first value :: rest, name, e, listed => by
    rcases List.mem_cons.1 listed with same | listed
    · obtain ⟨-, same⟩ := VarDef.mk.inj same
      exact optionalExpr value e same.symm
    · exact varDefs rest name e listed

/-- The statement for the head of a loop. -/
theorem head_ : ∀ head : ForHead, InHead onExpr head
  | .var defs => varDefs defs
  | .expr value => expr value

/-- The statement for the head of a loop that may be absent. -/
theorem optionalHead : ∀ head : Option ForHead, ∀ h ∈ head, InHead onExpr h
  | none, _, listed => absurd listed (by simp)
  | some head, h, listed => by
    obtain rfl := Option.some.inj listed
    exact head_ head

/-- The statement for the branches of a switch. -/
theorem cases_ : ∀ cases : List SwitchCase, InCases onExpr onStmt cases
  | [], _, _, listed => absurd listed List.not_mem_nil
  | .mk first statements :: rest, test, body, listed => by
    rcases List.mem_cons.1 listed with same | listed
    · obtain ⟨rfl, rfl⟩ := SwitchCase.mk.inj same
      exact ⟨optionalExpr test, stmts body⟩
    · exact cases_ rest test body listed

/-- The statement for the handler of a `try`. -/
theorem optionalHandler : ∀ handler : Option Handler,
    ∀ name body, handler = some (.mk name body) → ∀ s ∈ body, onStmt s
  | none, _, _, same => absurd same (by simp)
  | some (.mk first statements), name, body, same => by
    obtain ⟨-, rfl⟩ := Handler.mk.inj (Option.some.inj same)
    exact stmts _

end

end Induction

/-! ## Chunks -/

/-- The steps of an induction over chunks. The expressions in them are not looked at. -/
structure ChunkInduction (onChunk : Chunk → Prop) : Prop where
  html (s text) : onChunk (.html s text)
  echo (s value) : onChunk (.echo s value)
  inclusion (s args name) : onChunk (.include s args name)
  each (s bindings collection body) (ih : ∀ c ∈ body, onChunk c) :
    onChunk (.each s bindings collection body)
  ifElse (s condition thenBranch elseIfs elseBranch) (ih : ∀ c ∈ thenBranch, onChunk c)
    (ih' : ∀ condition body, .mk condition body ∈ elseIfs → ∀ c ∈ body, onChunk c)
    (ih'' : ∀ body, elseBranch = some body → ∀ c ∈ body, onChunk c) :
    onChunk (.ifElse s condition thenBranch elseIfs elseBranch)
  rawHtml (s value) : onChunk (.rawHtml s value)
  layout (s name) : onChunk (.layout s name)
  var (s defs) : onChunk (.var s defs)

namespace ChunkInduction

variable {onChunk : Chunk → Prop} (steps : ChunkInduction onChunk)

include steps

mutual

/-- The statement for chunks. -/
theorem chunk : ∀ c, onChunk c
  | .html s text => steps.html s text
  | .echo s value => steps.echo s value
  | .include s args name => steps.inclusion s args name
  | .each s bindings collection body => steps.each s bindings collection body (chunks body)
  | .ifElse s condition thenBranch elseIfs elseBranch =>
    steps.ifElse s condition thenBranch elseIfs elseBranch (chunks thenBranch) (elseIfs_ elseIfs)
      (optionalChunks elseBranch)
  | .rawHtml s value => steps.rawHtml s value
  | .layout s name => steps.layout s name
  | .var s defs => steps.var s defs

/-- The statement for the chunks of a list. -/
theorem chunks : ∀ body : List Chunk, ∀ c ∈ body, onChunk c
  | [], _, listed => absurd listed List.not_mem_nil
  | c :: rest, d, listed => by
    rcases List.mem_cons.1 listed with same | listed
    · exact same ▸ chunk c
    · exact chunks rest d listed

/-- The statement for the chunks of conditional branches. -/
theorem elseIfs_ : ∀ branches : List ElseIf,
    ∀ condition body, .mk condition body ∈ branches → ∀ c ∈ body, onChunk c
  | [], _, _, listed => absurd listed List.not_mem_nil
  | .mk first statements :: rest, condition, body, listed => by
    rcases List.mem_cons.1 listed with same | listed
    · obtain ⟨-, rfl⟩ := ElseIf.mk.inj same
      exact chunks _
    · exact elseIfs_ rest condition body listed

/-- The statement for chunks that may be absent. -/
theorem optionalChunks : ∀ branch : Option (List Chunk),
    ∀ body, branch = some body → ∀ c ∈ body, onChunk c
  | none, _, same => absurd same (by simp)
  | some branch, body, same => by
    obtain rfl := Option.some.inj same
    exact chunks branch

end

end ChunkInduction

end Stencil.Syntax
