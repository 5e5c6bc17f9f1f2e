import Stencil.Syntax.Tree
/-!
# Walking trees

`nodes` lists an expression and everything evaluated below it, and `visits` the chunks of a
template as they are entered and left. Functions, and accessors of object literals, are not
entered: their bodies are never evaluated.
-/

set_option autoImplicit false

namespace Stencil.Syntax

mutual

/-- The expression and the expressions below it, each before what is below it. -/
def Expr.nodes : Expr → List Expr
  | .array s items => .array s items :: nodesOfExprs items
  | .object s properties => .object s properties :: nodesOfProperties properties
  | .dot s target property => .dot s target property :: target.nodes
  | .sub s target index => .sub s target index :: (target.nodes ++ index.nodes)
  | .call s callee args => .call s callee args :: (callee.nodes ++ nodesOfExprs args)
  | .new s callee args => .new s callee args :: (callee.nodes ++ nodesOfExprs args)
  | .prefixOp s op operand => .prefixOp s op operand :: operand.nodes
  | .postfixOp s op operand => .postfixOp s op operand :: operand.nodes
  | .binary s op left right => .binary s op left right :: (left.nodes ++ right.nodes)
  | .conditional s test yes no =>
    .conditional s test yes no :: (test.nodes ++ yes.nodes ++ no.nodes)
  | .assign s op target value => .assign s op target value :: (target.nodes ++ value.nodes)
  | .seq s first rest => .seq s first rest :: (first.nodes ++ rest.nodes)
  | e => [e]

/-- The nodes of the expressions of a list. -/
def nodesOfExprs : List Expr → List Expr
  | [] => []
  | e :: rest => e.nodes ++ nodesOfExprs rest

/-- The nodes of the values of an object literal. -/
def nodesOfProperties : List Property → List Expr
  | [] => []
  | .init _ value :: rest => value.nodes ++ nodesOfProperties rest
  | _ :: rest => nodesOfProperties rest

end

/-- The initial values of variables. -/
def initialValues : List VarDef → List Expr
  | [] => []
  | .mk _ none :: rest => initialValues rest
  | .mk _ (some value) :: rest => value :: initialValues rest

/-- The conditions of `{{else}}` branches. -/
def conditionsOf : List ElseIf → List Expr
  | [] => []
  | .mk condition _ :: rest => condition :: conditionsOf rest

/-- The expressions that stand in the chunk itself, not in the chunks below it. -/
def Chunk.expressions : Chunk → List Expr
  | .html .. => []
  | .echo _ value | .rawHtml _ value => [value]
  | .layout _ name => [name]
  | .include _ args name => args.getD [] ++ [name]
  | .each _ _ collection _ => [collection]
  | .ifElse _ condition _ elseIfs _ => condition :: conditionsOf elseIfs
  | .var _ defs => initialValues defs

/-- A step of a walk over chunks. -/
inductive Visit where
  | enter (chunk : Chunk)
  | leave (chunk : Chunk)

mutual

/-- The steps of a walk over a chunk; what is below it is visited only where wanted. -/
def Chunk.visits (descend : Chunk → Bool) : Chunk → List Visit
  | .each s bindings collection body =>
    let chunk := Chunk.each s bindings collection body
    .enter chunk :: ((if descend chunk then visitsOf descend body else []) ++ [.leave chunk])
  | .ifElse s condition thenBranch elseIfs elseBranch =>
    let chunk := Chunk.ifElse s condition thenBranch elseIfs elseBranch
    .enter chunk ::
      ((if descend chunk then
          visitsOf descend thenBranch ++ visitsOfElseIfs descend elseIfs
            ++ match elseBranch with
              | none => []
              | some branch => visitsOf descend branch
        else [])
        ++ [.leave chunk])
  | chunk => [.enter chunk, .leave chunk]

/-- The steps of a walk over chunks. -/
def visitsOf (descend : Chunk → Bool) : List Chunk → List Visit
  | [] => []
  | c :: rest => c.visits descend ++ visitsOf descend rest

/-- The steps of a walk over the chunks of `{{else}}` branches. -/
def visitsOfElseIfs (descend : Chunk → Bool) : List ElseIf → List Visit
  | [] => []
  | .mk _ body :: rest => visitsOf descend body ++ visitsOfElseIfs descend rest

end

/-- The chunks that a walk enters. -/
def enteredChunks : List Visit → List Chunk
  | [] => []
  | .enter chunk :: rest => chunk :: enteredChunks rest
  | .leave _ :: rest => enteredChunks rest

@[simp] theorem enteredChunks_enter (chunk : Chunk) (rest : List Visit) :
    enteredChunks (.enter chunk :: rest) = chunk :: enteredChunks rest := rfl

@[simp] theorem enteredChunks_leave (chunk : Chunk) (rest : List Visit) :
    enteredChunks (.leave chunk :: rest) = enteredChunks rest := rfl

@[simp] theorem enteredChunks_append (first rest : List Visit) :
    enteredChunks (first ++ rest) = enteredChunks first ++ enteredChunks rest := by
  induction first with
  | nil => rfl
  | cons visit first ih => cases visit <;> simp [ih]

/-- Every chunk of a template, at any depth, in the order of the text. -/
def Template.allChunks (t : Template) : List Chunk :=
  enteredChunks (visitsOf (fun _ => true) t.chunks)

end Stencil.Syntax
