import Stencil.Syntax.Operator
import Stencil.Text.Position
/-!
# Syntax trees

The trees of the scripting language (expressions, statements, functions) and of templates
(chunks). Every expression, statement and chunk may carry the span of text it was read from, as
its first field; nothing else depends on a span.

A list that may be absent is an `Option` of a list: an absent list, an empty list and a list of
one differ.
-/

set_option autoImplicit false

namespace Stencil.Syntax

open Stencil.Text (Span)

mutual

/-- Expressions. -/
inductive Expr where
  /-- A number literal. -/
  | num (span : Option Span) (value : Float)
  /-- A string literal. -/
  | string (span : Option Span) (text : String)
  /-- A name. -/
  | name (span : Option Span) (name : String)
  /-- One of the four constants. -/
  | atom (span : Option Span) (atom : Atom)
  /-- A regular expression literal. -/
  | regexp (span : Option Span) (pattern flags : String)
  /-- `[a, b]`. -/
  | array (span : Option Span) (items : List Expr)
  /-- `{key: value}`. -/
  | object (span : Option Span) (properties : List Property)
  /-- `target.property`. -/
  | dot (span : Option Span) (target : Expr) (property : String)
  /-- `target[index]`. -/
  | sub (span : Option Span) (target index : Expr)
  /-- `callee(args)`. -/
  | call (span : Option Span) (callee : Expr) (args : List Expr)
  /-- `new callee(args)`. -/
  | new (span : Option Span) (callee : Expr) (args : List Expr)
  /-- An operator before its operand. -/
  | prefixOp (span : Option Span) (op : UnaryOp) (operand : Expr)
  /-- An operator behind its operand. -/
  | postfixOp (span : Option Span) (op : UnaryOp) (operand : Expr)
  /-- `left op right`. -/
  | binary (span : Option Span) (op : BinaryOp) (left right : Expr)
  /-- `test ? yes : no`. -/
  | conditional (span : Option Span) (test yes no : Expr)
  /-- `target = value`, or `target op= value` where an operator is given. -/
  | assign (span : Option Span) (op : Option BinaryOp) (target value : Expr)
  /-- `first, rest`. -/
  | seq (span : Option Span) (first rest : Expr)
  /-- A function literal. -/
  | function (span : Option Span) (function : Function)

/-- Properties of an object literal. -/
inductive Property where
  /-- `key: value`. -/
  | init (key : String) (value : Expr)
  /-- `get key() {…}`. -/
  | getter (key : String) (function : Function)
  /-- `set key(value) {…}`. -/
  | setter (key : String) (function : Function)

/-- Functions: an optional name, parameters and a body. -/
inductive Function where
  | mk (name : Option String) (params : List String) (body : List Stmt)

/-- Statements. -/
inductive Stmt where
  /-- `{…}`, and the empty statement. -/
  | block (span : Option Span) (body : List Stmt)
  /-- An expression for its effect. -/
  | expression (span : Option Span) (value : Expr)
  /-- `var a = 1, b;`. -/
  | var (span : Option Span) (defs : List VarDef)
  /-- `const a = 1, b;`. -/
  | const (span : Option Span) (defs : List VarDef)
  /-- `if (condition) … else …`. -/
  | ifElse (span : Option Span) (condition : Expr) (thenBranch : Stmt) (elseBranch : Option Stmt)
  /-- `for (head; test; step) …`. -/
  | for (span : Option Span) (head : Option ForHead) (test step : Option Expr) (body : Stmt)
  /-- `for (head in object) …`. -/
  | forIn (span : Option Span) (head : ForHead) (object : Expr) (body : Stmt)
  /-- `while (condition) …`. -/
  | while (span : Option Span) (condition : Expr) (body : Stmt)
  /-- `do … while (condition);`. -/
  | doWhile (span : Option Span) (body : Stmt) (condition : Expr)
  /-- `switch (discriminant) {…}`. -/
  | switch (span : Option Span) (discriminant : Expr) (cases : List SwitchCase)
  /-- `try {…} catch (name) {…} finally {…}`. -/
  | tryCatch (span : Option Span) (body : List Stmt) (handler : Option Handler)
      (finalizer : Option (List Stmt))
  /-- A function declaration. -/
  | defun (span : Option Span) (function : Function)
  /-- `return value;`. -/
  | return (span : Option Span) (value : Option Expr)
  /-- `break label;`. -/
  | break (span : Option Span) (label : Option String)
  /-- `continue label;`. -/
  | continue (span : Option Span) (label : Option String)
  /-- `label: …`. -/
  | labelled (span : Option Span) (label : String) (body : Stmt)
  /-- `throw value;`. -/
  | throw (span : Option Span) (value : Expr)
  /-- `with (object) …`. -/
  | with (span : Option Span) (object : Expr) (body : Stmt)
  /-- `debugger;`. -/
  | debugger (span : Option Span)

/-- One variable of a declaration, with its initial value. -/
inductive VarDef where
  | mk (name : String) (value : Option Expr)

/-- What stands before the first separator in the head of a `for`. -/
inductive ForHead where
  /-- A declaration. -/
  | var (defs : List VarDef)
  /-- An expression. -/
  | expr (value : Expr)

/-- One branch of a `switch`; `default` has no test. -/
inductive SwitchCase where
  | mk (test : Option Expr) (body : List Stmt)

/-- The `catch` part of a `try`. -/
inductive Handler where
  | mk (name : String) (body : List Stmt)

end

mutual

/-- The parts of a template. -/
inductive Chunk where
  /-- Literal text. -/
  | html (span : Option Span) (text : String)
  /-- `${expr}`, escaped on output. -/
  | echo (span : Option Span) (value : Expr)
  /-- `{{tmpl(args) name}}`. -/
  | include (span : Option Span) (args : Option (List Expr)) (name : Expr)
  /-- `{{each(bindings) collection}} … {{/each}}`. -/
  | each (span : Option Span) (bindings : Option (List String)) (collection : Expr)
      (body : List Chunk)
  /-- `{{if a}} … {{else b}} … {{else}} … {{/if}}`. -/
  | ifElse (span : Option Span) (condition : Expr) (thenBranch : List Chunk)
      (elseIfs : List ElseIf) (elseBranch : Option (List Chunk))
  /-- `{{html expr}}`, written as it is. -/
  | rawHtml (span : Option Span) (value : Expr)
  /-- `{{layout expr}}`. -/
  | layout (span : Option Span) (name : Expr)
  /-- `{{var a = 1, b}}`. -/
  | var (span : Option Span) (defs : List VarDef)

/-- One conditional `{{else c}}` branch. -/
inductive ElseIf where
  | mk (condition : Expr) (body : List Chunk)

end

/-- A template is a sequence of chunks. -/
structure Template where
  chunks : List Chunk

/-- A script is a sequence of statements. -/
structure Program where
  body : List Stmt

namespace Expr

/-- The span of text the expression was read from. -/
def span : Expr → Option Span
  | num s _ | string s _ | name s _ | atom s _ | regexp s _ _ | array s _ | object s _
  | dot s _ _ | sub s _ _ | call s _ _ | new s _ _ | prefixOp s _ _ | postfixOp s _ _
  | binary s _ _ _ | conditional s _ _ _ | assign s _ _ _ | seq s _ _ | function s _ => s

end Expr

namespace Stmt

/-- The span of text the statement was read from. -/
def span : Stmt → Option Span
  | block s _ | expression s _ | var s _ | const s _ | ifElse s _ _ _ | .for s _ _ _ _
  | forIn s _ _ _ | .while s _ _ | doWhile s _ _ | switch s _ _ | tryCatch s _ _ _ | defun s _
  | .return s _ | .break s _ | .continue s _ | labelled s _ _ | throw s _ | .with s _ _
  | debugger s => s

end Stmt

namespace Chunk

/-- The span of text the chunk was read from. -/
def span : Chunk → Option Span
  | html s _ | echo s _ | .include s _ _ | each s _ _ _ | ifElse s _ _ _ _ | rawHtml s _
  | layout s _ | var s _ => s

/-- The name of the kind of chunk. -/
def kindName : Chunk → String
  | html .. => "html"
  | echo .. => "tmpl-echo"
  | .include .. => "tmpl"
  | each .. => "tmpl-each"
  | ifElse .. => "tmpl-if"
  | rawHtml .. => "tmpl-html"
  | layout .. => "tmpl-layout"
  | var .. => "tmpl-var"

end Chunk

/-- The names that an iteration binds when it lists none. -/
def defaultBindings : List String := ["$index", "$value", "$key"]

end Stencil.Syntax
