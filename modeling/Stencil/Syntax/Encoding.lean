import Stencil.Json.Basic
import Stencil.Number.Literal
import Stencil.Syntax.Tree
/-!
# Trees as JSON

Every node is an object with a member `kind`, an object whose single key names the kind, and a
member `span` if the node has one. Writing and reading are given a form for the numbers of the
tree, because a JSON number cannot be infinite. What is absent is written as null, so an absent
list and an empty one differ.
-/

set_option autoImplicit false

namespace Stencil.Syntax

open Stencil.Text (Position Span)

/-- How the numbers of a tree are written and read. -/
structure NumberForm where
  write : Float → Json
  read : Json → Option Float

namespace NumberForm

/-- Numbers as JSON numbers. -/
def plain : NumberForm where
  write := .number
  read
    | .number value => some value
    | .count value => some value.toFloat
    | _ => none

/-- Numbers as strings, which can hold every number. -/
def text : NumberForm where
  write value := .string (Number.exactStyle.write value)
  read json := json.text?.bind fun text => Number.Literal.signed? text.toList

end NumberForm

namespace Encoding

/-! ## Writing -/

/-- A position. -/
def ofPosition (p : Position) : Json :=
  .object [("byte", .count p.byte), ("line", .count p.line), ("col", .count p.column)]

/-- A span. -/
def ofSpan (s : Span) : Json :=
  .object [("start", ofPosition s.start), ("end", ofPosition s.stop)]

/-- An object with one member. -/
def tagged (tag : String) (body : Json) : Json := .object [(tag, body)]

/-- A node: its kind, and its span if it has one. -/
def node (span : Option Span) (kind : Json) : Json :=
  match span with
  | none => .object [("kind", kind)]
  | some s => .object [("kind", kind), ("span", ofSpan s)]

/-- A text that may be absent. -/
def ofText? (text : Option String) : Json :=
  Json.ofOption (text.map .string)

variable (form : NumberForm)

mutual

/-- An expression. -/
def ofExpr : Expr → Json
  | .num s value => node s (tagged "num" (form.write value))
  | .string s text => node s (tagged "string" (.string text))
  | .name s name => node s (tagged "name" (.string name))
  | .atom s atom => node s (tagged "atom" (.string atom.spelling))
  | .regexp s pattern flags =>
    node s (tagged "regexp" (.object [("pattern", .string pattern), ("flags", .string flags)]))
  | .array s items => node s (tagged "array" (.array (ofExprs items)))
  | .object s properties => node s (tagged "object" (.array (ofProperties properties)))
  | .dot s target property => node s (tagged "dot" (.array [ofExpr target, .string property]))
  | .sub s target index => node s (tagged "sub" (.array [ofExpr target, ofExpr index]))
  | .call s callee args => node s (tagged "call" (.array [ofExpr callee, .array (ofExprs args)]))
  | .new s callee args => node s (tagged "new" (.array [ofExpr callee, .array (ofExprs args)]))
  | .prefixOp s op operand =>
    node s (tagged "unary-prefix" (.array [.string op.spelling, ofExpr operand]))
  | .postfixOp s op operand =>
    node s (tagged "unary-postfix" (.array [.string op.spelling, ofExpr operand]))
  | .binary s op left right =>
    node s (tagged "binary" (.array [.string op.spelling, ofExpr left, ofExpr right]))
  | .conditional s test yes no =>
    node s (tagged "conditional" (.array [ofExpr test, ofExpr yes, ofExpr no]))
  | .assign s op target value =>
    node s (tagged "assign" (.array
      [ofText? (op.map BinaryOp.spelling), ofExpr target, ofExpr value]))
  | .seq s first rest => node s (tagged "seq" (.array [ofExpr first, ofExpr rest]))
  | .function s function => node s (tagged "function" (ofFunction function))

/-- Expressions. -/
def ofExprs : List Expr → List Json
  | [] => []
  | e :: rest => ofExpr e :: ofExprs rest

/-- A property of an object literal. -/
def ofProperty : Property → Json
  | .init key value => tagged "init" (.object [("key", .string key), ("value", ofExpr value)])
  | .getter key function =>
    tagged "get" (.object [("key", .string key), ("function", ofFunction function)])
  | .setter key function =>
    tagged "set" (.object [("key", .string key), ("function", ofFunction function)])

/-- Properties of an object literal. -/
def ofProperties : List Property → List Json
  | [] => []
  | p :: rest => ofProperty p :: ofProperties rest

/-- A function. -/
def ofFunction : Function → Json
  | .mk name params body =>
    .object
      [("name", ofText? name), ("params", .array (params.map .string)),
        ("body", .array (ofStmts body))]

/-- A statement. -/
def ofStmt : Stmt → Json
  | .block s body => node s (tagged "block" (.array (ofStmts body)))
  | .expression s value => node s (tagged "stat" (ofExpr value))
  | .var s defs => node s (tagged "var" (.array (ofVarDefs defs)))
  | .const s defs => node s (tagged "const" (.array (ofVarDefs defs)))
  | .ifElse s condition thenBranch elseBranch =>
    node s (tagged "if" (.object
      [("condition", ofExpr condition), ("then_branch", ofStmt thenBranch),
        ("else_branch",
          match elseBranch with
          | none => .null
          | some branch => ofStmt branch)]))
  | .for s head test step body =>
    node s (tagged "for" (.object
      [("init",
          match head with
          | none => .null
          | some head => ofForHead head),
        ("test", ofExpr? test), ("step", ofExpr? step), ("body", ofStmt body)]))
  | .forIn s head object body =>
    node s (tagged "for-in" (.object
      [("init", ofForHead head), ("object", ofExpr object), ("body", ofStmt body)]))
  | .while s condition body =>
    node s (tagged "while" (.object [("condition", ofExpr condition), ("body", ofStmt body)]))
  | .doWhile s body condition =>
    node s (tagged "do" (.object [("body", ofStmt body), ("condition", ofExpr condition)]))
  | .switch s discriminant cases =>
    node s (tagged "switch" (.object
      [("discriminant", ofExpr discriminant), ("cases", .array (ofCases cases))]))
  | .tryCatch s body handler finalizer =>
    node s (tagged "try" (.object
      [("body", .array (ofStmts body)),
        ("catch",
          match handler with
          | none => .null
          | some handler => ofHandler handler),
        ("finally",
          match finalizer with
          | none => .null
          | some body => .array (ofStmts body))]))
  | .defun s function => node s (tagged "defun" (ofFunction function))
  | .return s value => node s (tagged "return" (ofExpr? value))
  | .break s label => node s (tagged "break" (ofText? label))
  | .continue s label => node s (tagged "continue" (ofText? label))
  | .labelled s label body => node s (tagged "label" (.array [.string label, ofStmt body]))
  | .throw s value => node s (tagged "throw" (ofExpr value))
  | .with s object body => node s (tagged "with" (.array [ofExpr object, ofStmt body]))
  | .debugger s => node s (.string "debugger")

/-- Statements. -/
def ofStmts : List Stmt → List Json
  | [] => []
  | s :: rest => ofStmt s :: ofStmts rest

/-- An expression that may be absent. -/
def ofExpr? : Option Expr → Json
  | none => .null
  | some e => ofExpr e

/-- A variable of a declaration. -/
def ofVarDef : VarDef → Json
  | .mk name value => .object [("name", .string name), ("value", ofExpr? value)]

/-- Variables of a declaration. -/
def ofVarDefs : List VarDef → List Json
  | [] => []
  | d :: rest => ofVarDef d :: ofVarDefs rest

/-- The head of a loop. -/
def ofForHead : ForHead → Json
  | .var defs => tagged "var" (.array (ofVarDefs defs))
  | .expr value => tagged "expr" (ofExpr value)

/-- A branch of a switch. -/
def ofCase : SwitchCase → Json
  | .mk test body => .object [("test", ofExpr? test), ("body", .array (ofStmts body))]

/-- Branches of a switch. -/
def ofCases : List SwitchCase → List Json
  | [] => []
  | c :: rest => ofCase c :: ofCases rest

/-- The `catch` part of a `try`. -/
def ofHandler : Handler → Json
  | .mk name body => .array [.string name, .array (ofStmts body)]

end

mutual

/-- A chunk. -/
def ofChunk : Chunk → Json
  | .html s text => node s (tagged "html" (.string text))
  | .echo s value => node s (tagged "tmpl-echo" (ofExpr form value))
  | .include s args name =>
    node s (tagged "tmpl" (.object
      [("args", Json.ofOption (args.map fun args => .array (ofExprs form args))),
        ("name", ofExpr form name)]))
  | .each s bindings collection body =>
    node s (tagged "tmpl-each" (.object
      [("bindings", Json.ofOption (bindings.map fun names => .array (names.map .string))),
        ("collection", ofExpr form collection), ("body", .array (ofChunks body))]))
  | .ifElse s condition thenBranch elseIfs elseBranch =>
    node s (tagged "tmpl-if" (.object
      [("condition", ofExpr form condition), ("then_branch", .array (ofChunks thenBranch)),
        ("elif_branches", .array (ofElseIfs elseIfs)),
        ("else_branch",
          match elseBranch with
          | none => .null
          | some branch => .array (ofChunks branch))]))
  | .rawHtml s value => node s (tagged "tmpl-html" (ofExpr form value))
  | .layout s name => node s (tagged "tmpl-layout" (ofExpr form name))
  | .var s defs => node s (tagged "tmpl-var" (.array (ofVarDefs form defs)))

/-- Chunks. -/
def ofChunks : List Chunk → List Json
  | [] => []
  | c :: rest => ofChunk c :: ofChunks rest

/-- A conditional `{{else}}` branch. -/
def ofElseIf : ElseIf → Json
  | .mk condition body => .array [ofExpr form condition, .array (ofChunks body)]

/-- Conditional `{{else}}` branches. -/
def ofElseIfs : List ElseIf → List Json
  | [] => []
  | b :: rest => ofElseIf b :: ofElseIfs rest

end

/-- A template. -/
def ofTemplate (t : Template) : Json :=
  .object [("chunks", .array (ofChunks form t.chunks))]

/-- A script. -/
def ofProgram (p : Program) : Json :=
  .object [("body", .array (ofStmts form p.body))]

/-! ## Reading -/

/-- Reads a position. -/
def toPosition (json : Json) : Option Position := do
  return ⟨← (← json.member? "byte").count?, ← (← json.member? "line").count?,
    ← (← json.member? "col").count?⟩

/-- Reads a span. -/
def toSpan (json : Json) : Option Span := do
  return ⟨← toPosition (← json.member? "start"), ← toPosition (← json.member? "end")⟩

/-- Reads the span of a node, which may be absent. -/
def spanOf (json : Json) : Option (Option Span) :=
  (json.member "span").option? toSpan

/-- Reads the kind of a node: its name and what belongs to it. -/
def kindOf (json : Json) : Option (String × Json) :=
  match json.member? "kind" with
  | some (.object [(tag, body)]) => some (tag, body)
  | some (.string tag) => some (tag, .null)
  | _ => none

/-- Reads a list. -/
def toList {α : Type} (read : Json → Option α) (json : Json) : Option (List α) :=
  json.items?.bind fun items => items.mapM read

/-- Reads a member of an object. -/
def part {α : Type} (json : Json) (key : String) (read : Json → Option α) : Option α :=
  read (json.member key)

/-- Reads the operator of an assignment: null for a plain one. -/
def toAssignment (json : Json) : Option (Option BinaryOp) :=
  json.option? fun op => op.text?.bind BinaryOp.ofSpelling?

mutual

/-- Reads an expression. The first argument bounds the depth. -/
def toExpr : Nat → Json → Option Expr
  | 0, _ => none
  | n + 1, json => do
    let s ← spanOf json
    match ← kindOf json with
    | ("num", value) => return .num s (← form.read value)
    | ("string", .string text) => return .string s text
    | ("name", .string name) => return .name s name
    | ("atom", .string word) => return .atom s (← Atom.ofSpelling? word)
    | ("regexp", body) =>
      return .regexp s (← part body "pattern" Json.text?) (← part body "flags" Json.text?)
    | ("array", items) => return .array s (← toList (toExpr n) items)
    | ("object", properties) => return .object s (← toList (toProperty n) properties)
    | ("dot", .array [target, .string property]) => return .dot s (← toExpr n target) property
    | ("sub", .array [target, index]) => return .sub s (← toExpr n target) (← toExpr n index)
    | ("call", .array [callee, args]) =>
      return .call s (← toExpr n callee) (← toList (toExpr n) args)
    | ("new", .array [callee, args]) =>
      return .new s (← toExpr n callee) (← toList (toExpr n) args)
    | ("unary-prefix", .array [.string op, operand]) =>
      return .prefixOp s (← UnaryOp.before? op) (← toExpr n operand)
    | ("unary-postfix", .array [.string op, operand]) =>
      return .postfixOp s (← UnaryOp.before? op) (← toExpr n operand)
    | ("binary", .array [.string op, left, right]) =>
      return .binary s (← BinaryOp.ofSpelling? op) (← toExpr n left) (← toExpr n right)
    | ("conditional", .array [test, yes, no]) =>
      return .conditional s (← toExpr n test) (← toExpr n yes) (← toExpr n no)
    | ("assign", .array [op, target, value]) =>
      return .assign s (← toAssignment op) (← toExpr n target) (← toExpr n value)
    | ("seq", .array [first, rest]) => return .seq s (← toExpr n first) (← toExpr n rest)
    | ("function", function) => return .function s (← toFunction n function)
    | _ => none

/-- Reads a property of an object literal. -/
def toProperty : Nat → Json → Option Property
  | 0, _ => none
  | n + 1, json =>
    match json with
    | .object [("init", body)] =>
      return .init (← part body "key" Json.text?) (← part body "value" (toExpr n))
    | .object [("get", body)] =>
      return .getter (← part body "key" Json.text?) (← part body "function" (toFunction n))
    | .object [("set", body)] =>
      return .setter (← part body "key" Json.text?) (← part body "function" (toFunction n))
    | _ => none

/-- Reads a function. -/
def toFunction : Nat → Json → Option Function
  | 0, _ => none
  | n + 1, json => do
    return .mk (← part json "name" (Json.option? Json.text?))
      (← part json "params" (toList Json.text?)) (← part json "body" (toList (toStmt n)))

/-- Reads a statement. -/
def toStmt : Nat → Json → Option Stmt
  | 0, _ => none
  | n + 1, json => do
    let s ← spanOf json
    match ← kindOf json with
    | ("block", body) => return .block s (← toList (toStmt n) body)
    | ("stat", value) => return .expression s (← toExpr n value)
    | ("var", defs) => return .var s (← toList (toVarDef n) defs)
    | ("const", defs) => return .const s (← toList (toVarDef n) defs)
    | ("if", body) =>
      return .ifElse s (← part body "condition" (toExpr n))
        (← part body "then_branch" (toStmt n))
        (← part body "else_branch" (Json.option? (toStmt n)))
    | ("for", body) =>
      return .for s (← part body "init" (Json.option? (toForHead n)))
        (← part body "test" (Json.option? (toExpr n)))
        (← part body "step" (Json.option? (toExpr n))) (← part body "body" (toStmt n))
    | ("for-in", body) =>
      return .forIn s (← part body "init" (toForHead n)) (← part body "object" (toExpr n))
        (← part body "body" (toStmt n))
    | ("while", body) =>
      return .while s (← part body "condition" (toExpr n)) (← part body "body" (toStmt n))
    | ("do", body) =>
      return .doWhile s (← part body "body" (toStmt n)) (← part body "condition" (toExpr n))
    | ("switch", body) =>
      return .switch s (← part body "discriminant" (toExpr n))
        (← part body "cases" (toList (toCase n)))
    | ("try", body) =>
      return .tryCatch s (← part body "body" (toList (toStmt n)))
        (← part body "catch" (Json.option? (toHandler n)))
        (← part body "finally" (Json.option? (toList (toStmt n))))
    | ("defun", function) => return .defun s (← toFunction n function)
    | ("return", value) => return .return s (← value.option? (toExpr n))
    | ("break", label) => return .break s (← label.option? Json.text?)
    | ("continue", label) => return .continue s (← label.option? Json.text?)
    | ("label", .array [.string label, body]) => return .labelled s label (← toStmt n body)
    | ("throw", value) => return .throw s (← toExpr n value)
    | ("with", .array [object, body]) => return .with s (← toExpr n object) (← toStmt n body)
    | ("debugger", _) => return .debugger s
    | _ => none

/-- Reads a variable of a declaration. -/
def toVarDef : Nat → Json → Option VarDef
  | 0, _ => none
  | n + 1, json => do
    return .mk (← part json "name" Json.text?) (← part json "value" (Json.option? (toExpr n)))

/-- Reads the head of a loop. -/
def toForHead : Nat → Json → Option ForHead
  | 0, _ => none
  | n + 1, json =>
    match json with
    | .object [("var", defs)] => return .var (← toList (toVarDef n) defs)
    | .object [("expr", value)] => return .expr (← toExpr n value)
    | _ => none

/-- Reads a branch of a switch. -/
def toCase : Nat → Json → Option SwitchCase
  | 0, _ => none
  | n + 1, json => do
    return .mk (← part json "test" (Json.option? (toExpr n)))
      (← part json "body" (toList (toStmt n)))

/-- Reads the `catch` part of a `try`. -/
def toHandler : Nat → Json → Option Handler
  | 0, _ => none
  | n + 1, json =>
    match json with
    | .array [.string name, body] => return .mk name (← toList (toStmt n) body)
    | _ => none

end

mutual

/-- Reads a chunk. The first argument bounds the depth. -/
def toChunk : Nat → Json → Option Chunk
  | 0, _ => none
  | n + 1, json => do
    let s ← spanOf json
    match ← kindOf json with
    | ("html", .string text) => return .html s text
    | ("tmpl-echo", value) => return .echo s (← toExpr form n value)
    | ("tmpl", body) =>
      return .include s (← part body "args" (Json.option? (toList (toExpr form n))))
        (← part body "name" (toExpr form n))
    | ("tmpl-each", body) =>
      return .each s (← part body "bindings" (Json.option? (toList Json.text?)))
        (← part body "collection" (toExpr form n)) (← part body "body" (toList (toChunk n)))
    | ("tmpl-if", body) =>
      return .ifElse s (← part body "condition" (toExpr form n))
        (← part body "then_branch" (toList (toChunk n)))
        (← part body "elif_branches" (toList (toElseIf n)))
        (← part body "else_branch" (Json.option? (toList (toChunk n))))
    | ("tmpl-html", value) => return .rawHtml s (← toExpr form n value)
    | ("tmpl-layout", name) => return .layout s (← toExpr form n name)
    | ("tmpl-var", defs) => return .var s (← toList (toVarDef form n) defs)
    | _ => none

/-- Reads a conditional `{{else}}` branch. -/
def toElseIf : Nat → Json → Option ElseIf
  | 0, _ => none
  | n + 1, json =>
    match json with
    | .array [condition, body] =>
      return .mk (← toExpr form n condition) (← toList (toChunk n) body)
    | _ => none

end

/-- Reads a template. -/
def toTemplate (json : Json) : Option Template := do
  return ⟨← part json "chunks" (toList (toChunk form (json.depth + 1)))⟩

/-- Reads a script. -/
def toProgram (json : Json) : Option Program := do
  return ⟨← part json "body" (toList (toStmt form (json.depth + 1)))⟩

/-- Reads a single expression. -/
def toSingleExpr (json : Json) : Option Expr :=
  toExpr form (json.depth + 1) json

end Encoding

end Stencil.Syntax
