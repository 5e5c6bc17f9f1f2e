import Stencil.Grammar.Expression
/-!
# The grammar of statements

Jumps are checked against the surroundings in which a statement is read: a `return` needs a
function around it, a `break` or `continue` a loop or switch, and a jump with a label a statement
that has it. A function starts afresh.
-/

set_option autoImplicit false

namespace Stencil.Grammar

open Stencil.Error (Fault ParseError)
open Stencil.Text (Position Span)
open Stencil.Syntax

namespace Parser

/-- Reads an expression statement. -/
def expressionStatement (rules : Rules) (start : Position) : Parser Stmt := do
  let value ← expression rules true false
  semicolon
  return .expression (← spanFrom start) value

/-- Reads the label of a jump, if one follows on the same line, and checks the jump. -/
def jumpTarget (around : Surroundings) (keyword : Keyword) : Parser (Option String) := do
  let omitted ← mayOmitSemicolon
  let label ←
    match ← currentKind, omitted with
    | .name label, false => do
      advance
      if !around.labels.contains label then faultHere (.unknownLabel label)
      pure (some label)
    | _, _ =>
      if !around.inLoop then faultHere (.jumpOutside keyword.spelling)
      pure none
  semicolon
  return label

/-- Reads a statement behind its label. -/
def labelledStatement (rules : Rules) (around : Surroundings) (start : Position)
    (label : String) : Parser Stmt := do
  if around.labels.contains label then faultHere (.repeatedLabel label)
  let body ← rules.statement (around.labelled label)
  return .labelled (← spanFrom start) label body

/-- Reads a `do` loop from behind its keyword. -/
def doStatement (rules : Rules) (around : Surroundings) (start : Position) : Parser Stmt := do
  let body ← rules.statement around.looping
  if !(← atKeyword .while) then expected "keyword (while)"
  advance
  let condition ← parenthesised rules
  semicolon
  return .doWhile (← spanFrom start) body condition

/-- Reads an optional expression that ends before the given punctuation. -/
def optionalBefore (rules : Rules) (closing : Char) : Parser (Option Expr) := do
  if ← atPunctuation closing then return none
  else return some (← rules.expression true false)

/-- Reads a `for` loop over conditions, from before the first separator of its head. -/
def conditionalFor (rules : Rules) (around : Surroundings) (start : Position)
    (head : Option ForHead) : Parser Stmt := do
  expectPunctuation ';'
  let test ← optionalBefore rules ';'
  expectPunctuation ';'
  let step ← optionalBefore rules ')'
  expectPunctuation ')'
  let body ← rules.statement around.looping
  return .for (← spanFrom start) head test step body

/-- Reads a `for` loop over the keys of an object, from the `in` of its head. -/
def iteratingFor (rules : Rules) (around : Surroundings) (start : Position)
    (head : ForHead) : Parser Stmt := do
  match head with
  | .var (_ :: _ :: _) => faultHere .severalLoopVariables
  | _ => pure ()
  advance
  let object ← rules.expression true false
  expectPunctuation ')'
  let body ← rules.statement around.looping
  return .forIn (← spanFrom start) head object body

/-- Reads a `for` loop from behind its keyword. -/
def forStatement (rules : Rules) (around : Surroundings) (start : Position) : Parser Stmt := do
  expectPunctuation '('
  let head ←
    if ← atPunctuation ';' then pure none
    else if ← atKeyword .var then do
      advance
      pure (some (ForHead.var (← definitions rules true)))
    else pure (some (ForHead.expr (← rules.expression true true)))
  match head with
  | none => conditionalFor rules around start none
  | some head =>
    if ← atOperator "in" then iteratingFor rules around start head
    else conditionalFor rules around start (some head)

/-- Reads an `if` statement from behind its keyword. -/
def ifStatement (rules : Rules) (around : Surroundings) (start : Position) : Parser Stmt := do
  let condition ← parenthesised rules
  let thenBranch ← rules.statement around
  let elseBranch ←
    if ← atKeyword .else then do
      advance
      pure (some (← rules.statement around))
    else pure none
  return .ifElse (← spanFrom start) condition thenBranch elseBranch

/-- Reads a `return` statement from behind its keyword. -/
def returnStatement (rules : Rules) (around : Surroundings) (start : Position) : Parser Stmt := do
  if !around.inFunction then faultHere .returnOutside
  let value ←
    if ← atPunctuation ';' then do
      advance
      pure none
    else if ← mayOmitSemicolon then pure none
    else do
      let value ← rules.expression true false
      semicolon
      pure (some value)
  return .return (← spanFrom start) value

/-- Adds a statement to the last branch of a switch. -/
def addToLast (statement : Stmt) : List SwitchCase → List SwitchCase
  | [] => []
  | [.mk test body] => [.mk test (body ++ [statement])]
  | first :: rest => first :: addToLast statement rest

/-- Reads a `switch` statement from behind its keyword. -/
def switchStatement (rules : Rules) (around : Surroundings) (start : Position) : Parser Stmt := do
  let discriminant ← parenthesised rules
  expectPunctuation '\x7b'
  let cases ← loop (fun (cases : List SwitchCase) => do
    if ← atPunctuation '\x7d' then return .inr cases
    if ← atKeyword .case then
      advance
      let test ← rules.expression true false
      expectPunctuation ':'
      return .inl (cases ++ [.mk (some test) []])
    if ← atKeyword .default then
      advance
      expectPunctuation ':'
      return .inl (cases ++ [.mk none []])
    if cases.isEmpty then unexpected
    let statement ← rules.statement around.looping
    return .inl (addToLast statement cases)) []
  advance
  return .switch (← spanFrom start) discriminant cases

/-- Reads a `try` statement from behind its keyword. -/
def tryStatement (rules : Rules) (around : Surroundings) (start : Position) : Parser Stmt := do
  let body ← block rules around
  let handler ←
    if ← atKeyword .catch then do
      advance
      expectPunctuation '('
      let name ← plainName
      expectPunctuation ')'
      pure (some (Handler.mk name (← block rules around)))
    else pure none
  let finalizer ←
    if ← atKeyword .finally then do
      advance
      pure (some (← block rules around))
    else pure none
  if handler.isNone && finalizer.isNone then faultHere .bareTry
  return .tryCatch (← spanFrom start) body handler finalizer

/-- Reads a `throw` statement from behind its keyword: its value must be on the same line. -/
def throwStatement (rules : Rules) (start : Position) : Parser Stmt := do
  if (← current).afterBreak then faultHere .brokenThrow
  let value ← rules.expression true false
  semicolon
  return .throw (← spanFrom start) value

/-- Whether a statement may begin with the keyword. -/
def beginsStatement : Keyword → Bool
  | .case | .catch | .default | .else | .finally => false
  | _ => true

/-- Reads a statement from behind the keyword it begins with. -/
def keywordStatement (rules : Rules) (around : Surroundings) (start : Position) :
    Keyword → Parser Stmt
  | .break => do
    let label ← jumpTarget around .break
    return .break (← spanFrom start) label
  | .continue => do
    let label ← jumpTarget around .continue
    return .continue (← spanFrom start) label
  | .debugger => do
    semicolon
    return .debugger (← spanFrom start)
  | .do => doStatement rules around start
  | .for => forStatement rules around start
  | .function => do
    let fn ← function rules true
    return .defun (← spanFrom start) fn
  | .if => ifStatement rules around start
  | .return => returnStatement rules around start
  | .switch => switchStatement rules around start
  | .throw => throwStatement rules start
  | .try => tryStatement rules around start
  | .var => do
    let defs ← definitions rules false
    semicolon
    return .var (← spanFrom start) defs
  | .const => do
    let defs ← definitions rules false
    semicolon
    return .const (← spanFrom start) defs
  | .while => do
    let condition ← parenthesised rules
    let body ← rules.statement around.looping
    return .while (← spanFrom start) condition body
  | .with => do
    let object ← parenthesised rules
    let body ← rules.statement around
    return .with (← spanFrom start) object body
  | .case | .catch | .default | .else | .finally => unexpected

/-- Reads a statement. A slash at its beginning begins a regular expression. -/
def statement (rules : Rules) (around : Surroundings) : Parser Stmt := do
  if (← atOperator "/") || (← atOperator "/=") then rereadRegexp
  let start ← startOfToken
  match ← currentKind with
  | .name label =>
    if (← following).isPunctuation ':' then
      advance
      advance
      labelledStatement rules around start label
    else expressionStatement rules start
  | .num _ | .string _ | .regexp .. | .atom _ | .operator _ | .punctuation '[' | .punctuation '(' =>
    expressionStatement rules start
  | .punctuation '\x7b' =>
    let body ← block rules around
    return .block (← spanFrom start) body
  | .punctuation ';' =>
    advance
    return .block (← spanFrom start) []
  | .keyword keyword =>
    if beginsStatement keyword then
      advance
      keywordStatement rules around start keyword
    else unexpected
  | _ => unexpected

/-- Reads statements to the end of the text. -/
def program (rules : Rules) : Parser Program := do
  let body ← loop (fun (body : List Stmt) => do
    if (← current).isEof then return .inr body
    return .inl (body ++ [← statement rules .outermost])) []
  return ⟨body⟩

end Parser

end Stencil.Grammar
