import Stencil.Grammar.Rules
import Stencil.Number.Text
/-!
# The grammar of expressions

Binary operators are read by climbing their precedence: `operators` folds every operator that
binds tighter than a bound into its left operand, and reads each right operand with the
operator's own precedence as the bound. So operators of one precedence group to the left.
-/

set_option autoImplicit false

namespace Stencil.Grammar

open Stencil.Text (Position)
open Stencil.Syntax

namespace Parser

/-- Whether the expression may be assigned to. Only strict parsing asks. -/
def isAssignable (strict : Bool) : Expr → Bool
  | .dot .. | .sub .. | .new .. | .call .. => true
  | .name _ name => !strict || name ≠ "this"
  | _ => !strict

/-- Reads a property name behind a point: names, reserved words and constants. -/
def anyName : Parser String := do
  match ← currentKind with
  | .name word => advance; return word
  | .keyword word => advance; return word.spelling
  | .atom word => advance; return word.spelling
  | .operator word => if wordOperators.contains word then advance; return word else unexpected
  | _ => unexpected

/-- Reads the key of a property: also numbers and strings. -/
def propertyKey : Parser String := do
  match ← currentKind with
  | .num value => advance; return Number.toText value
  | .string text => advance; return text
  | _ => anyName

/-- Reads a name that is not reserved. -/
def plainName : Parser String := do
  match ← currentKind with
  | .name word => advance; return word
  | _ => unexpected

/-- Reads expressions separated by commas up to the closing punctuation, and consumes it. A
comma may stand before the closing punctuation if `trailing`, and an expression may be missing
before a comma if `gaps`: then it is the constant `undefined`. -/
def expressionList (rules : Rules) (closing : Char) (trailing gaps : Bool) :
    Parser (List Expr) := do
  let items ← loop (fun (items : List Expr) => do
    if ← atPunctuation closing then return .inr items
    if !items.isEmpty then expectPunctuation ','
    if trailing && (← atPunctuation closing) then return .inr items
    if gaps && (← atPunctuation ',') then return .inl (items ++ [.atom none .undefined])
    return .inl (items ++ [← rules.expression false false])) []
  advance
  return items

/-- Reads a block of statements in braces. -/
def block (rules : Rules) (around : Surroundings) : Parser (List Stmt) := do
  expectPunctuation '\x7b'
  let body ← loop (fun (body : List Stmt) => do
    if ← atPunctuation '\x7d' then return .inr body
    if (← current).isEof then unexpected
    return .inl (body ++ [← rules.statement around])) []
  advance
  return body

/-- Reads the parameters of a function, from behind the opening parenthesis. -/
def parameters : Parser (List String) := do
  let names ← loop (fun (names : List String) => do
    if ← atPunctuation ')' then return .inr names
    if !names.isEmpty then expectPunctuation ','
    return .inl (names ++ [← plainName])) []
  advance
  return names

/-- Reads a function from behind its keyword. A declaration must have a name. -/
def function (rules : Rules) (declaration : Bool) : Parser Function := do
  let name ←
    match ← currentKind with
    | .name word => do advance; pure (some word)
    | _ => if declaration then unexpected else pure none
  expectPunctuation '('
  let names ← parameters
  return .mk name names (← block rules .ofFunction)

/-- Reads one property of an object literal. -/
def property (rules : Rules) : Parser Property := do
  let kind ← currentKind
  let key ← propertyKey
  let colon ← atPunctuation ':'
  match kind, colon with
  | .name "get", false => let key ← anyName; return .getter key (← function rules false)
  | .name "set", false => let key ← anyName; return .setter key (← function rules false)
  | _, _ =>
    expectPunctuation ':'
    return .init key (← rules.expression false false)

/-- Reads the properties of an object literal, from behind the opening brace. -/
def objectBody (rules : Rules) : Parser (List Property) := do
  let strict := (← read).strict
  let properties ← loop (fun (properties : List Property) => do
    if ← atPunctuation '\x7d' then return .inr properties
    if !properties.isEmpty then expectPunctuation ','
    if !strict && (← atPunctuation '\x7d') then return .inr properties
    return .inl (properties ++ [← property rules])) []
  advance
  return properties

/-- Reads member accesses, and calls if they are allowed, behind an operand. -/
def subscripts (rules : Rules) (operand : Expr) (start : Position) (calls : Bool) :
    Parser Expr :=
  loop (fun (operand : Expr) => do
    if ← atPunctuation '.' then
      advance
      let name ← anyName
      return .inl (.dot (← spanFrom start) operand name)
    else if ← atPunctuation '[' then
      advance
      let index ← rules.expression true false
      expectPunctuation ']'
      return .inl (.sub (← spanFrom start) operand index)
    else if calls && (← atPunctuation '(') then
      advance
      let args ← expressionList rules ')' false false
      return .inl (.call (← spanFrom start) operand args)
    else return .inr operand) operand

/-- Reads a `new` expression from behind the operator. -/
def newExpression (rules : Rules) (start : Position) : Parser Expr := do
  let callee ← rules.primary false
  let args ←
    if ← atPunctuation '(' then do
      advance
      expressionList rules ')' false false
    else pure []
  subscripts rules (.new (← spanFrom start) callee args) start true

/-- Reads an operand that is not in parentheses and no `new` expression. -/
def atom (rules : Rules) (start : Position) : Parser Expr := do
  match ← currentKind with
  | .punctuation '[' =>
    advance
    let items ← expressionList rules ']' (!(← read).strict) true
    return .array (← spanFrom start) items
  | .punctuation '\x7b' =>
    advance
    let properties ← objectBody rules
    return .object (← spanFrom start) properties
  | .keyword .function =>
    advance
    let fn ← function rules false
    return .function (← spanFrom start) fn
  | .num value => advance; return .num (← spanFrom start) value
  | .string text => advance; return .string (← spanFrom start) text
  | .name word => advance; return .name (← spanFrom start) word
  | .atom word => advance; return .atom (← spanFrom start) word
  | .regexp pattern flags => advance; return .regexp (← spanFrom start) pattern flags
  | _ => unexpected

/-- Reads an operand with its member accesses, and its calls if they are allowed. -/
def primary (rules : Rules) (calls : Bool) : Parser Expr := do
  let start ← startOfToken
  if ← atOperator "new" then
    advance
    newExpression rules start
  else if ← atPunctuation '(' then
    advance
    let inner ← rules.expression true false
    expectPunctuation ')'
    subscripts rules inner start calls
  else
    subscripts rules (← atom rules start) start calls

/-- Refuses an update of what cannot be assigned. -/
def checkUpdate (op : UnaryOp) (operand : Expr) : Parser Unit := do
  if op.isUpdate && !isAssignable (← read).strict operand then
    faultHere (.badUpdate op.spelling)

/-- The unary operator that the current token may be before its operand. -/
def operatorBefore : TokenKind → Option UnaryOp
  | .operator symbol => UnaryOp.before? symbol
  | _ => none

/-- The unary operator that a token on the same line may be behind its operand. -/
def operatorBehind (token : Token) : Option UnaryOp :=
  match token.kind with
  | .operator symbol => if token.afterBreak then none else UnaryOp.behind? symbol
  | _ => none

/-- Reads an operand with the unary operators before and behind it. -/
def unary (rules : Rules) (calls : Bool) : Parser Expr := do
  let start ← startOfToken
  match operatorBefore (← currentKind) with
  | some op =>
    advance
    let operand ← rules.unary calls
    checkUpdate op operand
    return .prefixOp (← spanFrom start) op operand
  | none =>
    let operand ← primary rules calls
    loop (fun (operand : Expr) => do
      match operatorBehind (← current) with
      | some op =>
        advance
        checkUpdate op operand
        return .inl (.postfixOp (← spanFrom start) op operand)
      | none => return .inr operand) operand

/-- The binary operator that a token may be; in the head of a loop `in` is none. -/
def binaryOperator (noIn : Bool) : TokenKind → Option BinaryOp
  | .operator symbol => if noIn && symbol = "in" then none else BinaryOp.ofSpelling? symbol
  | _ => none

/-- Reads binary operators that bind tighter than the bound, behind a left operand. -/
def operators (rules : Rules) (left : Expr) (start : Position) (bound : Nat) (noIn : Bool) :
    Parser Expr := do
  match binaryOperator noIn (← currentKind) with
  | none => return left
  | some op =>
    if op.precedence ≤ bound then return left
    else
      advance
      let rightStart ← startOfToken
      let operand ← unary rules true
      let right ← rules.operators operand rightStart op.precedence noIn
      rules.operators (.binary (← spanFrom start) op left right) start bound noIn

/-- Reads a conditional expression or what binds tighter. -/
def conditional (rules : Rules) (noIn : Bool) : Parser Expr := do
  let start ← startOfToken
  let test ← operators rules (← unary rules true) start 0 noIn
  if ← atOperator "?" then
    advance
    let yes ← rules.expression false false
    expectPunctuation ':'
    let no ← rules.expression false noIn
    return .conditional (← spanFrom start) test yes no
  else return test

/-- The assignment that a token may be: `some none` for a plain one. -/
def assignmentOperator : TokenKind → Option (Option BinaryOp)
  | .operator symbol => if symbol = "=" then some none else (BinaryOp.ofAssignment? symbol).map some
  | _ => none

/-- Reads an assignment or what binds tighter. Assignments group to the right. -/
def assignment (rules : Rules) (noIn : Bool) : Parser Expr := do
  let start ← startOfToken
  let target ← conditional rules noIn
  match assignmentOperator (← currentKind) with
  | none => return target
  | some op =>
    if !isAssignable (← read).strict target then faultHere .badAssignment
    advance
    let value ← rules.assignment noIn
    return .assign (← spanFrom start) op target value

/-- Reads an expression, and with `commas` a sequence of several. -/
def expression (rules : Rules) (commas noIn : Bool) : Parser Expr := do
  let start ← startOfToken
  let first ← assignment rules noIn
  if commas && (← atPunctuation ',') then
    advance
    let rest ← rules.expression true noIn
    return .seq (← spanFrom start) first rest
  else return first

/-- Reads variables of a declaration, separated by commas. -/
def definitions (rules : Rules) (noIn : Bool) : Parser (List VarDef) :=
  loop (fun (defs : List VarDef) => do
    let name ← plainName
    let value ←
      if ← atOperator "=" then do
        advance
        pure (some (← rules.expression false noIn))
      else pure none
    let defs := defs ++ [.mk name value]
    if ← atPunctuation ',' then
      advance
      return .inl defs
    else return .inr defs) []

/-- Reads an expression in parentheses. -/
def parenthesised (rules : Rules) : Parser Expr := do
  expectPunctuation '('
  let value ← rules.expression true false
  expectPunctuation ')'
  return value

end Parser

end Stencil.Grammar
