import Stencil.Syntax.Tree
/-!
# What templates do not allow

The language of expressions is wider than what a template may evaluate. A `Restriction` is the
reason why an expression is refused; it depends on the expression's outermost constructor only.
-/

set_option autoImplicit false

namespace Stencil

open Stencil.Syntax

/-- Why an expression may not stand in a template. -/
inductive Restriction where
  | strictEquality
  | strictInequality
  | bitwise (operator : String)
  | shift (operator : String)
  | operator (operator : String)
  | assignment
  | function
  | construction
  | sequence
  | regularExpression
deriving DecidableEq

namespace Restriction

/-- The wording of the reason. -/
def message : Restriction → String
  | strictEquality =>
    "'===' operator not allowed in templates. Note that '==' is 'strictly equals' (non-casting)."
  | strictInequality =>
    "'!==' operator not allowed in templates. " ++
      "Note that '!=' is 'strictly not equal' (non-casting)."
  | bitwise symbol => "bitwise operator '" ++ symbol ++ "' not allowed in templates"
  | shift symbol => "bit shift operator '" ++ symbol ++ "' not allowed in templates"
  | .operator symbol => "'" ++ symbol ++ "' operator not allowed in templates"
  | assignment => "assignment is not allowed within templates"
  | function => "functions are not allowed within templates"
  | construction => "'new' is not allowed within templates"
  | sequence => "comma expressions are not allowed within templates"
  | regularExpression => "regular expressions are not allowed within templates"

/-- The restriction on a binary operator. -/
def ofBinary (op : BinaryOp) : Option Restriction :=
  match op with
  | .strictEq => some strictEquality
  | .strictNe => some strictInequality
  | .bitAnd | .bitOr | .bitXor => some (bitwise op.spelling)
  | .shiftLeft | .shiftRight | .unsignedShiftRight => some (shift op.spelling)
  | .in | .instanceOf => some (.operator op.spelling)
  | _ => none

/-- The restriction on a unary operator. -/
def ofUnary (op : UnaryOp) : Option Restriction :=
  match op with
  | .increment | .decrement => some assignment
  | .bitNot => some (bitwise op.spelling)
  | .typeof | .void | .delete => some (.operator op.spelling)
  | .not | .neg | .plus => none

/-- The restriction on an expression, if there is one. -/
def of? : Expr → Option Restriction
  | .binary _ op _ _ => ofBinary op
  | .prefixOp _ op _ => ofUnary op
  | .postfixOp _ op _ => ofUnary op
  | .assign .. => some assignment
  | .function .. => some function
  | .new .. => some construction
  | .seq .. => some sequence
  | .regexp .. => some regularExpression
  | _ => none

end Restriction

end Stencil
