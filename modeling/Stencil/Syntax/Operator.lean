/-!
# Operators and constants

The binary and unary operators of the scripting language and its four constants, each with its
spelling. Reading a spelling is search in the list of all operators, so a spelling is read back
as the operator it was written for (`BinaryOp.ofSpelling?_spelling`).
-/

set_option autoImplicit false

namespace Stencil.Syntax

/-- Binary operators. -/
inductive BinaryOp where
  | or | and | bitOr | bitXor | bitAnd
  | eq | strictEq | ne | strictNe
  | lt | gt | le | ge | in | instanceOf
  | shiftRight | shiftLeft | unsignedShiftRight
  | add | sub | mul | div | mod
deriving DecidableEq

namespace BinaryOp

/-- Every binary operator. -/
def all : List BinaryOp :=
  [.or, .and, .bitOr, .bitXor, .bitAnd, .eq, .strictEq, .ne, .strictNe, .lt, .gt, .le, .ge, .in,
    .instanceOf, .shiftRight, .shiftLeft, .unsignedShiftRight, .add, .sub, .mul, .div, .mod]

/-- How the operator is written. -/
def spelling : BinaryOp → String
  | .or => "||"
  | .and => "&&"
  | .bitOr => "|"
  | .bitXor => "^"
  | .bitAnd => "&"
  | .eq => "=="
  | .strictEq => "==="
  | .ne => "!="
  | .strictNe => "!=="
  | .lt => "<"
  | .gt => ">"
  | .le => "<="
  | .ge => ">="
  | .in => "in"
  | .instanceOf => "instanceof"
  | .shiftRight => ">>"
  | .shiftLeft => "<<"
  | .unsignedShiftRight => ">>>"
  | .add => "+"
  | .sub => "-"
  | .mul => "*"
  | .div => "/"
  | .mod => "%"

/-- The operator with the given spelling. -/
def ofSpelling? (text : String) : Option BinaryOp :=
  all.find? fun op => op.spelling = text

/-- How strongly the operator binds, from 1 for `||` to 10 for the multiplicative ones. -/
def precedence : BinaryOp → Nat
  | .or => 1
  | .and => 2
  | .bitOr => 3
  | .bitXor => 4
  | .bitAnd => 5
  | .eq | .strictEq | .ne | .strictNe => 6
  | .lt | .gt | .le | .ge | .in | .instanceOf => 7
  | .shiftRight | .shiftLeft | .unsignedShiftRight => 8
  | .add | .sub => 9
  | .mul | .div | .mod => 10

/-- Whether the operator has a compound assignment. -/
def isCompound : BinaryOp → Bool
  | .add | .sub | .mul | .div | .mod | .shiftRight | .shiftLeft | .unsignedShiftRight
  | .bitOr | .bitXor | .bitAnd => true
  | _ => false

/-- The operator of a compound assignment with the given spelling, such as `+=`. -/
def ofAssignment? (text : String) : Option BinaryOp :=
  all.find? fun op => op.isCompound && op.spelling ++ "=" = text

theorem mem_all (op : BinaryOp) : op ∈ all := by cases op <;> decide

/-- Every operator is read back from its spelling. -/
theorem ofSpelling?_spelling (op : BinaryOp) : ofSpelling? op.spelling = some op := by
  cases op <;> decide

/-- Every operator binds with a strength from 1 to 10. -/
theorem precedence_bounds (op : BinaryOp) : 1 ≤ op.precedence ∧ op.precedence ≤ 10 := by
  cases op <;> decide

end BinaryOp

/-- Operators with one operand. -/
inductive UnaryOp where
  | typeof | void | delete | decrement | increment | not | bitNot | neg | plus
deriving DecidableEq

namespace UnaryOp

/-- Every unary operator. -/
def all : List UnaryOp :=
  [.typeof, .void, .delete, .decrement, .increment, .not, .bitNot, .neg, .plus]

/-- How the operator is written. -/
def spelling : UnaryOp → String
  | .typeof => "typeof"
  | .void => "void"
  | .delete => "delete"
  | .decrement => "--"
  | .increment => "++"
  | .not => "!"
  | .bitNot => "~"
  | .neg => "-"
  | .plus => "+"

/-- Whether the operator changes its operand. -/
def isUpdate : UnaryOp → Bool
  | .decrement | .increment => true
  | _ => false

/-- The operator that may stand before its operand with the given spelling. -/
def before? (text : String) : Option UnaryOp :=
  all.find? fun op => op.spelling = text

/-- The operator that may stand behind its operand with the given spelling. -/
def behind? (text : String) : Option UnaryOp :=
  all.find? fun op => op.isUpdate && op.spelling = text

/-- Every operator is read back from its spelling. -/
theorem before?_spelling (op : UnaryOp) : before? op.spelling = some op := by
  cases op <;> decide

end UnaryOp

/-- The constants of the language. -/
inductive Atom where
  | true | false | null | undefined
deriving DecidableEq

namespace Atom

/-- Every constant. -/
def all : List Atom := [.true, .false, .null, .undefined]

/-- How the constant is written. -/
def spelling : Atom → String
  | .true => "true"
  | .false => "false"
  | .null => "null"
  | .undefined => "undefined"

/-- The constant with the given spelling. -/
def ofSpelling? (text : String) : Option Atom :=
  all.find? fun atom => atom.spelling = text

/-- Every constant is read back from its spelling. -/
theorem ofSpelling?_spelling (atom : Atom) : ofSpelling? atom.spelling = some atom := by
  cases atom <;> decide

end Atom

end Stencil.Syntax
