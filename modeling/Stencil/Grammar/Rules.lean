import Stencil.Grammar.Cursor
/-!
# The recursion of the grammar

The rules of the grammar refer to each other. `Rules` collects those that are entered again from
within, and each rule is written over such a collection: it never calls itself. Tying the knot
`n` times gives rules that read nestings up to the depth `n`; as every nesting costs a token, the
length of a text is always enough.
-/

set_option autoImplicit false

namespace Stencil.Grammar

open Stencil.Text (Position)
open Stencil.Syntax

/-- What surrounds a statement, as far as it decides which jumps are allowed. -/
structure Surroundings where
  /-- Whether a function is being read. -/
  inFunction : Bool
  /-- Whether, inside the innermost function, a loop or switch is being read. -/
  inLoop : Bool
  /-- The labels, inside the innermost function, of the statements being read. -/
  labels : List String
deriving DecidableEq

namespace Surroundings

/-- The surroundings of a script. -/
def outermost : Surroundings := ⟨false, false, []⟩

/-- The surroundings of the body of a function: those of the function itself do not matter. -/
def ofFunction : Surroundings := ⟨true, false, []⟩

/-- The surroundings of the body of a loop or switch. -/
def looping (around : Surroundings) : Surroundings := { around with inLoop := true }

/-- The surroundings of a labelled statement. -/
def labelled (around : Surroundings) (label : String) : Surroundings :=
  { around with labels := around.labels ++ [label] }

end Surroundings

/-- The rules that are entered again from within other rules. -/
structure Rules where
  /-- Expressions: with or without a sequence of several, and with or without a bare `in`. -/
  expression : (commas noIn : Bool) → Parser Expr
  /-- Expressions from assignments downward. -/
  assignment : (noIn : Bool) → Parser Expr
  /-- Binary operators that bind tighter than a bound, behind a given left operand. -/
  operators : Expr → Position → (bound : Nat) → (noIn : Bool) → Parser Expr
  /-- Operands with their unary operators. -/
  unary : (calls : Bool) → Parser Expr
  /-- Operands without operators. -/
  primary : (calls : Bool) → Parser Expr
  /-- Statements. -/
  statement : Surroundings → Parser Stmt
  /-- Chunks of a template. -/
  chunk : Parser Chunk

/-- The rules that read nothing. -/
def Rules.exhausted : Rules where
  expression _ _ := throw .exhausted
  assignment _ := throw .exhausted
  operators _ _ _ _ := throw .exhausted
  unary _ := throw .exhausted
  primary _ := throw .exhausted
  statement _ := throw .exhausted
  chunk := throw .exhausted

end Stencil.Grammar
