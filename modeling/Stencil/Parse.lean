import Stencil.Grammar.Template
/-!
# Parsing

The three languages: templates, scripts and single expressions. Parsing reads the whole text or
gives the first error. The grammar is unfolded once more than the text has characters, which is
deep enough for every nesting the text can hold.
-/

set_option autoImplicit false

namespace Stencil

open Stencil.Error (ParseError)
open Stencil.Text (Span Position)
open Stencil.Syntax (Expr Program Template)

namespace Grammar

/-- The rules of the grammar over rules for what is nested inside. -/
def Rules.unfold (rules : Rules) : Rules where
  expression := Parser.expression rules
  assignment := Parser.assignment rules
  operators := Parser.operators rules
  unary := Parser.unary rules
  primary := Parser.primary rules
  statement := Parser.statement rules
  chunk := Parser.chunk rules

/-- The rules for nestings up to the given depth. -/
def Rules.upTo : Nat → Rules
  | 0 => .exhausted
  | depth + 1 => (upTo depth).unfold

/-- Runs a rule over a whole source. -/
def run {α : Type} (template : Bool) (options : Options) (source : List Char)
    (rule : Rules → Parser α) : Except Failure α := do
  let cursor ← Cursor.ofSource template source
  let (result, _) ← rule (Rules.upTo (cursor.lexer.rest.length + 2)) options cursor
  return result

/-- A bound that was too small is reported as an error at the start of the text; the bound that
is used never is. -/
def Failure.toError : Failure → ParseError
  | .refused error => error
  | .exhausted =>
    { kind := .invalidSyntax, message := "nesting too deep", span := Span.point Position.origin }

end Grammar

open Grammar (Options)

/-- Parses a template. -/
def parseTemplate (options : Options) (source : String) : Except ParseError Template :=
  (Grammar.run true options source.toList Grammar.Parser.template).mapError (·.toError)

/-- Parses a script. -/
def parseScript (options : Options) (source : String) : Except ParseError Program :=
  (Grammar.run false options source.toList Grammar.Parser.program).mapError (·.toError)

/-- Parses a single expression. -/
def parseExpression (options : Options) (source : String) : Except ParseError Expr :=
  (Grammar.run false options source.toList Grammar.Parser.wholeExpression).mapError (·.toError)

end Stencil
