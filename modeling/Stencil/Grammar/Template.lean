import Stencil.Grammar.Statement
/-!
# The grammar of templates

A template is a sequence of chunks. Blocks are closed by the marker that names them; a closing
marker for another block, and the end of the text inside a block, are reported together with the
place where the innermost open block begins.
-/

set_option autoImplicit false

namespace Stencil.Grammar

open Stencil.Error (Fault ParseError)
open Stencil.Text (Position Span)
open Stencil.Syntax

namespace Parser

/-- Reads an expression and the end of the command it stands in. -/
def commandExpression (rules : Rules) : Parser Expr := do
  let value ← rules.expression true false
  expectMarker .commandClose
  return value

/-- Reads chunks up to the marker that closes the block or, if the block may have `{{else}}`,
up to that. The marker is not consumed. -/
def blockBody (rules : Rules) (name : String) (opening : Span) (branches : Bool) :
    Parser (List Chunk) :=
  loop (fun (chunks : List Chunk) => do
    let token ← current
    if token.isEof then
      refuse
        { ParseError.ofFault (.openBlock name) token.span with
          related := some opening
          help := some ("Close with \x7b\x7b/" ++ name ++ "\x7d\x7d") }
    if token.isMarker .closerOpen then return .inr chunks
    if branches && token.isMarker .commandOpen then
      if (← following).isKeyword .else then return .inr chunks
    return .inl (chunks ++ [← rules.chunk])) []

/-- Whether a token is a word with the given spelling. -/
def spells (token : Token) (word : String) : Bool :=
  match token.kind with
  | .name text => text = word
  | .keyword keyword => keyword.spelling = word
  | _ => false

/-- Reads the marker that closes the block. -/
def closeBlock (name : String) (opening : Span) : Parser Unit := do
  expectMarker .closerOpen
  let token ← current
  if !spells token name then
    refuse
      { ParseError.ofFault (.wrongCloser name) token.span with
        related := some opening
        label := some "opened here" }
  advance
  expectMarker .commandClose

/-- The names that an iteration binds; anything else is refused, where the list begins if the
offender carries no span. -/
def bindingNames (listSpan : Span) : List Expr → Parser (List String)
  | [] => return []
  | .name _ name :: rest => return name :: (← bindingNames listSpan rest)
  | other :: _ => refuse (.ofFault .bindingNotName (other.span.getD listSpan))

/-- Reads the head of an iteration: parentheses hold the names it binds, if a collection
follows, and else the collection. -/
def eachHead (rules : Rules) : Parser (Option (List String) × Expr) := do
  let listSpan := (← current).span
  if ← atPunctuation '(' then
    advance
    let items ← expressionList rules ')' false false
    if ← atMarker .commandClose then
      match items with
      | [collection] => return (none, collection)
      | _ => refuse (.ofFault .missingCollection (listSpan.through (← current).span))
    else
      let names ← bindingNames listSpan items
      let collection ← rules.expression true false
      return (if names.isEmpty then none else some names, collection)
  else return (none, ← rules.expression true false)

/-- Reads an iteration from behind its name. -/
def eachBlock (rules : Rules) (opening : Span) : Parser Chunk := do
  let (bindings, collection) ← eachHead rules
  expectMarker .commandClose
  let body ← blockBody rules "each" opening false
  closeBlock "each" opening
  return .each (← spanFrom opening.start) bindings collection body

/-- Reads the `{{else}}` branches of a conditional: those with a condition, and the default one
that may follow them. -/
def elseBranches (rules : Rules) (opening : Span) :
    Parser (List ElseIf × Option (List Chunk)) :=
  loop (fun (elseIfs, elseBranch) => do
    if !(← atMarker .commandOpen) then return .inr (elseIfs, elseBranch)
    advance
    let elseSpan := (← current).span
    advance
    if ← atMarker .commandClose then
      if elseBranch.isSome then refuse (.ofFault .secondElse elseSpan)
      advance
      let body ← blockBody rules "if" opening true
      return .inl (elseIfs, some body)
    else
      if elseBranch.isSome then refuse (.ofFault .lateElse elseSpan)
      let condition ← commandExpression rules
      let body ← blockBody rules "if" opening true
      return .inl (elseIfs ++ [.mk condition body], elseBranch))
    (([], none) : List ElseIf × Option (List Chunk))

/-- Reads a conditional from behind its name. -/
def ifBlock (rules : Rules) (opening : Span) : Parser Chunk := do
  let condition ← commandExpression rules
  let thenBranch ← blockBody rules "if" opening true
  let (elseIfs, elseBranch) ← elseBranches rules opening
  closeBlock "if" opening
  return .ifElse (← spanFrom opening.start) condition thenBranch elseIfs elseBranch

/-- Reads an inclusion from behind its name. -/
def inclusion (rules : Rules) (opening : Span) : Parser Chunk := do
  let args ←
    if ← atPunctuation '(' then do
      advance
      pure (some (← expressionList rules ')' false false))
    else pure none
  let name ← commandExpression rules
  return .include (← spanFrom opening.start) args name

/-- Reads a command from its name on. -/
def command (rules : Rules) (opening : Span) : Parser Chunk := do
  match ← currentKind with
  | .name "each" => advance; eachBlock rules opening
  | .name "tmpl" => advance; inclusion rules opening
  | .name "html" =>
    advance
    let value ← commandExpression rules
    return .rawHtml (← spanFrom opening.start) value
  | .name "layout" =>
    advance
    let name ← commandExpression rules
    return .layout (← spanFrom opening.start) name
  | .keyword .if => advance; ifBlock rules opening
  | .keyword .var =>
    advance
    let defs ← definitions rules false
    expectMarker .commandClose
    return .var (← spanFrom opening.start) defs
  | _ => unexpected

/-- Reads a chunk. -/
def chunk (rules : Rules) : Parser Chunk := do
  let token ← current
  let start := token.span.start
  match token.kind with
  | .html text =>
    advance
    return .html (← spanFrom start) text
  | .marker .echoOpen =>
    advance
    let value ← rules.expression true false
    expectMarker .echoClose
    return .echo (← spanFrom start) value
  | .marker .commandOpen =>
    advance
    command rules token.span
  | _ => unexpected

/-- Reads chunks to the end of the text. -/
def template (rules : Rules) : Parser Template := do
  let chunks ← loop (fun (chunks : List Chunk) => do
    if (← current).isEof then return .inr chunks
    return .inl (chunks ++ [← chunk rules])) []
  return ⟨chunks⟩

/-- Reads an expression that is all of the text. -/
def wholeExpression (rules : Rules) : Parser Expr := do
  let value ← expression rules true false
  if (← current).isEof then return value else unexpected

end Parser

end Stencil.Grammar
