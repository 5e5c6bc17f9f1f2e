import Stencil.Syntax.Tree
import Stencil.Token.Lexer
/-!
# Reading tokens one by one

A grammar rule is a `Parser`: it reads tokens at a cursor and gives a result, or fails. The
cursor holds one token and the lexer behind it. Because a lexer is a value, looking one token
further ahead leaves no trace.

A failure is either an error of the text or `exhausted`, the sign that a rule was given too small
a bound on its recursion. The two are kept apart so that a bound can be raised without changing
any other answer.
-/

set_option autoImplicit false

namespace Stencil.Grammar

open Stencil.Error (Fault ParseError)
open Stencil.Text (Position Span)
open Stencil.Syntax

/-- How a text is parsed. -/
structure Options where
  /-- Whether trees carry the spans they were read from. -/
  positions : Bool := true
  /-- Whether semicolons are required and targets of assignments are checked. -/
  strict : Bool := false
deriving DecidableEq

/-- Why a rule gives no result. -/
inductive Failure where
  /-- The text is not in the language. -/
  | refused (error : ParseError)
  /-- The bound on the recursion was too small. -/
  | exhausted
deriving DecidableEq

/-- A place between two tokens. -/
structure Cursor where
  /-- The lexer behind the current token. -/
  lexer : Lexer
  /-- The current token, which is not consumed yet. -/
  token : Token
  /-- Where the token consumed last ended. -/
  stop : Position

/-- A rule of the grammar. -/
abbrev Parser := ReaderT Options (StateT Cursor (Except Failure))

namespace Parser

variable {α σ : Type}

/-- The current token. -/
def current : Parser Token := do
  return (← get).token

/-- The kind of the current token. -/
def currentKind : Parser TokenKind := do
  return (← get).token.kind

/-- Where the current token begins. -/
def startOfToken : Parser Position := do
  return (← get).token.span.start

/-- Gives up with an error. -/
def refuse (error : ParseError) : Parser α :=
  throw (.refused error)

/-- Gives up with a fault at the current token. -/
def faultHere (fault : Fault) : Parser α := do
  refuse (.ofFault fault (← current).span)

/-- Gives up because the current token fits nowhere. -/
def unexpected : Parser α := do
  let token ← current
  faultHere (.unexpected token.kind.describe token.isEof)

/-- Gives up because the current token stands in the place of another one. -/
def expected (wanted : String) : Parser α := do
  faultHere (.expected (← currentKind).describe wanted)

/-- Consumes the current token. -/
def advance : Parser Unit := do
  let cursor ← get
  match cursor.lexer.next with
  | (.ok token, lexer) => set ({ lexer, token, stop := cursor.token.span.stop } : Cursor)
  | (.error error, _) => refuse error

/-- The token behind the current one. -/
def following : Parser Token := do
  match (← get).lexer.next with
  | (.ok token, _) => return token
  | (.error error, _) => refuse error

/-- The span from a place to the end of the last consumed token, if spans are wanted. -/
def spanFrom (start : Position) : Parser (Option Span) := do
  if (← read).positions then return some ⟨start, (← get).stop⟩ else return none

/-- Consumes the given punctuation. -/
def expectPunctuation (char : Char) : Parser Unit := do
  if (← current).isPunctuation char then advance
  else expected ("punc (" ++ char.toString ++ ")")

/-- Consumes the given marker. -/
def expectMarker (marker : Marker) : Parser Unit := do
  if (← current).isMarker marker then advance
  else expected ("tpunc (" ++ marker.spelling ++ ")")

/-- Whether the current token is the given punctuation. -/
def atPunctuation (char : Char) : Parser Bool := do
  return (← current).isPunctuation char

/-- Whether the current token is the given operator. -/
def atOperator (spelling : String) : Parser Bool := do
  return (← current).isOperator spelling

/-- Whether the current token is the given keyword. -/
def atKeyword (keyword : Keyword) : Parser Bool := do
  return (← current).isKeyword keyword

/-- Whether the current token is the given marker. -/
def atMarker (marker : Marker) : Parser Bool := do
  return (← current).isMarker marker

/-- Whether a semicolon may be left out here: before a line break, a closing brace or the end of
the text, unless parsing is strict. -/
def mayOmitSemicolon : Parser Bool := do
  let token ← current
  return !(← read).strict && (token.afterBreak || token.isEof || token.isPunctuation '\x7d')

/-- Consumes the semicolon at the end of a statement, where it may not be left out. -/
def semicolon : Parser Unit := do
  if ← atPunctuation ';' then advance
  else if ← mayOmitSemicolon then return ()
  else unexpected

/-- Reads a current `/` or `/=` again, as the beginning of a regular expression. -/
def rereadRegexp : Parser Unit := do
  let cursor ← get
  let lead := if cursor.token.isOperator "/=" then "=" else ""
  match cursor.lexer.rereadRegexp lead with
  | (.ok token, lexer) =>
    set
      { cursor with
        lexer
        token :=
          { token with
            afterBreak := cursor.token.afterBreak
            comments := cursor.token.comments } }
  | (.error error, _) => refuse error

/-- Repeats a step until it gives a result. The first argument bounds the number of steps. -/
def loopWithin (step : σ → Parser (σ ⊕ α)) : Nat → σ → Parser α
  | 0, _ => throw .exhausted
  | n + 1, state => do
    match ← step state with
    | .inl state => loopWithin step n state
    | .inr result => return result

/-- Repeats a step until it gives a result. Every step of the grammar consumes a token or is the
last, so the text that is left bounds their number. -/
def loop (step : σ → Parser (σ ⊕ α)) (state : σ) : Parser α := do
  loopWithin step ((← get).lexer.rest.length + 2) state

end Parser

/-- The cursor at the start of a source. -/
def Cursor.ofSource (template : Bool) (source : List Char) : Except Failure Cursor :=
  match (Lexer.ofSource template source).next with
  | (.ok token, lexer) => .ok { lexer, token, stop := .origin }
  | (.error error, _) => .error (.refused error)

end Stencil.Grammar
