import Stencil.Number.Literal
import Stencil.Text.Lines
import Stencil.Token.Scan
/-!
# The lexer

A `Lexer` is a place in a text together with all that decides how the text is read from there:
whether it is template text or code, how many braces are open, and whether a slash begins a
regular expression. `Lexer.next` gives the next token and the lexer behind it; after an error
there is a lexer too, so reading can go on.

A lexer is a value: keeping one and using it again replays the text from its place.
-/

set_option autoImplicit false

namespace Stencil

open Stencil.Error (Fault ParseError)
open Stencil.Text

/-- What kind of text is read. -/
inductive Mode where
  /-- A script or expression, without templates. -/
  | script
  /-- The text of a template, up to a marker. -/
  | text
  /-- Inside a command. -/
  | command
  /-- Inside a `${`. -/
  | echo
deriving DecidableEq

/-- A place in a text and how it is read from there. -/
structure Lexer where
  /-- The text from the place on. -/
  rest : List Char
  /-- The place. -/
  place : Position
  /-- Where the token that is being read begins. -/
  start : Position
  /-- Whether a line break was met since the last token. -/
  sawBreak : Bool
  /-- Whether a slash begins a regular expression. -/
  regexpAllowed : Bool
  /-- The open braces since the mode was entered. -/
  depth : Nat
  mode : Mode
  /-- The comments since the last token. -/
  comments : List Comment

namespace Lexer

/-- The lexer at the start of a text. -/
def ofText (template : Bool) (text : List Char) : Lexer where
  rest := text
  place := .origin
  start := .origin
  sawBreak := false
  regexpAllowed := !template
  depth := 0
  mode := if template then .text else .script
  comments := []

/-- The lexer at the start of a source, of which the line breaks are normalized first. -/
def ofSource (template : Bool) (source : List Char) : Lexer :=
  ofText template (normalize source)

/-- Moves across characters of which line breaks do not separate tokens. -/
def cross (lexer : Lexer) (count : Nat) : Lexer :=
  { lexer with
    rest := lexer.rest.drop count
    place := lexer.place.after (lexer.rest.take count) }

/-- Moves across characters, taking note of line breaks among them. -/
def skip (lexer : Lexer) (count : Nat) : Lexer :=
  { lexer.cross count with
    sawBreak := lexer.sawBreak || (lexer.rest.take count).contains '\n' }

/-- Begins a token at the place. -/
def mark (lexer : Lexer) : Lexer :=
  { lexer with start := lexer.place }

/-- The span from the beginning of the token to the place. -/
def span (lexer : Lexer) : Span := ⟨lexer.start, lexer.place⟩

/-- What a step of the lexer gives: a token or an error, and the lexer behind it. -/
abbrev Step := Except ParseError Token × Lexer

/-- Ends the token at the place. -/
def token (lexer : Lexer) (kind : TokenKind) : Step :=
  (.ok { kind, span := lexer.span, afterBreak := lexer.sawBreak, comments := lexer.comments },
    { lexer with
      regexpAllowed := kind.precedesExpression
      sawBreak := false
      comments := [] })

/-- Reports a fault between the beginning of the token and the place. -/
def fault (lexer : Lexer) (fault : Fault) : Step :=
  (.error (.ofFault fault lexer.span), lexer)

/-- Ends the token, or reports the fault, behind what a reader went over. -/
def accept {α : Type} (lexer : Lexer) (scan : Scan α) (kind : α → TokenKind) : Step :=
  let lexer := lexer.cross scan.width
  match scan.outcome with
  | .ok result => lexer.token (kind result)
  | .error cause => lexer.fault cause

/-- Keeps what lies between the beginning of the token and the place as a comment. -/
def addComment (lexer : Lexer) (kind : CommentKind) (text : List Char) : Lexer :=
  { lexer with
    comments := lexer.comments ++ [⟨kind, String.ofList text, lexer.span⟩] }

/-! ## Blanks and comments -/

/-- Moves across blanks. -/
def skipBlanks (lexer : Lexer) : Lexer :=
  lexer.skip (lexer.rest.takeWhile isBlank).length

/-- Reads one comment at the place, if there is one: the lexer behind it, or the fault of a
comment that does not end and the lexer behind its opening. -/
def comment? (lexer : Lexer) : Option (Except Fault Unit × Lexer) :=
  if lexer.mode = .text then
    match CommandMarker.at? lexer.rest with
    | some ⟨false, .remark⟩ =>
      let opened := lexer.skip 3
      match findPattern ['\x7d', '\x7d'] opened.rest with
      | none => some (.error .openTemplateComment, opened)
      | some length =>
        let closed := (opened.skip (length + 2)).addComment .template (opened.rest.take length)
        some (.ok (), { closed with regexpAllowed := false })
    | _ => none
  else
    match lexer.rest with
    | '/' :: '/' :: _ =>
      let opened := lexer.skip 2
      let text := opened.rest.takeWhile (· ≠ '\n')
      some (.ok (), (opened.skip text.length).addComment .line text)
    | '/' :: '*' :: _ =>
      let opened := lexer.skip 2
      match findPattern ['*', '/'] opened.rest with
      | none => some (.error .openComment, opened)
      | some length =>
        some (.ok (), (opened.skip (length + 2)).addComment .block (opened.rest.take length))
    | _ => none

/-- Moves to the next token across blanks and comments; template text has no blanks between
tokens. The first argument bounds the number of comments. -/
def skipTriviaWithin : Nat → Lexer → Except Fault Unit × Lexer
  | 0, lexer => (.ok (), lexer.mark)
  | n + 1, lexer =>
    let lexer := (if lexer.mode = .text then lexer else lexer.skipBlanks).mark
    match lexer.comment? with
    | some (.ok (), behind) => skipTriviaWithin n behind
    | some (.error cause, behind) => (.error cause, behind)
    | none => (.ok (), lexer)

/-- Moves to the next token across blanks and comments. -/
def skipTrivia (lexer : Lexer) : Except Fault Unit × Lexer :=
  skipTriviaWithin (lexer.rest.length + 1) lexer

/-! ## Template text -/

/-- Enters the code behind a marker of the given width. -/
def enter (lexer : Lexer) (mode : Mode) (marker : Marker) : Step :=
  ({ lexer.skip marker.spelling.length with mode, depth := 0 }).token (.marker marker)

/-- Reads a verbatim block: its text is not searched for markers. -/
def readVerbatim (lexer : Lexer) : Step :=
  let named := lexer.skip "\x7b\x7bverbatim".length
  let opened := named.skip (named.rest.takeWhile (· = ' ')).length
  if "\x7d\x7d".toList.isPrefixOf opened.rest then
    let body := opened.skip 2
    let close := "\x7b\x7b/verbatim\x7d\x7d".toList
    match findPattern close body.rest with
    | none => body.fault .openVerbatim
    | some length =>
      (body.skip (length + close.length)).token (.html (String.ofList (body.rest.take length)))
  else opened.fault .malformedVerbatim

/-- Reads text or a marker of a template. -/
def readText (lexer : Lexer) : Step :=
  match lexer.rest with
  | '$' :: '\x7b' :: _ => lexer.enter .echo .echoOpen
  | _ =>
    match CommandMarker.at? lexer.rest with
    | some ⟨false, .verbatim⟩ => lexer.readVerbatim
    | some ⟨true, _⟩ => lexer.enter .command .closerOpen
    | some ⟨false, _⟩ => lexer.enter .command .commandOpen
    | none =>
      let text := plainText lexer.rest
      (lexer.skip text.length).token (.html (String.ofList text))

/-! ## Code -/

/-- Leaves a command or an echo at a closing brace that no brace of the code opened. -/
def closeCode (lexer : Lexer) : Step :=
  let closed := lexer.skip 1
  if lexer.mode = .command then
    match closed.rest with
    | '\x7d' :: _ => ({ closed.skip 1 with mode := .text }).token (.marker .commandClose)
    | _ => closed.fault .halfClosedCommand
  else ({ closed with mode := .text }).token (.marker .echoClose)

/-- Reads a number; `point` tells that a point was read before it. -/
def readNumber (lexer : Lexer) (point : Bool) : Step :=
  let run := numberRun ⟨false, false, false, point⟩ lexer.rest
  let text := if point then '.' :: run else run
  lexer.accept
    (match Number.Literal.value? text with
      | some value => .found value run.length
      | none => .failed (.badNumber (String.ofList text)) run.length)
    .num

/-- Reads a name, keyword, constant or word operator. -/
def readWord (lexer : Lexer) : Step :=
  lexer.accept (nameText lexer.rest) fun chars => wordKind (String.ofList chars)

/-- Reads a regular expression of which the opening slash, and the given beginning of the
pattern, were read before. -/
def readRegexp (lexer : Lexer) (lead : List Char) : Step :=
  lexer.accept (regexpRest lexer.rest) fun (pattern, flags) =>
    .regexp (String.ofList (lead ++ pattern)) (String.ofList flags)

/-- Reads an operator that grows from the given one. -/
def readOperator (lexer : Lexer) (first : Char) (following : List Char) : Step :=
  let operator := operatorRun [first] following
  let text := String.ofList operator
  lexer.accept
    (if isOperator text then .found text operator.length
      else .failed (.strayCharacter text) operator.length)
    .operator

/-- Reads a token of code that begins with the given character. -/
def readCode (lexer : Lexer) (c : Char) (following : List Char) : Step :=
  if c = '"' || c = '\'' then
    lexer.accept ((stringRest c following).behind 1) fun chars => .string (String.ofList chars)
  else if c = '.' then
    let behind := lexer.cross 1
    if (following.head?.map isDigit).getD false then behind.readNumber true
    else behind.token (.punctuation '.')
  else if c = '/' then
    if lexer.regexpAllowed then (lexer.cross 1).readRegexp [] else lexer.readOperator c following
  else if c = '\\' then lexer.readWord
  else if isDigit c then lexer.readNumber false
  else if isOperatorChar c then lexer.readOperator c following
  else if isPunctuation c then (lexer.cross 1).token (.punctuation c)
  else if isNameStart c then lexer.readWord
  else lexer.fault (.strayCharacter (String.ofList [c]))

/-- Whether braces are counted: they are inside commands and echoes. -/
def countsBraces (lexer : Lexer) : Bool :=
  lexer.mode = .command || lexer.mode = .echo

/-- Reads the token at the place, which is not preceded by blanks or comments. -/
def readToken (lexer : Lexer) : Step :=
  match lexer.rest with
  | [] => lexer.token .eof
  | c :: following =>
    if lexer.mode = .text then lexer.readText
    else if c = '\x7b' && lexer.countsBraces then
      ({ lexer with depth := lexer.depth + 1 }).readCode c following
    else if c = '\x7d' && lexer.countsBraces then
      if lexer.depth = 0 then lexer.closeCode
      else ({ lexer with depth := lexer.depth - 1 }).readCode c following
    else lexer.readCode c following

/-- The next token, or the error met on the way to it, and the lexer behind it. -/
def next (lexer : Lexer) : Step :=
  match lexer.skipTrivia with
  | (.ok (), lexer) => lexer.readToken
  | (.error cause, lexer) => lexer.fault cause

/-- Reads the token that was begun last again, as a regular expression whose pattern starts with
the given text. -/
def rereadRegexp (lexer : Lexer) (lead : String) : Step :=
  lexer.readRegexp lead.toList

/-- Reads tokens to the end of the text. The first argument bounds their number. -/
def tokensWithin : Nat → Lexer → Except ParseError (List Token)
  | 0, _ => .ok []
  | n + 1, lexer =>
    match lexer.next with
    | (.error e, _) => .error e
    | (.ok token, behind) =>
      if token.isEof then .ok [token] else (tokensWithin n behind).map (token :: ·)

end Lexer

/-- The tokens of a source, the end of the text included. Every token but the last takes at
least one character, which bounds their number. -/
def tokenize (template : Bool) (source : List Char) : Except ParseError (List Token) :=
  let lexer := Lexer.ofSource template source
  lexer.tokensWithin (lexer.rest.length + 1)

end Stencil
