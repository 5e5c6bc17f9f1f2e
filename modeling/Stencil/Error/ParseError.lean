import Stencil.Error.Kind
import Stencil.Text.Position
/-!
# Errors of reading

A `Fault` is the cause of an error found while a text is cut into tokens or parsed; its kind and
its wording are functions of the cause. A `ParseError` places an error in the text, with an
optional second place that explains it.
-/

set_option autoImplicit false

namespace Stencil.Error

open Stencil.Text (Position Span)

/-- What can be wrong with a text. -/
inductive Fault where
  /-- A character that starts no token. -/
  | strayCharacter (text : String)
  /-- A closing brace of a command that is not doubled. -/
  | halfClosedCommand
  /-- A `{{verbatim` that is not closed by `}}`. -/
  | malformedVerbatim
  /-- A verbatim block without its end. -/
  | openVerbatim
  /-- A template comment without its end. -/
  | openTemplateComment
  /-- A block comment without its end. -/
  | openComment
  /-- Text that begins like a number and is none. -/
  | badNumber (text : String)
  /-- A string literal without its closing quote. -/
  | openString
  /-- A regular expression without its closing slash. -/
  | openRegexp
  /-- An escape that ought to give a code point and does not. -/
  | badCodePoint
  /-- A character that ought to be a hexadecimal digit. -/
  | badHexDigit
  /-- A backslash in a name that starts no escape. -/
  | badNameEscape
  /-- An escape in a name that gives a character no name may hold. -/
  | badNameCharacter (code : Nat)
  /-- A token that fits nowhere; `atEnd` when it is the end of the text. -/
  | unexpected (description : String) (atEnd : Bool)
  /-- A token in the place of another one. -/
  | expected (description wanted : String)
  /-- An assignment to what cannot be assigned. -/
  | badAssignment
  /-- An update of what cannot be assigned. -/
  | badUpdate (operator : String)
  /-- A label inside a statement with the same label. -/
  | repeatedLabel (label : String)
  /-- A jump to a label that no enclosing statement has. -/
  | unknownLabel (label : String)
  /-- A jump outside of a loop or switch. -/
  | jumpOutside (keyword : String)
  /-- A `return` outside of a function. -/
  | returnOutside
  /-- A line break behind `throw`. -/
  | brokenThrow
  /-- Several variables in the head of a `for … in`. -/
  | severalLoopVariables
  /-- A `try` without `catch` and `finally`. -/
  | bareTry
  /-- An iteration whose parentheses hold no single collection. -/
  | missingCollection
  /-- An iteration that binds something other than a name. -/
  | bindingNotName
  /-- A second default `{{else}}`. -/
  | secondElse
  /-- A conditional `{{else}}` behind the default one. -/
  | lateElse
  /-- A block that the text ends inside of. -/
  | openBlock (name : String)
  /-- A closing marker for another block than the innermost one. -/
  | wrongCloser (name : String)
deriving DecidableEq

namespace Fault

/-- The kind of error the fault is reported as. -/
def kind : Fault → Kind
  | strayCharacter _ | halfClosedCommand => .unexpectedCharacter
  | malformedVerbatim | openVerbatim => .unterminatedVerbatim
  | openTemplateComment | openComment => .unterminatedComment
  | badNumber _ => .invalidNumber
  | openString => .unterminatedString
  | openRegexp => .unterminatedRegex
  | unexpected _ atEnd => if atEnd then .unexpectedEof else .unexpectedToken
  | expected _ _ => .unexpectedToken
  | badAssignment | badUpdate _ => .invalidAssignment
  | secondElse => .duplicateElse
  | lateElse => .elseAfterDefault
  | openBlock _ => .unclosedBlock
  | wrongCloser _ => .mismatchedCloseTag
  | badCodePoint | badHexDigit | badNameEscape | badNameCharacter _ | repeatedLabel _
  | unknownLabel _ | jumpOutside _ | returnOutside | brokenThrow | severalLoopVariables
  | bareTry | missingCollection | bindingNotName => .invalidSyntax

/-- The wording of the fault. -/
def message : Fault → String
  | strayCharacter text => "Unexpected character '" ++ text ++ "'"
  | halfClosedCommand => "Expected closing '\x7d\x7d'"
  | malformedVerbatim => "Malformed \x7b\x7bverbatim\x7d\x7d tag"
  | openVerbatim => "Unterminated \x7b\x7bverbatim\x7d\x7d block"
  | openTemplateComment => "Unterminated template comment"
  | openComment => "Unterminated multiline comment"
  | badNumber text => "Invalid syntax: " ++ text
  | openString => "Unterminated string constant"
  | openRegexp => "Unterminated regular expression"
  | badCodePoint => "Invalid Unicode escape sequence"
  | badHexDigit => "Invalid hex-character pattern in string"
  | badNameEscape => "Expecting UnicodeEscapeSequence -- uXXXX"
  | badNameCharacter code =>
    "Unicode char: " ++ String.ofList (Nat.toDigits 10 code) ++ " is not valid in identifier"
  | unexpected description _ => "Unexpected token: " ++ description
  | expected description wanted => "Unexpected token " ++ description ++ ", expected " ++ wanted
  | badAssignment => "Invalid assignment"
  | badUpdate operator => "Invalid use of " ++ operator ++ " operator"
  | repeatedLabel label => "Label " ++ label ++ " defined twice"
  | unknownLabel label => "Label " ++ label ++ " without matching loop or statement"
  | jumpOutside keyword => keyword ++ " not inside a loop or switch"
  | returnOutside => "'return' outside of function"
  | brokenThrow => "Illegal newline after 'throw'"
  | severalLoopVariables => "Only one variable declaration allowed in for..in loop"
  | bareTry => "Missing catch/finally blocks"
  | missingCollection => "collection value expected"
  | bindingNotName => "\x7b\x7beach\x7d\x7d arguments must be names"
  | secondElse => "too many default \x7b\x7belse\x7d\x7d blocks"
  | lateElse =>
    "can't have \x7b\x7belse (...)\x7d\x7d with condition after default \x7b\x7belse\x7d\x7d"
  | openBlock name => "This \x7b\x7b" ++ name ++ "\x7d\x7d block is never closed."
  | wrongCloser name =>
    "Unmatched template tags. expected closing \x7b\x7b/" ++ name ++ "\x7d\x7d here"

end Fault

/-- An error at a place of a text. -/
structure ParseError where
  kind : Kind
  message : String
  /-- Where the error is. -/
  span : Span
  /-- A second place that explains the error, such as the opening of an unclosed block. -/
  related : Option Span := none
  /-- What is written at the second place. -/
  label : Option String := none
  /-- Advice, possibly of several lines. -/
  help : Option String := none
deriving DecidableEq

namespace ParseError

/-- The error for a fault at a place. -/
def ofFault (fault : Fault) (span : Span) : ParseError :=
  { kind := fault.kind, message := fault.message, span := span }

/-- The line of the error, counted from one. -/
def line (e : ParseError) : Nat := e.span.start.line + 1

/-- The column of the error, counted from one. -/
def column (e : ParseError) : Nat := e.span.start.column + 1

/-- The byte offset of the error, counted from one. -/
def offset (e : ParseError) : Nat := e.span.start.byte + 1

/-- The error in one line. -/
def summary (e : ParseError) : String :=
  e.message ++ " (line " ++ String.ofList (Nat.toDigits 10 e.line) ++ ", column "
    ++ String.ofList (Nat.toDigits 10 e.column) ++ ")"

end ParseError

end Stencil.Error
