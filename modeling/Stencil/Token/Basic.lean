import Stencil.Number.Text
import Stencil.Syntax.Operator
import Stencil.Text.Position
import Stencil.Text.Quoted
/-!
# Tokens

The pieces a text is cut into, and how a token is described in messages.
-/

set_option autoImplicit false

namespace Stencil

open Stencil.Text (Span)
open Stencil.Syntax (Atom)

/-- Reserved words that are no operators. -/
inductive Keyword where
  | break | case | catch | const | continue | debugger | default | do | else | finally | for
  | function | if | return | switch | throw | try | var | while | with
deriving DecidableEq

namespace Keyword

/-- Every keyword. -/
def all : List Keyword :=
  [.break, .case, .catch, .const, .continue, .debugger, .default, .do, .else, .finally, .for,
    .function, .if, .return, .switch, .throw, .try, .var, .while, .with]

/-- How the keyword is written. -/
def spelling : Keyword → String
  | .break => "break"
  | .case => "case"
  | .catch => "catch"
  | .const => "const"
  | .continue => "continue"
  | .debugger => "debugger"
  | .default => "default"
  | .do => "do"
  | .else => "else"
  | .finally => "finally"
  | .for => "for"
  | .function => "function"
  | .if => "if"
  | .return => "return"
  | .switch => "switch"
  | .throw => "throw"
  | .try => "try"
  | .var => "var"
  | .while => "while"
  | .with => "with"

/-- The keyword with the given spelling. -/
def ofSpelling? (text : String) : Option Keyword :=
  all.find? fun keyword => keyword.spelling = text

/-- Whether an expression may follow the keyword, so that a slash behind it begins a regular
expression. -/
def precedesExpression : Keyword → Bool
  | .return | .throw | .else | .case => true
  | _ => false

/-- Every keyword is read back from its spelling. -/
theorem ofSpelling?_spelling (keyword : Keyword) :
    ofSpelling? keyword.spelling = some keyword := by
  cases keyword <;> decide

end Keyword

/-- The words that are operators. -/
def wordOperators : List String := ["in", "instanceof", "typeof", "new", "void", "delete"]

/-- The operators made of symbols. -/
def symbolOperators : List String :=
  ["++", "--", "+", "-", "!", "~", "&", "|", "^", "*", "/", "%", ">>", "<<", ">>>", "<", ">",
    "<=", ">=", "==", "===", "!=", "!==", "?", "=", "+=", "-=", "/=", "*=", "%=", ">>=", "<<=",
    ">>>=", "|=", "^=", "&=", "&&", "||"]

/-- Whether the text is an operator. -/
def isOperator (text : String) : Bool :=
  wordOperators.contains text || symbolOperators.contains text

/-- Whether the word is reserved: a keyword or a word operator. -/
def isReserved (word : String) : Bool :=
  (Keyword.ofSpelling? word).isSome || wordOperators.contains word

/-- The marks that separate the text of a template from what is computed. -/
inductive Marker where
  /-- `${`. -/
  | echoOpen
  /-- `{{`. -/
  | commandOpen
  /-- `{{/`. -/
  | closerOpen
  /-- `}}`. -/
  | commandClose
  /-- The brace that closes a `${`. -/
  | echoClose
deriving DecidableEq

namespace Marker

/-- How the marker is written. -/
def spelling : Marker → String
  | echoOpen => "$\x7b"
  | commandOpen => "\x7b\x7b"
  | closerOpen => "\x7b\x7b/"
  | commandClose => "\x7d\x7d"
  | echoClose => "\x7d"

end Marker

/-- What a token is. -/
inductive TokenKind where
  | num (value : Float)
  | string (text : String)
  | regexp (pattern flags : String)
  | name (name : String)
  | keyword (keyword : Keyword)
  | atom (atom : Atom)
  | operator (spelling : String)
  | punctuation (char : Char)
  /-- Text of a template outside of markers. -/
  | html (text : String)
  | marker (marker : Marker)
  /-- The end of the text. -/
  | eof

namespace TokenKind

/-- The token as it is named in messages. -/
def describe : TokenKind → String
  | .num value => "num (" ++ Number.plainStyle.write value ++ ")"
  | .string text => "string (" ++ Text.Quoted.shown text ++ ")"
  | .regexp pattern flags => "regexp (/" ++ pattern ++ "/" ++ flags ++ ")"
  | .name word => "name (" ++ word ++ ")"
  | .keyword word => "keyword (" ++ word.spelling ++ ")"
  | .atom word => "atom (" ++ word.spelling ++ ")"
  | .operator symbol => "operator (" ++ symbol ++ ")"
  | .punctuation char => "punc (" ++ char.toString ++ ")"
  | .html _ => "html"
  | .marker mark => "tpunc (" ++ mark.spelling ++ ")"
  | .eof => "eof"

/-- Whether a slash behind the token begins a regular expression. -/
def precedesExpression : TokenKind → Bool
  | .operator symbol => symbol ≠ "++" && symbol ≠ "--"
  | .keyword word => word.precedesExpression
  | .punctuation char => "[\x7b(,.;:".toList.contains char
  | _ => false

end TokenKind

/-- The ways a comment is written. -/
inductive CommentKind where
  /-- `// …`, to the end of the line. -/
  | line
  /-- `/* … */`. -/
  | block
  /-- `{{! … }}`. -/
  | template
deriving DecidableEq

/-- A comment, kept with the token that follows it. -/
structure Comment where
  kind : CommentKind
  text : String
  span : Span
deriving DecidableEq

/-- A token with its place. -/
structure Token where
  kind : TokenKind
  span : Span
  /-- Whether a line break separates the token from the one before. -/
  afterBreak : Bool
  /-- The comments between the token and the one before. -/
  comments : List Comment

namespace Token

/-- Whether the token is the given punctuation. -/
def isPunctuation (token : Token) (char : Char) : Bool :=
  match token.kind with
  | .punctuation c => c = char
  | _ => false

/-- Whether the token is the operator with the given spelling. -/
def isOperator (token : Token) (spelling : String) : Bool :=
  match token.kind with
  | .operator s => s = spelling
  | _ => false

/-- Whether the token is the given keyword. -/
def isKeyword (token : Token) (keyword : Keyword) : Bool :=
  match token.kind with
  | .keyword k => k = keyword
  | _ => false

/-- Whether the token is the given marker. -/
def isMarker (token : Token) (marker : Marker) : Bool :=
  match token.kind with
  | .marker m => m = marker
  | _ => false

/-- Whether the token is the end of the text. -/
def isEof (token : Token) : Bool :=
  match token.kind with
  | .eof => true
  | _ => false

/-- A token that is not of the kind of the end of the text is not the end. -/
theorem isEof_of_ne {token : Token} (other : token.kind ≠ .eof) : token.isEof = false := by
  unfold isEof
  split
  · next kind => exact absurd kind other
  · rfl

end Token

end Stencil
