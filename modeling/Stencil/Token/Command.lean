/-!
# Commands of a template

A command marker is two opening braces, a slash if it closes a block, the name of a command and
a blank, a closing brace or an opening parenthesis. Braces followed by anything else are text.
-/

set_option autoImplicit false

namespace Stencil

/-- The commands of a template. -/
inductive Command where
  | each | if | else | tmpl | verbatim | html | layout | var
  /-- A comment, written with an exclamation mark. -/
  | remark
deriving DecidableEq

namespace Command

/-- Every command. -/
def all : List Command := [.each, .if, .else, .tmpl, .verbatim, .html, .layout, .var, .remark]

/-- How the command is written. -/
def spelling : Command → String
  | .each => "each"
  | .if => "if"
  | .else => "else"
  | .tmpl => "tmpl"
  | .verbatim => "verbatim"
  | .html => "html"
  | .layout => "layout"
  | .var => "var"
  | .remark => "!"

/-- Whether the command opens a block that a closing marker ends. -/
def isBlock : Command → Bool
  | .each | .if | .verbatim => true
  | _ => false

/-- The command with the given spelling. -/
def ofSpelling? (text : List Char) : Option Command :=
  all.find? fun command => command.spelling.toList = text

end Command

/-- A command marker. -/
structure CommandMarker where
  /-- Whether the marker closes a block. -/
  closing : Bool
  command : Command
deriving DecidableEq

namespace CommandMarker

/-- Whether a character may stand in the name of a command. -/
def isNameChar (c : Char) : Bool :=
  ('a' ≤ c && c ≤ 'z') || c = '!'

/-- Whether a character may follow the name of a command. -/
def isFollower (c : Char) : Bool :=
  c = ' ' || c = '\x7d' || c = '('

/-- The marker whose name starts here. -/
def named? (closing : Bool) (cs : List Char) : Option CommandMarker :=
  let name := cs.takeWhile isNameChar
  match cs.drop name.length, Command.ofSpelling? name with
  | follower :: _, some command =>
    if isFollower follower && (!closing || command.isBlock) then some ⟨closing, command⟩ else none
  | _, _ => none

/-- The command marker at the start of the text. -/
def at? : List Char → Option CommandMarker
  | '\x7b' :: '\x7b' :: '/' :: rest => named? true rest
  | '\x7b' :: '\x7b' :: rest => named? false rest
  | _ => none

end CommandMarker

/-- Whether the text starts with a marker: `${` or a command marker. -/
def startsMarker : List Char → Bool
  | '$' :: '\x7b' :: _ => true
  | cs => (CommandMarker.at? cs).isSome

end Stencil
