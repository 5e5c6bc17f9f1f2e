import Stencil.Number.Text
import Stencil.Table
/-!
# JSON documents

The values of a JSON document, looking into them, and writing them indented. Counts and
measured numbers are kept apart: a count has no fraction when it is written.
-/

set_option autoImplicit false

namespace Stencil

/-- A JSON value. The members of an object keep their order. -/
inductive Json where
  | null
  | bool (value : Bool)
  /-- A count. -/
  | count (value : Nat)
  /-- Any other number. -/
  | number (value : Float)
  | string (text : String)
  | array (items : List Json)
  | object (members : List (String × Json))
deriving Inhabited

namespace Json

/-- The member of an object with the given key. -/
def member? (key : String) : Json → Option Json
  | object members => Table.get? members key
  | _ => none

/-- The member of an object with the given key; a member that is absent is null. -/
def member (key : String) (json : Json) : Json :=
  (json.member? key).getD null

/-- The text of a string. -/
def text? : Json → Option String
  | string text => some text
  | _ => none

/-- The items of an array. -/
def items? : Json → Option (List Json)
  | array items => some items
  | _ => none

/-- A count, also where it is written like any other number. -/
def count? : Json → Option Nat
  | count value => some value
  | number value => if value < 0 then none else some value.toUInt64.toNat
  | _ => none

/-- An optional value: null stands for none. -/
def ofOption : Option Json → Json
  | none => null
  | some json => json

/-- Reads an optional value: null stands for none. -/
def option? {α : Type} (read : Json → Option α) : Json → Option (Option α)
  | null => some none
  | json => (read json).map some

/-- One character inside a JSON string. -/
def escapeChar (c : Char) : List Char :=
  if c = '"' then ['\\', '"']
  else if c = '\\' then ['\\', '\\']
  else if c = '\n' then ['\\', 'n']
  else if c = '\r' then ['\\', 'r']
  else if c = '\t' then ['\\', 't']
  else if c = '\u0008' then ['\\', 'b']
  else if c = '\u000c' then ['\\', 'f']
  else if c.toNat < 0x20 then
    let digits := Nat.toDigits 16 c.toNat
    '\\' :: 'u' :: (List.replicate (4 - digits.length) '0' ++ digits)
  else [c]

/-- A text as a JSON string. -/
def quote (text : String) : String :=
  "\"" ++ String.ofList (text.toList.flatMap escapeChar) ++ "\""

/-- A number as it stands in a document; one that is not finite has no form and is null. -/
def numberText (value : Float) : String :=
  if value.isFinite then Number.jsonStyle.write value else "null"

/-- The blanks before a line at the given depth. -/
def margin (depth : Nat) : String :=
  String.ofList (List.replicate (2 * depth) ' ')

mutual

/-- How deeply arrays and objects are nested in the value. -/
def depth : Json → Nat
  | array items => depthOfItems items + 1
  | object members => depthOfMembers members + 1
  | _ => 0

/-- The greatest depth among the items of an array. -/
def depthOfItems : List Json → Nat
  | [] => 0
  | item :: rest => max (depth item) (depthOfItems rest)

/-- The greatest depth among the members of an object. -/
def depthOfMembers : List (String × Json) → Nat
  | [] => 0
  | (_, value) :: rest => max (depth value) (depthOfMembers rest)

end

mutual

/-- The document, indented by two blanks for each level. -/
def pretty (depth : Nat) : Json → String
  | null => "null"
  | bool value => if value then "true" else "false"
  | count value => String.ofList (Nat.toDigits 10 value)
  | number value => numberText value
  | string text => quote text
  | array [] => "[]"
  | array (first :: rest) =>
    "[\n" ++ margin (depth + 1) ++ pretty (depth + 1) first ++ prettyItems depth rest
      ++ "\n" ++ margin depth ++ "]"
  | object [] => "\x7b\x7d"
  | object ((key, value) :: rest) =>
    "\x7b\n" ++ margin (depth + 1) ++ quote key ++ ": " ++ pretty (depth + 1) value
      ++ prettyMembers depth rest ++ "\n" ++ margin depth ++ "\x7d"

/-- The items of an array behind the first. -/
def prettyItems (depth : Nat) : List Json → String
  | [] => ""
  | item :: rest =>
    ",\n" ++ margin (depth + 1) ++ pretty (depth + 1) item ++ prettyItems depth rest

/-- The members of an object behind the first. -/
def prettyMembers (depth : Nat) : List (String × Json) → String
  | [] => ""
  | (key, value) :: rest =>
    ",\n" ++ margin (depth + 1) ++ quote key ++ ": " ++ pretty (depth + 1) value
      ++ prettyMembers depth rest

end

mutual

/-- The document on one line. -/
def compact : Json → String
  | null => "null"
  | bool value => if value then "true" else "false"
  | count value => String.ofList (Nat.toDigits 10 value)
  | number value => numberText value
  | string text => quote text
  | array items => "[" ++ String.intercalate "," (compactItems items) ++ "]"
  | object members => "\x7b" ++ String.intercalate "," (compactMembers members) ++ "\x7d"

/-- The items of an array, each on its own. -/
def compactItems : List Json → List String
  | [] => []
  | item :: rest => compact item :: compactItems rest

/-- The members of an object, each on its own. -/
def compactMembers : List (String × Json) → List String
  | [] => []
  | (key, value) :: rest => (quote key ++ ":" ++ compact value) :: compactMembers rest

end

end Json

end Stencil
