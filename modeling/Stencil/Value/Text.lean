import Stencil.Number.Text
import Stencil.Text.Quoted
import Stencil.Value.Basic
/-!
# Values as text

`display` is the text of a value in the output of a template. `inspect` is the text that shows
what a value is made of.
-/

set_option autoImplicit false

namespace Stencil.Value

mutual

/-- The text of the value in the output of a template. Absent items of an array leave nothing
between their commas. -/
def display : Value → String
  | undefined => "undefined"
  | null => "null"
  | bool value => if value then "true" else "false"
  | number value => Number.toText value
  | string text => text
  | array _ items => String.intercalate "," (displayItems items)
  | function _ => "function () \x7b [native code] \x7d"
  | object .. | dynamic _ | iterable _ | stream _ => "[object Object]"

/-- The texts of the items of an array. -/
def displayItems : List Value → List String
  | [] => []
  | undefined :: rest => "" :: displayItems rest
  | null :: rest => "" :: displayItems rest
  | item :: rest => display item :: displayItems rest

end

mutual

/-- The text that shows what the value is made of. -/
def inspect : Value → String
  | undefined => "undefined"
  | null => "null"
  | bool value => if value then "true" else "false"
  | number value => Number.toText value
  | string text => Text.Quoted.shown text
  | array _ items => "[" ++ String.intercalate ", " (inspectItems items) ++ "]"
  | object _ entries => "\x7b" ++ String.intercalate ", " (inspectEntries entries) ++ "\x7d"
  | function _ => "[function]"
  | dynamic _ => "[dynamic]"
  | iterable _ => "[iterable]"
  | stream _ => "[stream]"

/-- The texts that show the items of an array. -/
def inspectItems : List Value → List String
  | [] => []
  | item :: rest => inspect item :: inspectItems rest

/-- The texts that show the entries of an object. -/
def inspectEntries : List (String × Value) → List String
  | [] => []
  | (key, value) :: rest =>
    (Text.Quoted.shown key ++ ": " ++ inspect value) :: inspectEntries rest

end

/-- The text that shows a list of values. -/
def inspectAll (values : List Value) : String :=
  "[" ++ String.intercalate ", " (inspectItems values) ++ "]"

end Stencil.Value
