import Stencil.Text.CharClass
import Stencil.Value.Basic
/-!
# Properties of values

Objects have their entries; arrays and strings have their items, by index, and a length. Other
values have no properties of their own.
-/

set_option autoImplicit false

namespace Stencil.Value

/-- The number that a run of digits spells. -/
def digitsValue? (digits : List Char) : Option Nat :=
  if digits.isEmpty || !digits.all Text.isDigit then none
  else some (digits.foldl (fun total c => total * 10 + (c.toNat - '0'.toNat)) 0)

/-- The index that a key spells: digits without needless zeros before them. A plus sign may come
first, and then zeros may follow. -/
def index? : List Char → Option Nat
  | '+' :: digits => digitsValue? digits
  | ['0'] => some 0
  | '0' :: _ => none
  | digits => digitsValue? digits

/-- The value under the key, if the value has one there. -/
def own? (value : Value) (key : String) : Option Value :=
  match value with
  | object _ entries => Table.get? entries key
  | array _ items =>
    if key = "length" then some (number items.length.toFloat)
    else (index? key.toList).bind fun i => items[i]?
  | string text =>
    if key = "length" then some (number text.length.toFloat)
    else
      (index? key.toList).bind fun i =>
        text.toList[i]?.map fun c => string (String.singleton c)
  | _ => none

end Stencil.Value
