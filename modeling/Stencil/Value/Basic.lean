import Stencil.Json.Basic
import Stencil.Table
/-!
# Values

What templates compute with. Functions, lookups, iterables and streams belong to the program
that renders a template; a value only names them by a number. Arrays and objects carry a number
too, which tells apart two that look alike: equality of compound values is identity.
-/

set_option autoImplicit false

namespace Stencil

/-- A value of a template. -/
inductive Value where
  | undefined
  | null
  | bool (value : Bool)
  | number (value : Float)
  | string (text : String)
  | array (identity : Nat) (items : List Value)
  /-- An object: its entries keep their order, and no key occurs twice. -/
  | object (identity : Nat) (entries : List (String × Value))
  /-- A function of the rendering program. -/
  | function (handle : Nat)
  /-- Named values that are looked up on demand. -/
  | dynamic (handle : Nat)
  /-- A collection that can be iterated any number of times. -/
  | iterable (handle : Nat)
  /-- A collection that can be iterated once. -/
  | stream (handle : Nat)
deriving Inhabited

namespace Value

/-- Whether the value is undefined. -/
def isUndefined : Value → Bool
  | undefined => true
  | _ => false

/-- Whether the value counts as true in a condition. -/
def truthy : Value → Bool
  | undefined | null => false
  | bool value => value
  | number value => !(value == 0.0) && !value.isNaN
  | string text => !text.isEmpty
  | _ => true

/-- The name of the type of the value. -/
def typeName : Value → String
  | undefined => "undefined"
  | bool _ => "boolean"
  | number _ => "number"
  | string _ => "string"
  | function _ => "function"
  | null | array .. | object .. | dynamic _ | iterable _ | stream _ => "object"

/-! ## Values of JSON documents

Arrays and objects of a document are numbered in the order in which they end. -/

mutual

/-- The value of a document. The state is the number of the next array or object. -/
def ofJson : Json → StateM Nat Value
  | .null => return null
  | .bool value => return bool value
  | .count value => return number value.toFloat
  | .number value => return number value
  | .string text => return string text
  | .array items => do
    let items ← ofJsonItems items
    return array (← modifyGet fun n => (n, n + 1)) items
  | .object members => do
    let entries ← ofJsonMembers members
    return object (← modifyGet fun n => (n, n + 1)) entries

/-- The values of the items of an array. -/
def ofJsonItems : List Json → StateM Nat (List Value)
  | [] => return []
  | item :: rest => do
    let value ← ofJson item
    return value :: (← ofJsonItems rest)

/-- The values of the members of an object. -/
def ofJsonMembers : List (String × Json) → StateM Nat (List (String × Value))
  | [] => return []
  | (key, item) :: rest => do
    let value ← ofJson item
    return (key, value) :: (← ofJsonMembers rest)

end

end Value

end Stencil
