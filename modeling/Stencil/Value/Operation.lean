import Stencil.Number.Literal
import Stencil.Number.Text
import Stencil.Syntax.Operator
import Stencil.Value.Text
/-!
# Operations on values

Conversion to numbers and primitive values, the two equalities, and the binary operators that
templates allow.
-/

set_option autoImplicit false

namespace Stencil.Value

open Stencil.Syntax (BinaryOp)

/-! ## Numbers -/

/-- What is no number. -/
def notANumber : Float := 0.0 / 0.0

/-- Whether the character is dropped at the ends of a text that is read as a number: the Unicode
property `White_Space`, and the byte order mark. -/
def isMargin (c : Char) : Bool :=
  ('\u0009' ≤ c && c ≤ '\u000d') || c = ' ' || c = '\u0085' || c = '\u00a0' || c = '\u1680' ||
  ('\u2000' ≤ c && c ≤ '\u200a') || c = '\u2028' || c = '\u2029' || c = '\u202f' ||
  c = '\u205f' || c = '\u3000' || c = '\ufeff'

/-- A text without what is dropped at its ends. -/
def trimmed (cs : List Char) : List Char :=
  ((cs.dropWhile isMargin).reverse.dropWhile isMargin).reverse

/-- The value of a text without a sign: the word for infinity or a decimal literal. -/
def magnitudeOfText (digits : List Char) : Float :=
  if digits = "Infinity".toList then Number.Decimal.infinity
  else
    match Number.Literal.decimal? digits with
    | some d => d.toFloat
    | none => notANumber

/-- The number that a text spells. A hexadecimal number has no sign. -/
def numberOfText (text : String) : Float :=
  match trimmed text.toList with
  | [] => 0.0
  | '-' :: digits => -1.0 * magnitudeOfText digits
  | '+' :: digits => magnitudeOfText digits
  | digits =>
    match Number.Literal.hexBody? digits with
    | some _ => (Number.Literal.value? digits).getD notANumber
    | none => magnitudeOfText digits

/-- The number that a value stands for. -/
def toNumber : Value → Float
  | undefined => notANumber
  | null => 0.0
  | bool value => if value then 1.0 else 0.0
  | number value => value
  | string text => numberOfText text
  | array _ [] => 0.0
  | array _ [item] => numberOfText item.display
  | _ => notANumber

/-- The value as an operand of `+` and of comparisons: compound values become their text. -/
def toPrimitive : Value → Value
  | undefined => undefined
  | null => null
  | bool value => bool value
  | number value => number value
  | string text => string text
  | other => string other.display

/-! ## Equality -/

/-- Equality without conversion; compound values are equal when they are the same. -/
def same : Value → Value → Bool
  | undefined, undefined => true
  | null, null => true
  | bool a, bool b => a = b
  | number a, number b => a == b
  | string a, string b => a = b
  | array a _, array b _ => a = b
  | object a _, object b _ => a = b
  | function a, function b => a = b
  | dynamic a, dynamic b => a = b
  | iterable a, iterable b => a = b
  | stream a, stream b => a = b
  | _, _ => false

mutual

/-- Equality of contents: arrays item by item, objects key by key in any order. -/
def alike : Value → Value → Bool
  | array _ items, array _ others => alikeItems items others
  | object _ entries, object _ others =>
    entries.length = others.length && alikeEntries entries others
  | a, b => same a b

/-- Equality of contents, item by item. -/
def alikeItems : List Value → List Value → Bool
  | [], [] => true
  | a :: items, b :: others => alike a b && alikeItems items others
  | _, _ => false

/-- Whether every entry has its like among the others. -/
def alikeEntries : List (String × Value) → List (String × Value) → Bool
  | [], _ => true
  | (key, value) :: rest, others =>
    (match Table.get? others key with
      | some other => alike value other
      | none => false)
      && alikeEntries rest others

end

/-! ## Operators -/

/-- The sum of two values; it is their joined text if one of them is text. -/
def add (left right : Value) : Value :=
  match left.toPrimitive, right.toPrimitive with
  | string a, b => string (a ++ b.display)
  | a, string b => string (a.display ++ b)
  | a, b => number (a.toNumber + b.toNumber)

/-- Compares two values: texts by their code points, all else by number. -/
def compare (texts : String → String → Bool) (numbers : Float → Float → Bool)
    (left right : Value) : Value :=
  match left.toPrimitive, right.toPrimitive with
  | string a, string b => bool (texts a b)
  | a, b => bool (numbers a.toNumber b.toNumber)

/-- The result of a binary operator that evaluates both operands. Templates do not allow the
others. -/
def binary? (op : BinaryOp) (left right : Value) : Option Value :=
  match op with
  | .eq => some (bool (same left right))
  | .ne => some (bool (!same left right))
  | .add => some (add left right)
  | .sub => some (number (left.toNumber - right.toNumber))
  | .mul => some (number (left.toNumber * right.toNumber))
  | .div => some (number (left.toNumber / right.toNumber))
  | .mod => some (number (Number.remainder left.toNumber right.toNumber))
  | .lt => some (compare (fun a b => a < b) (fun a b => a < b) left right)
  | .gt => some (compare (fun a b => b < a) (fun a b => b < a) left right)
  | .le => some (compare (fun a b => !(b < a : Bool)) (fun a b => a ≤ b) left right)
  | .ge => some (compare (fun a b => !(a < b : Bool)) (fun a b => b ≤ a) left right)
  | _ => none

end Stencil.Value
