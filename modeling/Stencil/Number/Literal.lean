import Stencil.Number.Decimal
import Stencil.Text.CharClass
/-!
# Number literals

A number literal is hexadecimal (`0x1f`), octal (a leading zero and octal digits only) or
decimal, with an optional fraction and an optional exponent. `Literal.value?` gives its value;
it is defined exactly on these three forms.
-/

set_option autoImplicit false

namespace Stencil.Number.Literal

open Stencil.Text

/-- The value of a run of digits, given the value of each, accumulated in a double. -/
def accumulate (base : Float) (digits : List Nat) : Float :=
  digits.foldl (fun total digit => total * base + digit.toFloat) 0.0

/-- The value of a run of decimal digits. -/
def decimalDigits (digits : List Char) : Nat :=
  digits.foldl (fun total c => total * 10 + (c.toNat - '0'.toNat)) 0

/-- Cuts a text at the first character of the given kind, which belongs to neither part. -/
def splitAtFirst (p : Char → Bool) : List Char → List Char × Option (List Char)
  | [] => ([], none)
  | c :: rest =>
    if p c then ([], some rest)
    else
      let (before, after) := splitAtFirst p rest
      (c :: before, after)

/-- An exponent: an optional sign and at least one digit. -/
def exponent? (cs : List Char) : Option Int :=
  let (negative, digits) :=
    match cs with
    | '+' :: rest => (false, rest)
    | '-' :: rest => (true, rest)
    | _ => (false, cs)
  if digits.isEmpty || !digits.all isDigit then none
  else
    let size : Int := decimalDigits digits
    some (if negative then -size else size)

/-- A decimal literal: digits with at most one point among them, at least one digit in all, and
an optional exponent behind `e` or `E`. -/
def decimal? (cs : List Char) : Option Decimal :=
  let (mantissa, power) := splitAtFirst (fun c => c = 'e' || c = 'E') cs
  let (whole, fraction) := splitAtFirst (· = '.') mantissa
  let fraction := fraction.getD []
  if (whole.isEmpty && fraction.isEmpty) || !whole.all isDigit || !fraction.all isDigit then none
  else
    let scale (e : Int) : Decimal := ⟨decimalDigits (whole ++ fraction), e - fraction.length⟩
    match power with
    | none => some (scale 0)
    | some text => (exponent? text).map scale

/-- The value of a decimal literal with an optional sign, or of the word for a number that is not
finite. -/
def signed? (cs : List Char) : Option Float :=
  let (negative, body) :=
    match cs with
    | '-' :: rest => (true, rest)
    | '+' :: rest => (false, rest)
    | _ => (false, cs)
  let magnitude :=
    if body = "Infinity".toList then some Decimal.infinity else (decimal? body).map Decimal.toFloat
  if cs = "NaN".toList then some (0.0 / 0.0)
  else magnitude.map fun value => if negative then -value else value

/-- The digits of a hexadecimal literal, if the text begins like one. -/
def hexBody? : List Char → Option (List Char)
  | '0' :: 'x' :: digits => some digits
  | '0' :: 'X' :: digits => some digits
  | _ => none

/-- Whether the text is a zero followed by octal digits. -/
def isOctal : List Char → Bool
  | '0' :: c :: rest => (c :: rest).all fun d => (octalValue? d).isSome
  | _ => false

/-- The value of a number literal, if the text is one. -/
def value? (cs : List Char) : Option Float :=
  match hexBody? cs with
  | some digits =>
    if digits.isEmpty || !digits.all (fun c => (hexValue? c).isSome) then none
    else some (accumulate 16.0 (digits.filterMap hexValue?))
  | none =>
    if isOctal cs then some (accumulate 8.0 (cs.filterMap octalValue?))
    else (decimal? cs).map Decimal.toFloat

end Stencil.Number.Literal
