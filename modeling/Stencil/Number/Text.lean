import Stencil.Number.Decimal
/-!
# Numbers as text

How a double is written is decided by a `Style`: where positional writing ends, how whole
numbers, exponents, zeros and infinities are spelt. All styles write the fewest digits that
read back.
-/

set_option autoImplicit false

namespace Stencil.Number

/-- The choices a form of number text makes. -/
structure Style where
  /-- The least exponent of the leading digit that is still written positionally. -/
  least : Int
  /-- The greatest exponent of the leading digit that is still written positionally. -/
  greatest : Int
  /-- Whether a whole number in positional form ends in `.0`. -/
  wholeAsFraction : Bool
  /-- What is written between the digits and an exponent that is not negative. -/
  exponentMark : String
  /-- The text of positive infinity. -/
  infinity : String
  /-- Whether the sign of a negative zero is written. -/
  signedZero : Bool
  /-- Which of two equally short and equally near decimals is written. -/
  tie : Tie

/-- Numbers as the scripting language writes them: positional from `1e-6` to below `1e21`. -/
def scriptStyle : Style := ⟨-6, 20, false, "e+", "Infinity", false, .toGreater⟩

/-- Numbers as the scripting language writes them, but with the sign of a negative zero, so that
no two numbers are written alike. -/
def exactStyle : Style := { scriptStyle with signedZero := true }

/-- Numbers written out in full, without an exponent. -/
def plainStyle : Style := ⟨-400, 400, false, "e", "inf", true, .toGreater⟩

/-- Numbers of a JSON document: a whole number keeps a fraction of zero, and a tie goes to the
even neighbour. -/
def jsonStyle : Style := ⟨-5, 15, true, "e+", "inf", true, .toEven⟩

namespace Style

/-- A fraction part, with its point; a whole number has one only where the style asks. -/
def fractionText (style : Style) (digits : List Char) : List Char :=
  if digits.isEmpty then (if style.wholeAsFraction then ['.', '0'] else []) else '.' :: digits

/-- A positive decimal written positionally. -/
def positional (style : Style) (d : Decimal) : List Char :=
  let digits := Nat.toDigits 10 d.digits
  if 0 ≤ d.exponent then
    digits ++ List.replicate d.exponent.toNat '0' ++ style.fractionText []
  else
    let places := (-d.exponent).toNat
    if places < digits.length then
      let whole := digits.length - places
      digits.take whole ++ style.fractionText (digits.drop whole)
    else
      '0' :: style.fractionText (List.replicate (places - digits.length) '0' ++ digits)

/-- A positive decimal written with an exponent: one digit before the point. -/
def scientific (style : Style) (d : Decimal) : List Char :=
  let mantissa :=
    match Nat.toDigits 10 d.digits with
    | [] => []
    | first :: rest => if rest.isEmpty then [first] else first :: '.' :: rest
  let power :=
    match d.magnitude with
    | .ofNat n => style.exponentMark.toList ++ Nat.toDigits 10 n
    | .negSucc n => 'e' :: '-' :: Nat.toDigits 10 (n + 1)
  mantissa ++ power

/-- Whether the sign bit of the double is set. -/
def isNegative (value : Float) : Bool :=
  Nat.pow 2 63 ≤ value.toBits.toNat

/-- The text of a double in the given style. -/
def write (style : Style) (value : Float) : String :=
  if value.isNaN then "NaN"
  else
    let sign := if isNegative value then "-" else ""
    if value.isInf then sign ++ style.infinity
    else
      let d := Decimal.shortest style.tie value
      if d.digits = 0 then
        (if style.signedZero then sign else "") ++ String.ofList ('0' :: style.fractionText [])
      else
        let body :=
          if style.least ≤ d.magnitude ∧ d.magnitude ≤ style.greatest then style.positional d
          else style.scientific d
        sign ++ String.ofList body

end Style

/-- The text of a number in the scripting language. -/
def toText (value : Float) : String :=
  scriptStyle.write value

/-! ## The remainder of a division

The remainder of `x / y` has the sign of `x` and is smaller than `y`; it is exact. Both numbers
are written as whole multiples of one power of two, and the remainder of the multiples is taken. -/

/-- The remainder of the magnitudes of two finite doubles, the second not zero. -/
def remainderOfMagnitudes (x y : Float) : Float :=
  let a := Binary.ofBits x.toBits.toNat
  let b := Binary.ofBits y.toBits.toNat
  let unit := min a.exponent b.exponent
  let rest := (a.significand * Nat.pow 2 (a.exponent - unit).toNat)
    % (b.significand * Nat.pow 2 (b.exponent - unit).toNat)
  (rest.toFloat).scaleB unit

/-- The remainder of a division, with the sign of the dividend. It is no number when the dividend
is not finite or the divisor is zero. -/
def remainder (x y : Float) : Float :=
  if x.isNaN || y.isNaN || x.isInf || y == 0.0 then 0.0 / 0.0
  else if y.isInf || x == 0.0 then x
  else
    let size := remainderOfMagnitudes x y
    if Style.isNegative x then -size else size

end Stencil.Number
