/-!
# Decimals and binary floating point

A decimal is a whole number of units of a power of ten. `Decimal.shortest` finds the decimal
with the fewest digits that reads back as a given double, and `Decimal.toFloat` reads a decimal
as the nearest double.
-/

set_option autoImplicit false

namespace Stencil.Number

/-- The decimal `digits * 10 ^ exponent`. -/
structure Decimal where
  digits : Nat
  exponent : Int
deriving DecidableEq

namespace Decimal

/-- The number of decimal digits of a positive number. -/
def digitCount (n : Nat) : Nat :=
  (Nat.toDigits 10 n).length

/-- Removes zeros at the end of the digits. The first argument bounds their number. -/
def trimWithin : Nat → Decimal → Decimal
  | 0, d => d
  | n + 1, d =>
    if d.digits ≠ 0 ∧ d.digits % 10 = 0 then trimWithin n ⟨d.digits / 10, d.exponent + 1⟩ else d

/-- The same decimal without zeros at the end of its digits. -/
def trim (d : Decimal) : Decimal :=
  trimWithin (digitCount d.digits) d

/-- The exponent of the leading digit: `d` lies between `10 ^ d.magnitude` and the next power
of ten. -/
def magnitude (d : Decimal) : Int :=
  d.exponent + digitCount d.digits - 1

end Decimal

/-- A positive finite double, `significand * 2 ^ exponent`. -/
structure Binary where
  significand : Nat
  exponent : Int
  /-- Whether the double below is only half as far away as the one above: so it is at the
  powers of two. -/
  narrowBelow : Bool
deriving DecidableEq

/-- Which of two neighbours stands for a number that lies halfway between them. -/
inductive Tie where
  | toGreater
  | toEven
deriving DecidableEq

/-- Whether the lower neighbour, which has the given count of units, wins a tie. -/
def Tie.takesLower (tie : Tie) (count : Nat) : Bool :=
  tie = .toEven && count % 2 = 0

namespace Binary

/-- The magnitude of a finite double, from its bits. -/
def ofBits (bits : Nat) : Binary :=
  let biased : Nat := bits / Nat.pow 2 52 % 2048
  let fraction : Nat := bits % Nat.pow 2 52
  if biased = 0 then ⟨fraction, -1074, false⟩
  else ⟨Nat.pow 2 52 + fraction, (biased : Int) - 1075, fraction = 0 && biased > 1⟩

/-- The exponent of the greatest power of ten that is not above the number. -/
def magnitude (b : Binary) : Int :=
  let numerator := b.significand * Nat.pow 2 b.exponent.toNat
  let denominator := Nat.pow 2 (-b.exponent).toNat
  if denominator ≤ numerator then (Decimal.digitCount (numerator / denominator) : Int) - 1
  else - (Decimal.digitCount ((denominator - 1) / numerator) : Int)

/-- The neighbour of the number on the grid of the given power of ten, if one of the two reads
back as the number: of two that do, the nearer, and of two that are equally near the one that
the tie rule takes.

Multiples of `10 ^ unit` are compared with quarters of the last binary place: `count` units
equal `quarters` quarters exactly when `count * perUnit = quarters * perQuarter`. -/
def onGrid (b : Binary) (tie : Tie) (unit : Int) : Option Nat :=
  let perUnit := Nat.pow 10 unit.toNat * Nat.pow 2 (2 - b.exponent).toNat
  let perQuarter := Nat.pow 10 (-unit).toNat * Nat.pow 2 (b.exponent - 2).toNat
  let exact := 4 * b.significand * perQuarter
  let least := (4 * b.significand - if b.narrowBelow then 1 else 2) * perQuarter
  let greatest := (4 * b.significand + 2) * perQuarter
  let closed := b.significand % 2 = 0
  let reads (count : Nat) : Bool :=
    let at_ := count * perUnit
    if closed then least ≤ at_ && at_ ≤ greatest else least < at_ && at_ < greatest
  let below := exact / perUnit
  let above := below + 1
  match reads below, reads above with
  | true, true =>
    let fromBelow := exact - below * perUnit
    let toAbove := above * perUnit - exact
    some
      (if fromBelow < toAbove || (fromBelow = toAbove && tie.takesLower below) then below
        else above)
  | true, false => some below
  | false, true => some above
  | false, false => none

/-- Tries the grids from the coarsest to the finest; `tries` more are left, and the last is
taken whatever it gives. -/
def shortestFrom (b : Binary) (tie : Tie) (unit : Int) : Nat → Decimal
  | 0 => ⟨(b.onGrid tie unit).getD 0, unit⟩
  | tries + 1 =>
    match b.onGrid tie unit with
    | some count => ⟨count, unit⟩
    | none => shortestFrom b tie (unit - 1) tries

end Binary

namespace Decimal

/-- The decimal with the fewest digits that reads back as the magnitude of the double, and of
those the nearest. Seventeen digits always suffice. -/
def shortest (tie : Tie) (value : Float) : Decimal :=
  let b := Binary.ofBits value.toBits.toNat
  if b.significand = 0 then ⟨0, 0⟩
  else (b.shortestFrom tie b.magnitude 17).trim

/-- Infinity. -/
def infinity : Float := 1.0 / 0.0

/-- The double nearest to the decimal. A decimal beyond `10 ^ 310` is infinite and one below
`10 ^ -330` is zero, so the powers of ten that are computed stay small. -/
def toFloat (d : Decimal) : Float :=
  if d.digits = 0 then 0.0
  else if 310 < d.magnitude then infinity
  else if d.magnitude < -330 then 0.0
  else
    match d.exponent with
    | .ofNat e => Float.ofScientific d.digits false e
    | .negSucc e => Float.ofScientific d.digits true (e + 1)

end Decimal

end Stencil.Number
