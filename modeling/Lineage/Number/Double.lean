import Lineage.Number.Natural

/-!
# Binary fractions in decimal

A double-precision number is written with the fewest decimal digits that still
single it out among all doubles, and among those the digits nearest to it.  The
search is exact: the number and the ends of the interval of reals that round to
it are natural numbers over one common denominator, and the candidates are the
two neighbours of the number on each decimal grid, the coarsest grid first.

Two layouts place those digits.  The positional layout never uses an exponent;
the compact layout does so for very large and very small numbers.
-/

namespace Lineage

/-- Decimal digits and the power of ten that the last of them counts. -/
structure Decimal where
  digits : Nat
  exponent : Int
  deriving DecidableEq, Repr

namespace Double

/-- The exact ratio of a positive finite double, with the ends of its rounding
interval over the same denominator. -/
structure Interval where
  low : Nat
  middle : Nat
  high : Nat
  denominator : Nat
  closed : Bool

/-- The rounding interval of a significand scaled by a power of two. -/
def interval (significand : Nat) (exponent : Int) (isBoundary : Bool) : Interval :=
  let below := if isBoundary then 1 else 2
  let up := Nat.pow 2 (exponent - 2).toNat
  { low := (4 * significand - below) * up
    middle := 4 * significand * up
    high := (4 * significand + 2) * up
    denominator := Nat.pow 2 (2 - exponent).toNat
    closed := significand % 2 = 0 }

def Interval.contains (range : Interval) (numerator scale : Nat) : Bool :=
  let value := numerator * range.denominator
  if range.closed then range.low * scale ≤ value && value ≤ range.high * scale
  else range.low * scale < value && value < range.high * scale

/-- The neighbours of a number on the grid of multiples of a power of ten: the
one that rounds to the number and lies nearer to it, if either does. -/
def onGrid (range : Interval) (exponent : Int) : Option Nat :=
  let unit := Nat.pow 10 exponent.toNat
  let scale := Nat.pow 10 (-exponent).toNat
  let step := range.denominator * unit
  let floor := range.middle * scale / step
  let lowFits := 0 < floor && range.contains (floor * unit) scale
  let highFits := range.contains ((floor + 1) * unit) scale
  let remainder := range.middle * scale % step
  if lowFits && (!highFits || 2 * remainder < step || (2 * remainder = step && floor % 2 = 0)) then
    some floor
  else if highFits then some (floor + 1)
  else none

/-- Tries the decimal grids from a coarse one downward. -/
def searchGrid (range : Interval) : Nat → Int → Decimal
  | 0, exponent => ⟨0, exponent⟩
  | fuel + 1, exponent =>
    match onGrid range exponent with
    | some digits => ⟨digits, exponent⟩
    | none => searchGrid range fuel (exponent - 1)

/-- The shortest digits of a positive finite double given by its parts. -/
def shortest (significand : Nat) (exponent : Int) (isBoundary : Bool) : Decimal :=
  let range := interval significand exponent isBoundary
  let whole := (Natural.digits (range.middle / range.denominator)).length
  let reciprocal := (Natural.digits (range.denominator / range.middle)).length
  let coarsest : Int :=
    if range.denominator ≤ range.middle then (whole : Int) else 1 - (reciprocal : Int)
  searchGrid range 24 coarsest

/-- A double taken apart: nothing for an infinity or for what is no number. -/
def decompose (value : Float) : Option (Bool × Decimal) :=
  let bits := value.toBits.toNat
  let isNegative := decide (Nat.pow 2 63 ≤ bits)
  let biased : Nat := bits / Nat.pow 2 52 % Nat.pow 2 11
  let fraction : Nat := bits % Nat.pow 2 52
  if biased = 2047 then none
  else if biased = 0 then
    if fraction = 0 then some (isNegative, ⟨0, 0⟩)
    else some (isNegative, shortest fraction (-1074) false)
  else
    some (isNegative, shortest (Nat.pow 2 52 + fraction) ((biased : Int) - 1075)
      (fraction = 0 && 1 < biased))

/-- Digits with a point after the given number of places, padded with zeros. -/
def placed (digits : List Char) (places : Int) : String :=
  let count : Int := digits.length
  if count ≤ places then
    String.ofList (digits ++ List.replicate (places - count).toNat '0') ++ ".0"
  else if 0 < places then
    String.ofList (digits.take places.toNat) ++ "." ++ String.ofList (digits.drop places.toNat)
  else
    "0." ++ String.ofList (List.replicate (-places).toNat '0' ++ digits)

/-- The text of a double without an exponent, always with a fractional part. -/
def positional (value : Float) : String :=
  match decompose value with
  | none => if value.isNaN then "NaN" else if value < 0 then "-inf" else "inf"
  | some (isNegative, decimal) =>
    let digits := Natural.digits decimal.digits
    (if isNegative then "-" else "") ++ placed digits (digits.length + decimal.exponent)

/-- The text of a double, with an exponent when the point would stand far from
the digits. -/
def compact (value : Float) : String :=
  match decompose value with
  | none => "null"
  | some (isNegative, decimal) =>
    let digits := Natural.digits decimal.digits
    let places : Int := digits.length + decimal.exponent
    let sign := if isNegative then "-" else ""
    if decimal.digits = 0 then sign ++ "0.0"
    else if -5 < places ∧ places ≤ 16 then sign ++ placed digits places
    else
      let exponent := places - 1
      let tail := digits.drop 1
      sign ++ String.ofList (digits.take 1)
        ++ (if tail.isEmpty then "" else "." ++ String.ofList tail)
        ++ "e" ++ (if exponent < 0 then "-" else "") ++ Natural.render exponent.natAbs

end Double

end Lineage
