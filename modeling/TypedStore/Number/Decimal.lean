import TypedStore.Number.BinaryFloat

/-!
# Decimal text of floats

`shortest?` finds the fewest decimal digits that read back as a given float:
on each decimal grid, coarse to fine, it tests the two neighbours of the value
against the interval of reals that round to it, a tie going up.  The text is
positional throughout, without an exponent and without a trailing point.

`fixed` writes a float with a fixed number of places, exactly rounded, a tie
going to the even digit.
-/

namespace TypedStore
namespace Decimal

/-- The reals that round to a finite positive float, all over one common
denominator.  The two ends belong to it when the mantissa is even. -/
structure Interval where
  low : Nat
  value : Nat
  high : Nat
  denominator : Nat
  closed : Bool

/-- The interval around `mantissa · 2 ^ exponent`.  Below a power of two the
next float is only half as far away, except at the bottom of the range. -/
def Interval.around (format : FloatFormat) (mantissa : Nat) (exponent : Int) : Interval :=
  let narrowBelow :=
    mantissa == Nat.pow 2 format.fractionBits && decide (format.lowestExponent < exponent)
  let below := if narrowBelow then 1 else 2
  let scale := Nat.pow 2 (exponent - 2).toNat
  { low := (4 * mantissa - below) * scale
    value := 4 * mantissa * scale
    high := (4 * mantissa + 2) * scale
    denominator := Nat.pow 2 (2 - exponent).toNat
    closed := mantissa % 2 == 0 }

/-- Whether a multiple of a power of ten lies in the interval. -/
def Interval.holds (interval : Interval) (digits : Nat) (power : Int) : Bool :=
  let scaleUp := Nat.pow 10 power.toNat
  let scaleDown := Nat.pow 10 (-power).toNat
  let point := digits * scaleUp * interval.denominator
  if interval.closed then
    interval.low * scaleDown ≤ point && point ≤ interval.high * scaleDown
  else
    interval.low * scaleDown < point && point < interval.high * scaleDown

/-- The power of ten of the leading digit of a positive quotient. -/
def leadingPower (numerator denominator : Nat) : Int :=
  if denominator ≤ numerator then
    ((Nat.toDigits 10 (numerator / denominator)).length : Int) - 1
  else
    let upper := (Nat.toDigits 10 (denominator / numerator)).length
    if denominator ≤ numerator * Nat.pow 10 (upper - 1) then 1 - (upper : Int) else -(upper : Int)

/-- On the grid of multiples of a power of ten, the neighbour of the value
that reads back; if both do, the nearer one, and of a tie the upper one. -/
def Interval.neighbour? (interval : Interval) (power : Int) : Option Nat :=
  let top := interval.value * Nat.pow 10 (-power).toNat
  let bottom := interval.denominator * Nat.pow 10 power.toNat
  let lower := top / bottom
  let upperIsAsNear := bottom ≤ 2 * (top % bottom)
  match interval.holds lower power, interval.holds (lower + 1) power with
  | true, true => some (if upperIsAsNear then lower + 1 else lower)
  | true, false => some lower
  | false, true => some (lower + 1)
  | false, false => none

/-- The digits and the power of ten of the shortest decimal that reads back
as `mantissa · 2 ^ exponent`.  Seventeen digits always do. -/
def shortest? (format : FloatFormat) (mantissa : Nat) (exponent : Int) : Option (Nat × Int) :=
  let interval := Interval.around format mantissa exponent
  let leading := leadingPower interval.value interval.denominator
  (List.range 17).findSome? fun (count : Nat) =>
    (interval.neighbour? (leading - count)).map fun digits => (digits, leading - count)

/-- A decimal in positional notation, without needless zeros. -/
def positional (digits : Nat) (power : Int) : String :=
  if 0 ≤ power then toString (digits * Nat.pow 10 power.toNat)
  else
    let places := (-power).toNat
    let whole := digits / Nat.pow 10 places
    let part := (toString (digits % Nat.pow 10 places)).toList
    let padded := List.replicate (places - part.length) '0' ++ part
    let kept := (padded.reverse.dropWhile (· == '0')).reverse
    if kept.isEmpty then toString whole else toString whole ++ "." ++ String.ofList kept

/-- The shortest positional text that reads back as a float. -/
def text (format : FloatFormat) (bits : Nat) : String :=
  match format.decode bits with
  | .nan _ _ => "NaN"
  | .infinite negative => if negative then "-inf" else "inf"
  | .finite negative mantissa exponent =>
    let body :=
      if mantissa = 0 then "0"
      else
        match shortest? format mantissa exponent with
        | some (digits, power) => positional digits power
        | none => "0"
    if negative then "-" ++ body else body

/-- A quotient with exactly `places` digits after the point, rounded to
nearest, a tie going to the even digit. -/
def fixed (places : Nat) (numerator denominator : Nat) : String :=
  let units := FloatFormat.roundQuotient (numerator * Nat.pow 10 places) denominator
  let part := (toString (units % Nat.pow 10 places)).toList
  let padded := List.replicate (places - part.length) '0' ++ part
  toString (units / Nat.pow 10 places) ++ "." ++ String.ofList padded

end Decimal
end TypedStore
