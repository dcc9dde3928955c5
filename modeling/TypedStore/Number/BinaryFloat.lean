/-!
# Binary floating point, by its bits

A float is handled through its bit pattern only.  A `FloatFormat` says how
many bits the fraction and the exponent take; `FloatFormat.decode` gives the
exact number `± mantissa · 2 ^ exponent` that a pattern stands for, and
`FloatFormat.nearest` the pattern nearest to a quotient of natural numbers, a
tie going to the even neighbour.  Conversions between formats, from integers
and the quotient of two floats are made of these two, in exact arithmetic.
-/

namespace TypedStore

/-- Widths of the fraction and of the exponent of a binary format. -/
structure FloatFormat where
  fractionBits : Nat
  exponentBits : Nat

/-- What a bit pattern stands for. -/
inductive FloatValue where
  /-- A not-a-number with its fraction bits. -/
  | nan (negative : Bool) (fraction : Nat)
  | infinite (negative : Bool)
  /-- The number `± mantissa · 2 ^ exponent`. -/
  | finite (negative : Bool) (mantissa : Nat) (exponent : Int)
  deriving DecidableEq, Repr

namespace FloatFormat

/-- The format of 32 bits. -/
def single : FloatFormat := ⟨23, 8⟩

/-- The format of 64 bits. -/
def double : FloatFormat := ⟨52, 11⟩

variable (format : FloatFormat)

/-- The exponent of the last place of the smallest numbers. -/
def lowestExponent : Int :=
  2 - Nat.pow 2 (format.exponentBits - 1) - format.fractionBits

/-- The pattern of positive infinity. -/
def infinity : Nat :=
  (Nat.pow 2 format.exponentBits - 1) * Nat.pow 2 format.fractionBits

/-- The weight of the sign bit. -/
def signBit : Nat :=
  Nat.pow 2 (format.fractionBits + format.exponentBits)

/-- Set the sign of a pattern without one. -/
def withSign (negative : Bool) (bits : Nat) : Nat :=
  if negative then format.signBit + bits else bits

/-- The value of a pattern. -/
def decode (bits : Nat) : FloatValue :=
  let negative := format.signBit ≤ bits
  let fraction := bits % Nat.pow 2 format.fractionBits
  let biased := bits / Nat.pow 2 format.fractionBits % Nat.pow 2 format.exponentBits
  if biased = Nat.pow 2 format.exponentBits - 1 then
    if fraction = 0 then .infinite negative else .nan negative fraction
  else if biased = 0 then .finite negative fraction format.lowestExponent
  else
    .finite negative (Nat.pow 2 format.fractionBits + fraction)
      (format.lowestExponent + biased - 1)

/-- The nearest natural number to a quotient; a tie goes to the even one. -/
def roundQuotient (numerator denominator : Nat) : Nat :=
  let whole := numerator / denominator
  let twice := 2 * (numerator % denominator)
  if twice < denominator then whole
  else if denominator < twice then whole + 1
  else whole + whole % 2

/-- A quotient divided by a power of two, as a quotient. -/
def scaled (numerator denominator : Nat) (exponent : Int) : Nat × Nat :=
  if 0 ≤ exponent then (numerator, denominator * Nat.pow 2 exponent.toNat)
  else (numerator * Nat.pow 2 (-exponent).toNat, denominator)

/-- The exponent of the last place with which a quotient fills the mantissa,
or the lowest exponent of the format. -/
def placeExponent (numerator denominator : Nat) : Int :=
  let estimate : Int := Nat.log2 numerator - Nat.log2 denominator - format.fractionBits
  let exponent := max format.lowestExponent estimate
  let (top, bottom) := scaled numerator denominator exponent
  if top / bottom < Nat.pow 2 format.fractionBits ∧ format.lowestExponent < exponent then
    exponent - 1
  else exponent

/-- The pattern nearest to a quotient, without a sign; infinity when the
quotient lies beyond the finite range. -/
def nearest (numerator denominator : Nat) : Nat :=
  if numerator = 0 then 0
  else
    let exponent := format.placeExponent numerator denominator
    let (top, bottom) := scaled numerator denominator exponent
    min format.infinity
      ((exponent - format.lowestExponent).toNat * Nat.pow 2 format.fractionBits
        + roundQuotient top bottom)

/-- The pattern nearest to `mantissa · 2 ^ exponent`. -/
def ofScaled (negative : Bool) (mantissa : Nat) (exponent : Int) : Nat :=
  let (top, bottom) := scaled mantissa 1 (-exponent)
  format.withSign negative (format.nearest top bottom)

/-- The pattern nearest to an integer. -/
def ofInt (value : Int) : Nat :=
  format.withSign (value < 0) (format.nearest value.natAbs 1)

/-- The pattern of a value in this format.  The fraction of a not-a-number is
given with the width it had in the format `source`; its leading bits are kept
and the quiet bit is set. -/
def encode (source : FloatFormat) : FloatValue → Nat
  | .nan negative fraction =>
    let moved := fraction * Nat.pow 2 format.fractionBits / Nat.pow 2 source.fractionBits
    let quiet := Nat.pow 2 (format.fractionBits - 1)
    format.withSign negative
      (format.infinity + (if moved / quiet % 2 = 1 then moved else moved + quiet))
  | .infinite negative => format.withSign negative format.infinity
  | .finite negative mantissa exponent => format.ofScaled negative mantissa exponent

/-- The size of a finite pattern as a quotient, the sign left out; nothing
for patterns that are not finite. -/
def quotient? (bits : Nat) : Option (Nat × Nat) :=
  match format.decode bits with
  | .finite _ mantissa exponent => some (scaled mantissa 1 (-exponent))
  | _ => none

/-- The sum of two finite patterns without signs. -/
def add? (first second : Nat) : Option Nat := do
  let (firstTop, firstBottom) ← format.quotient? first
  let (secondTop, secondBottom) ← format.quotient? second
  return format.nearest (firstTop * secondBottom + secondTop * firstBottom)
    (firstBottom * secondBottom)

/-- The quotient of two finite patterns without signs; nothing divides by
zero. -/
def divide? (first second : Nat) : Option Nat := do
  let (firstTop, firstBottom) ← format.quotient? first
  let (secondTop, secondBottom) ← format.quotient? second
  if secondTop = 0 then none
  else some (format.nearest (firstTop * secondBottom) (firstBottom * secondTop))

end FloatFormat

/-- The double precision pattern of a single precision one. -/
def widen (bits : UInt32) : UInt64 :=
  UInt64.ofNat (FloatFormat.double.encode .single (FloatFormat.single.decode bits.toNat))

/-- The single precision pattern nearest to a double precision one. -/
def narrow (bits : UInt64) : UInt32 :=
  UInt32.ofNat (FloatFormat.single.encode .double (FloatFormat.double.decode bits.toNat))

/-- The double precision pattern nearest to an integer. -/
def doubleOfInt (value : Int) : UInt64 :=
  UInt64.ofNat (FloatFormat.double.ofInt value)

/-- The single precision pattern nearest to an integer. -/
def singleOfInt (value : Int) : UInt32 :=
  UInt32.ofNat (FloatFormat.single.ofInt value)

end TypedStore
