/-!
# Reading integers

Whole numbers in decimal digits, with an optional sign and nothing else
around them.  A minus sign is for signed numbers only.  A number outside its
bounds is refused.
-/

namespace TypedStore
namespace Number

/-- The value of decimal digits, at least one. -/
def digitsValue? (digits : List Char) : Option Nat :=
  if digits.isEmpty then none
  else
    digits.foldl (fun value digit => do
      let value ← value
      if digit.isDigit then some (value * 10 + (digit.toNat - '0'.toNat)) else none) (some 0)

/-- An unsigned number of at most the given size. -/
def readNat? (highest : Nat) (text : String) : Option Nat := do
  let digits :=
    match text.toList with
    | '+' :: rest => rest
    | digits => digits
  let value ← digitsValue? digits
  if value ≤ highest then some value else none

/-- A signed number between two bounds. -/
def readInt? (lowest highest : Int) (text : String) : Option Int := do
  let value : Int ←
    match text.toList with
    | '-' :: rest => (digitsValue? rest).map fun value => -(value : Int)
    | '+' :: rest => (digitsValue? rest).map fun value => (value : Int)
    | digits => (digitsValue? digits).map fun value => (value : Int)
  if lowest ≤ value ∧ value ≤ highest then some value else none

/-- A number that fits a word of eight bytes. -/
def readWord? (text : String) : Option UInt64 :=
  (readNat? 0xffffffffffffffff text).map UInt64.ofNat

/-- A number that fits a signed word of eight bytes. -/
def readSigned? (text : String) : Option Int64 :=
  (readInt? (-0x8000000000000000) 0x7fffffffffffffff text).map Int64.ofInt

end Number
end TypedStore
