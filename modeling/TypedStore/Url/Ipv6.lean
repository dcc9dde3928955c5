import TypedStore.Bytes
import TypedStore.Number.Integer

/-!
# IPv6 addresses

Reading an address of eight pieces of sixteen bits, of which one run of zeros
may be left out with two colons and the last two may be written as an IPv4
address; and writing it with the first of its longest runs of two or more
zeros left out.
-/

namespace TypedStore
namespace Ipv6

/-- Cut a text at each colon. -/
def cutAtColons (text : List Char) : List (List Char) :=
  text.splitOn ':'

/-- One piece: one to four hexadecimal digits. -/
def piece? (digits : List Char) : Option Nat :=
  if digits.isEmpty || 4 < digits.length then none
  else
    digits.foldl (fun value digit => do
      return (← value) * 16 + (← Bytes.hexValue? digit)) (some 0)

/-- One part of an IPv4 address: a number up to 255 without leading zeros. -/
def octet? (digits : List Char) : Option Nat := do
  if 1 < digits.length && digits.head? == some '0' then none
  else
    let value ← Number.digitsValue? digits
    if value ≤ 255 then some value else none

/-- The two pieces of an IPv4 address. -/
def embedded? (text : List Char) : Option (List Nat) := do
  match ← (text.splitOn '.').mapM octet? with
  | [first, second, third, fourth] => some [first * 256 + second, third * 256 + fourth]
  | _ => none

/-- The pieces between colons; the last may be an IPv4 address. -/
def pieces? (mayEmbed : Bool) : List (List Char) → Option (List Nat)
  | [] => some []
  | [last] =>
    if mayEmbed && last.contains '.' then embedded? last else (piece? last).map fun value => [value]
  | digits :: rest => do
    let value ← piece? digits
    return value :: (← pieces? mayEmbed rest)

/-- What stands before and after the first two colons in a row. -/
def cutAtGap : List Char → Option (List Char × List Char)
  | ':' :: ':' :: rest => some ([], rest)
  | character :: rest => (cutAtGap rest).map fun (before, after) => (character :: before, after)
  | [] => none

/-- The pieces in a text that may be empty. -/
def side? (mayEmbed : Bool) (text : List Char) : Option (List Nat) :=
  if text.isEmpty then some [] else pieces? mayEmbed (cutAtColons text)

/-- The eight pieces of an address. -/
def parse? (text : List Char) : Option (List Nat) := do
  match cutAtGap text with
  | none =>
    let pieces ← pieces? true (cutAtColons text)
    if pieces.length = 8 then some pieces else none
  | some (before, after) =>
    let front ← side? false before
    let back ← side? true after
    if front.length + back.length ≤ 7 then
      some (front ++ List.replicate (8 - front.length - back.length) 0 ++ back)
    else none

/-- The length of the run of zeros at the front. -/
def zerosAhead (pieces : List Nat) : Nat :=
  (pieces.takeWhile (· == 0)).length

/-- The place and the length of the first of the longest runs of zeros. -/
def longestRun : (place : Nat) → List Nat → Nat × Nat
  | _, [] => (0, 0)
  | place, piece :: rest =>
    let here := zerosAhead (piece :: rest)
    let (later, length) := longestRun (place + 1) rest
    if length ≤ here then (place, here) else (later, length)

/-- Pieces with colons between them. -/
def joined (pieces : List Nat) : String :=
  ":".intercalate (pieces.map fun piece => String.ofList (Nat.toDigits 16 piece))

/-- The text of an address. -/
def text (pieces : List Nat) : String :=
  let (place, length) := longestRun 0 pieces
  if length < 2 then joined pieces
  else joined (pieces.take place) ++ "::" ++ joined (pieces.drop (place + length))

end Ipv6
end TypedStore
