import TypedStore.Wire

/-!
# The written form of wire values

Every value has one written form, the shortest that the format offers:
integers take the fewest bytes that hold them, and a text, a byte string, an
array, a map or an extension takes the shortest header that holds its length.
Lengths are written modulo `2 ^ 32`, the largest the format knows.
-/

namespace TypedStore
namespace Wire

/-- A one-byte marker and the number that follows it in `width` bytes. -/
def numbered (marker : UInt8) (width value : Nat) : Bytes :=
  marker :: Bytes.ofNat width value

/-- The shortest form of an integer. -/
def writeInt (value : WireInt) : Bytes :=
  let bits := (value.val % 0x10000000000000000).toNat
  if 0 ≤ value.val then
    if bits < 0x80 then [UInt8.ofNat bits]
    else if bits < 0x100 then numbered 0xcc 1 bits
    else if bits < 0x10000 then numbered 0xcd 2 bits
    else if bits < 0x100000000 then numbered 0xce 4 bits
    else numbered 0xcf 8 bits
  else
    if -0x20 ≤ value.val then [UInt8.ofNat bits]
    else if -0x80 ≤ value.val then numbered 0xd0 1 bits
    else if -0x8000 ≤ value.val then numbered 0xd1 2 bits
    else if -0x80000000 ≤ value.val then numbered 0xd2 4 bits
    else numbered 0xd3 8 bits

/-- The header of a text of this many bytes. -/
def textHeader (length : Nat) : Bytes :=
  if length < 0x20 then [UInt8.ofNat (0xa0 + length)]
  else if length < 0x100 then numbered 0xd9 1 length
  else if length < 0x10000 then numbered 0xda 2 length
  else numbered 0xdb 4 length

/-- The header of a byte string of this length. -/
def binHeader (length : Nat) : Bytes :=
  if length < 0x100 then numbered 0xc4 1 length
  else if length < 0x10000 then numbered 0xc5 2 length
  else numbered 0xc6 4 length

/-- The header of an array of this many items. -/
def arrayHeader (length : Nat) : Bytes :=
  if length < 0x10 then [UInt8.ofNat (0x90 + length)]
  else if length < 0x10000 then numbered 0xdc 2 length
  else numbered 0xdd 4 length

/-- The header of a map of this many entries. -/
def mapHeader (length : Nat) : Bytes :=
  if length < 0x10 then [UInt8.ofNat (0x80 + length)]
  else if length < 0x10000 then numbered 0xde 2 length
  else numbered 0xdf 4 length

/-- The header of an extension with this many data bytes, its type number
excluded. -/
def extHeader (length : Nat) : Bytes :=
  if length = 1 then [0xd4]
  else if length = 2 then [0xd5]
  else if length = 4 then [0xd6]
  else if length = 8 then [0xd7]
  else if length = 16 then [0xd8]
  else if length < 0x100 then numbered 0xc7 1 length
  else if length < 0x10000 then numbered 0xc8 2 length
  else numbered 0xc9 4 length

/-- The written form of a text. -/
def writeText (text : String) : Bytes :=
  let bytes := Bytes.utf8 text
  textHeader bytes.length ++ bytes

mutual

/-- The written form of a value. -/
def write : Wire → Bytes
  | .nil => [0xc0]
  | .bool value => [if value then 0xc3 else 0xc2]
  | .int value => writeInt value
  | .f32 bits => numbered 0xca 4 bits.toNat
  | .f64 bits => numbered 0xcb 8 bits.toNat
  | .str text => writeText text
  | .bin bytes => binHeader bytes.length ++ bytes
  | .array items => arrayHeader items.length ++ writeItems items
  | .map entries => mapHeader entries.length ++ writeEntries entries
  | .ext type data => extHeader data.length ++ type.toUInt8 :: data

/-- The written forms of the items of an array, one after another. -/
def writeItems : List Wire → Bytes
  | [] => []
  | item :: rest => write item ++ writeItems rest

/-- The written forms of the keys and values of a map, one after another. -/
def writeEntries : List (Wire × Wire) → Bytes
  | [] => []
  | (key, value) :: rest => write key ++ (write value ++ writeEntries rest)

end

end Wire
end TypedStore
