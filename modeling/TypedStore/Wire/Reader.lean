import TypedStore.Wire

/-!
# Reading wire values

A value is read from its marker byte on.  `readHead` reads everything up to
the first nested value: a scalar with its data, or the header of an array or
a map.  `read` completes the head to a value; it takes the number of nesting
levels that may still be opened, and a container or an extension that finds
none left is refused.  Any length form of the format is accepted.  A text
that is not UTF-8 is taken as a byte string.

`maxDepth` is the number of levels that a whole payload may use.
-/

namespace TypedStore
namespace Wire

/-- What stands before the first nested value. -/
inductive Head where
  | nil
  | bool (value : Bool)
  /-- An integer, and whether its form is one of the signed ones. -/
  | int (signed : Bool) (value : WireInt)
  | f32 (bits : UInt32)
  | f64 (bits : UInt64)
  /-- The bytes of a text, not yet known to be UTF-8. -/
  | str (bytes : Bytes)
  | bin (bytes : Bytes)
  | array (length : Nat)
  | map (length : Nat)
  | ext (type : Int8) (data : Bytes)

/-- The number in the first `width` bytes. -/
def readNat (width : Nat) (bytes : Bytes) : Option (Nat × Bytes) :=
  (Bytes.take? width bytes).map fun (number, rest) => (Bytes.toNat number, rest)

/-- An unsigned integer in `width` bytes. -/
def readUnsigned (width : Nat) (bytes : Bytes) : Option (Head × Bytes) :=
  (readNat width bytes).map fun (value, rest) => (.int false (.ofWord (UInt64.ofNat value)), rest)

/-- A signed integer in `width` bytes, in two's complement. -/
def readSigned (width : Nat) (bytes : Bytes) : Option (Head × Bytes) :=
  (readNat width bytes).map fun (value, rest) =>
    (.int true (.ofSigned (Int64.ofInt (Int.bmod value (Nat.pow 2 (8 * width))))), rest)

/-- Data of a known length. -/
def readData (make : Bytes → Head) (length : Nat) (bytes : Bytes) : Option (Head × Bytes) :=
  (Bytes.take? length bytes).map fun (data, rest) => (make data, rest)

/-- Data whose length stands before it in `width` bytes. -/
def readSized (make : Bytes → Head) (width : Nat) (bytes : Bytes) : Option (Head × Bytes) := do
  let (length, rest) ← readNat width bytes
  readData make length rest

/-- The header of a container whose length stands in `width` bytes. -/
def readCount (make : Nat → Head) (width : Nat) (bytes : Bytes) : Option (Head × Bytes) :=
  (readNat width bytes).map fun (length, rest) => (make length, rest)

/-- An extension of a known data length: its type number, then the data. -/
def readExt (length : Nat) : Bytes → Option (Head × Bytes)
  | [] => none
  | type :: rest => readData (.ext type.toInt8) length rest

/-- An extension whose data length stands before it in `width` bytes. -/
def readSizedExt (width : Nat) (bytes : Bytes) : Option (Head × Bytes) := do
  let (length, rest) ← readNat width bytes
  readExt length rest

/-- What a marker outside the ranges of the short forms announces. -/
def readMarked (marker : UInt8) (rest : Bytes) : Option (Head × Bytes) :=
  match marker with
  | 0xc0 => some (.nil, rest)
  | 0xc2 => some (.bool false, rest)
  | 0xc3 => some (.bool true, rest)
  | 0xc4 => readSized .bin 1 rest
  | 0xc5 => readSized .bin 2 rest
  | 0xc6 => readSized .bin 4 rest
  | 0xc7 => readSizedExt 1 rest
  | 0xc8 => readSizedExt 2 rest
  | 0xc9 => readSizedExt 4 rest
  | 0xca => (readNat 4 rest).map fun (bits, rest) => (.f32 (UInt32.ofNat bits), rest)
  | 0xcb => (readNat 8 rest).map fun (bits, rest) => (.f64 (UInt64.ofNat bits), rest)
  | 0xcc => readUnsigned 1 rest
  | 0xcd => readUnsigned 2 rest
  | 0xce => readUnsigned 4 rest
  | 0xcf => readUnsigned 8 rest
  | 0xd0 => readSigned 1 rest
  | 0xd1 => readSigned 2 rest
  | 0xd2 => readSigned 4 rest
  | 0xd3 => readSigned 8 rest
  | 0xd4 => readExt 1 rest
  | 0xd5 => readExt 2 rest
  | 0xd6 => readExt 4 rest
  | 0xd7 => readExt 8 rest
  | 0xd8 => readExt 16 rest
  | 0xd9 => readSized .str 1 rest
  | 0xda => readSized .str 2 rest
  | 0xdb => readSized .str 4 rest
  | 0xdc => readCount .array 2 rest
  | 0xdd => readCount .array 4 rest
  | 0xde => readCount .map 2 rest
  | 0xdf => readCount .map 4 rest
  | _ => none

/-- The head of the first value. -/
def readHead : Bytes → Option (Head × Bytes)
  | [] => none
  | marker :: rest =>
    if marker < 0x80 then some (.int false (.ofByte marker), rest)
    else if marker < 0x90 then some (.map (marker.toNat - 0x80), rest)
    else if marker < 0xa0 then some (.array (marker.toNat - 0x90), rest)
    else if marker < 0xc0 then readData .str (marker.toNat - 0xa0) rest
    else if marker < 0xe0 then readMarked marker rest
    else some (.int true (.ofSigned (Int64.ofInt (marker.toInt8.toInt))), rest)

/-- The value of text bytes: a byte string when they are not UTF-8. -/
def ofTextBytes (bytes : Bytes) : Wire :=
  match Bytes.text? bytes with
  | some text => .str text
  | none => .bin bytes

/-- Apply a reader the given number of times. -/
def readTimes {α : Type} (reader : Bytes → Option (α × Bytes)) :
    Nat → Bytes → Option (List α × Bytes)
  | 0, bytes => some ([], bytes)
  | count + 1, bytes => do
    let (item, rest) ← reader bytes
    let (items, rest) ← readTimes reader count rest
    return (item :: items, rest)

/-- Apply two readers in turn. -/
def readPair {α β : Type} (first : Bytes → Option (α × Bytes)) (second : Bytes → Option (β × Bytes))
    (bytes : Bytes) : Option ((α × β) × Bytes) := do
  let (left, rest) ← first bytes
  let (right, rest) ← second rest
  return ((left, right), rest)

/-- Read the first value, opening at most `levels` nested levels. -/
def read (levels : Nat) (bytes : Bytes) : Option (Wire × Bytes) :=
  match readHead bytes with
  | none => none
  | some (.nil, rest) => some (.nil, rest)
  | some (.bool value, rest) => some (.bool value, rest)
  | some (.int _ value, rest) => some (.int value, rest)
  | some (.f32 bits, rest) => some (.f32 bits, rest)
  | some (.f64 bits, rest) => some (.f64 bits, rest)
  | some (.str data, rest) => some (ofTextBytes data, rest)
  | some (.bin data, rest) => some (.bin data, rest)
  | some (.array length, rest) =>
    match levels with
    | 0 => none
    | levels + 1 =>
      (readTimes (read levels) length rest).map fun (items, rest) => (.array items, rest)
  | some (.map length, rest) =>
    match levels with
    | 0 => none
    | levels + 1 =>
      (readTimes (readPair (read levels) (read levels)) length rest).map fun (entries, rest) =>
        (.map entries, rest)
  | some (.ext type data, rest) =>
    match levels with
    | 0 => none
    | _ + 1 => some (.ext type data, rest)

/-- The levels of nesting that one payload may use. -/
def maxDepth : Nat := 1023

end Wire
end TypedStore
