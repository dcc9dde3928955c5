import TypedStore.Bytes

/-!
# The AES block cipher

Encryption of one block of sixteen bytes under a key of 16, 24 or 32 bytes.
A block is four columns, each a word whose highest byte is in the top row.
Only encryption is needed: the counter mode built on it uses it in both
directions.
-/

namespace TypedStore
namespace Aes

/-- The substitution of bytes. -/
def substitutions : Array UInt8 :=
  #[0x63, 0x7c, 0x77, 0x7b, 0xf2, 0x6b, 0x6f, 0xc5, 0x30, 0x01, 0x67, 0x2b, 0xfe, 0xd7, 0xab,
    0x76, 0xca, 0x82, 0xc9, 0x7d, 0xfa, 0x59, 0x47, 0xf0, 0xad, 0xd4, 0xa2, 0xaf, 0x9c, 0xa4,
    0x72, 0xc0, 0xb7, 0xfd, 0x93, 0x26, 0x36, 0x3f, 0xf7, 0xcc, 0x34, 0xa5, 0xe5, 0xf1, 0x71,
    0xd8, 0x31, 0x15, 0x04, 0xc7, 0x23, 0xc3, 0x18, 0x96, 0x05, 0x9a, 0x07, 0x12, 0x80, 0xe2,
    0xeb, 0x27, 0xb2, 0x75, 0x09, 0x83, 0x2c, 0x1a, 0x1b, 0x6e, 0x5a, 0xa0, 0x52, 0x3b, 0xd6,
    0xb3, 0x29, 0xe3, 0x2f, 0x84, 0x53, 0xd1, 0x00, 0xed, 0x20, 0xfc, 0xb1, 0x5b, 0x6a, 0xcb,
    0xbe, 0x39, 0x4a, 0x4c, 0x58, 0xcf, 0xd0, 0xef, 0xaa, 0xfb, 0x43, 0x4d, 0x33, 0x85, 0x45,
    0xf9, 0x02, 0x7f, 0x50, 0x3c, 0x9f, 0xa8, 0x51, 0xa3, 0x40, 0x8f, 0x92, 0x9d, 0x38, 0xf5,
    0xbc, 0xb6, 0xda, 0x21, 0x10, 0xff, 0xf3, 0xd2, 0xcd, 0x0c, 0x13, 0xec, 0x5f, 0x97, 0x44,
    0x17, 0xc4, 0xa7, 0x7e, 0x3d, 0x64, 0x5d, 0x19, 0x73, 0x60, 0x81, 0x4f, 0xdc, 0x22, 0x2a,
    0x90, 0x88, 0x46, 0xee, 0xb8, 0x14, 0xde, 0x5e, 0x0b, 0xdb, 0xe0, 0x32, 0x3a, 0x0a, 0x49,
    0x06, 0x24, 0x5c, 0xc2, 0xd3, 0xac, 0x62, 0x91, 0x95, 0xe4, 0x79, 0xe7, 0xc8, 0x37, 0x6d,
    0x8d, 0xd5, 0x4e, 0xa9, 0x6c, 0x56, 0xf4, 0xea, 0x65, 0x7a, 0xae, 0x08, 0xba, 0x78, 0x25,
    0x2e, 0x1c, 0xa6, 0xb4, 0xc6, 0xe8, 0xdd, 0x74, 0x1f, 0x4b, 0xbd, 0x8b, 0x8a, 0x70, 0x3e,
    0xb5, 0x66, 0x48, 0x03, 0xf6, 0x0e, 0x61, 0x35, 0x57, 0xb9, 0x86, 0xc1, 0x1d, 0x9e, 0xe1,
    0xf8, 0x98, 0x11, 0x69, 0xd9, 0x8e, 0x94, 0x9b, 0x1e, 0x87, 0xe9, 0xce, 0x55, 0x28, 0xdf,
    0x8c, 0xa1, 0x89, 0x0d, 0xbf, 0xe6, 0x42, 0x68, 0x41, 0x99, 0x2d, 0x0f, 0xb0, 0x54, 0xbb,
    0x16]

/-- Substitute a byte. -/
def substitute (byte : UInt8) : UInt8 :=
  substitutions.getD byte.toNat 0

/-- A block, by columns. -/
structure Block where
  first : UInt32
  second : UInt32
  third : UInt32
  fourth : UInt32
  deriving DecidableEq, Repr, Inhabited

/-- The byte of a column in the given row. -/
def row (index : UInt32) (column : UInt32) : UInt8 :=
  (column >>> (24 - 8 * index)).toUInt8

/-- The column of four bytes, from the top row down. -/
def column (top second third bottom : UInt8) : UInt32 :=
  (top.toUInt32 <<< 24) ||| (second.toUInt32 <<< 16) ||| (third.toUInt32 <<< 8)
    ||| bottom.toUInt32

/-- Substitute every byte of a column. -/
def substituteColumn (word : UInt32) : UInt32 :=
  column (substitute (row 0 word)) (substitute (row 1 word)) (substitute (row 2 word))
    (substitute (row 3 word))

/-- Multiply by the indeterminate in the field of bytes. -/
def double (byte : UInt8) : UInt8 :=
  if byte < 128 then byte <<< 1 else (byte <<< 1) ^^^ 0x1b

/-- Mix the four bytes of a column. -/
def mix (word : UInt32) : UInt32 :=
  let a := row 0 word
  let b := row 1 word
  let c := row 2 word
  let d := row 3 word
  column (double a ^^^ double b ^^^ b ^^^ c ^^^ d) (a ^^^ double b ^^^ double c ^^^ c ^^^ d)
    (a ^^^ b ^^^ double c ^^^ double d ^^^ d) (double a ^^^ a ^^^ b ^^^ c ^^^ double d)

/-- Add a round key. -/
def Block.add (block key : Block) : Block :=
  ⟨block.first ^^^ key.first, block.second ^^^ key.second, block.third ^^^ key.third,
    block.fourth ^^^ key.fourth⟩

/-- Substitute all bytes and shift each row by its number. -/
def Block.shift (block : Block) : Block :=
  let pick (a b c d : UInt32) : UInt32 :=
    substituteColumn (column (row 0 a) (row 1 b) (row 2 c) (row 3 d))
  ⟨pick block.first block.second block.third block.fourth,
    pick block.second block.third block.fourth block.first,
    pick block.third block.fourth block.first block.second,
    pick block.fourth block.first block.second block.third⟩

/-- Mix all columns. -/
def Block.mixed (block : Block) : Block :=
  ⟨mix block.first, mix block.second, mix block.third, mix block.fourth⟩

/-- The word in four bytes. -/
def wordOf (bytes : Bytes) : UInt32 :=
  UInt32.ofNat (Bytes.toNat (bytes.take 4))

/-- The words of a key. -/
def keyWords : (count : Nat) → Bytes → List UInt32
  | 0, _ => []
  | count + 1, bytes => wordOf bytes :: keyWords count (bytes.drop 4)

/-- Turn a word by one byte. -/
def rotate (word : UInt32) : UInt32 :=
  (word <<< 8) ||| (word >>> 24)

/-- The round constant for the given turn, as the top byte of a word. -/
def roundConstant : Nat → UInt8
  | 0 => 1
  | turn + 1 => double (roundConstant turn)

/-- Extend a key schedule, kept with its latest word first, by `count` words.
`width` is the number of words of the key. -/
def extend (width : Nat) : (count : Nat) → List UInt32 → List UInt32
  | 0, schedule => schedule
  | count + 1, schedule =>
    let index := schedule.length
    let last := schedule.headD 0
    let mixedIn :=
      if index % width = 0 then
        substituteColumn (rotate last)
          ^^^ ((roundConstant (index / width - 1)).toUInt32 <<< 24)
      else if 6 < width ∧ index % width = 4 then substituteColumn last
      else last
    extend width count ((schedule.getD (width - 1) 0 ^^^ mixedIn) :: schedule)

/-- Four words at a time, as blocks. -/
def blocksOf : List UInt32 → List Block
  | first :: second :: third :: fourth :: rest => ⟨first, second, third, fourth⟩ :: blocksOf rest
  | _ => []

/-- The round keys of a key. -/
def roundKeys (key : Bytes) : List Block :=
  let width := key.length / 4
  let words := keyWords width key
  blocksOf (extend width (4 * (width + 7) - width) words.reverse).reverse

/-- The rounds after the first addition; the last one does not mix. -/
def rounds : List Block → Block → Block
  | [], block => block
  | [last], block => block.shift.add last
  | key :: rest, block => rounds rest (block.shift.mixed.add key)

/-- Encrypt a block under round keys. -/
def encrypt : List Block → Block → Block
  | [], block => block
  | whitening :: rest, block => rounds rest (block.add whitening)

/-- The block in sixteen bytes. -/
def Block.ofBytes (bytes : Bytes) : Block :=
  ⟨wordOf bytes, wordOf (bytes.drop 4), wordOf (bytes.drop 8), wordOf (bytes.drop 12)⟩

/-- The bytes of a block. -/
def Block.toBytes (block : Block) : Bytes :=
  Bytes.ofNat 4 block.first.toNat ++ (Bytes.ofNat 4 block.second.toNat ++
    (Bytes.ofNat 4 block.third.toNat ++ Bytes.ofNat 4 block.fourth.toNat))

end Aes
end TypedStore
