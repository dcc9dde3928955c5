import TypedStore.Bytes

/-!
# Percent encoding

Bytes that may not stand in a part of a URL are written as a percent sign and
two hexadecimal digits in upper case.  Each part has its own set of such
bytes; bytes beyond ASCII and controls belong to all of them.
-/

namespace TypedStore
namespace Percent

/-- Controls and everything beyond ASCII. -/
def isControl (byte : UInt8) : Bool :=
  byte < 0x20 || 0x7f ≤ byte

/-- Whether a byte is one of these ASCII characters. -/
def isAnyOf (characters : String) (byte : UInt8) : Bool :=
  characters.toList.any fun character => character.toNat == byte.toNat

/-- What is encoded in a fragment. -/
def inFragment (byte : UInt8) : Bool :=
  isControl byte || isAnyOf " \"<>`" byte

/-- What is encoded in a query. -/
def inQuery (byte : UInt8) : Bool :=
  isControl byte || isAnyOf " \"#<>" byte

/-- What is encoded in a path. -/
def inPath (byte : UInt8) : Bool :=
  inFragment byte || isAnyOf "#?\x7b\x7d" byte

/-- What is encoded in a user name or a password. -/
def inUserinfo (byte : UInt8) : Bool :=
  inPath byte || isAnyOf "/:;=@[\\]^|" byte

/-- A byte as it stands in a part of a URL. -/
def encodeByte (encoded : UInt8 → Bool) (byte : UInt8) : List Char :=
  if encoded byte then
    '%' :: (Bytes.hex [byte]).toList.map Char.toUpper
  else [Char.ofNat byte.toNat]

/-- A text as it stands in a part of a URL. -/
def encode (encoded : UInt8 → Bool) (text : String) : String :=
  String.ofList ((Bytes.utf8 text).flatMap (encodeByte encoded))

/-- Put the bytes back that are written with a percent sign.  A percent sign
that two digits do not follow stands for itself. -/
def decodeBytes : Bytes → Bytes
  | [] => []
  | [byte] => [byte]
  | [byte, second] => [byte, second]
  | byte :: high :: low :: rest =>
    if byte = 0x25 then
      match Bytes.hexValue? (Char.ofNat high.toNat), Bytes.hexValue? (Char.ofNat low.toNat) with
      | some high, some low => UInt8.ofNat (high * 16 + low) :: decodeBytes rest
      | _, _ => byte :: decodeBytes (high :: low :: rest)
    else byte :: decodeBytes (high :: low :: rest)

/-- The text behind an encoded one, if it is UTF-8. -/
def decode? (text : String) : Option String :=
  Bytes.text? (decodeBytes (Bytes.utf8 text))

end Percent
end TypedStore
