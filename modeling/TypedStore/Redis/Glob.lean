import TypedStore.Bytes

/-!
# Glob patterns

Patterns over byte strings as a key-value server understands them: a star
stands for any bytes, a question mark for one byte, a bracketed class for one
byte of a set, and a backslash takes the next byte literally.  A pattern is
first cut into pieces and then matched; both are by recursion on the data.

`escape` writes a text so that a pattern matches it literally.
-/

namespace TypedStore
namespace Glob

/-- One piece of a pattern. -/
inductive Piece where
  | any
  | one
  /-- One byte in one of the ranges, or outside all of them. -/
  | among (negated : Bool) (ranges : List (UInt8 × UInt8))
  | literal (byte : UInt8)
  deriving DecidableEq, Repr

/-- The byte of an ASCII character. -/
def byteOf (character : Char) : UInt8 :=
  UInt8.ofNat character.toNat

/-- A range, its ends in either order. -/
def rangeOf (first second : UInt8) : UInt8 × UInt8 :=
  if second < first then (second, first) else (first, second)

/-- The pieces of a pattern; `open?` holds the class that is being read, if
any, as its negation and its ranges so far.  A class ends with a bracket or
with the pattern. -/
def pieces (open? : Option (Bool × List (UInt8 × UInt8))) : Bytes → List Piece
  | [] =>
    match open? with
    | none => []
    | some (negated, ranges) => [.among negated ranges]
  | [byte] =>
    match open? with
    | none =>
      if byte = byteOf '*' then [.any]
      else if byte = byteOf '?' then [.one]
      else if byte = byteOf '[' then [.among false []]
      else [.literal byte]
    | some (negated, ranges) =>
      if byte = byteOf ']' then [.among negated ranges]
      else [.among negated ((byte, byte) :: ranges)]
  | byte :: second :: rest =>
    match open? with
    | none =>
      if byte = byteOf '*' then .any :: pieces none (second :: rest)
      else if byte = byteOf '?' then .one :: pieces none (second :: rest)
      else if byte = byteOf '[' then
        if second = byteOf '^' then pieces (some (true, [])) rest
        else pieces (some (false, [])) (second :: rest)
      else if byte = byteOf '\\' then .literal second :: pieces none rest
      else .literal byte :: pieces none (second :: rest)
    | some (negated, ranges) =>
      if byte = byteOf '\\' then pieces (some (negated, (second, second) :: ranges)) rest
      else if byte = byteOf ']' then .among negated ranges :: pieces none (second :: rest)
      else
        match rest with
        | [] => pieces (some (negated, (byte, byte) :: ranges)) [second]
        | last :: rest =>
          if second = byteOf '-' then pieces (some (negated, rangeOf byte last :: ranges)) rest
          else pieces (some (negated, (byte, byte) :: ranges)) (second :: last :: rest)

/-- The pieces of a pattern. -/
def parse (pattern : Bytes) : List Piece :=
  pieces none pattern

/-- Whether a byte is one that a piece for one byte stands for. -/
def Piece.accepts : Piece → UInt8 → Bool
  | .any, _ => true
  | .one, _ => true
  | .among negated ranges, byte =>
    (ranges.any fun (first, last) => first ≤ byte && byte ≤ last) != negated
  | .literal wanted, byte => wanted == byte

/-- Some end of the bytes, the empty one included, satisfies a test. -/
def someEnd (test : Bytes → Bool) : Bytes → Bool
  | [] => test []
  | byte :: rest => test (byte :: rest) || someEnd test rest

/-- Whether the pieces match all of the bytes. -/
def matchesPieces : List Piece → Bytes → Bool
  | [], bytes => bytes.isEmpty
  | .any :: pieces, bytes => someEnd (matchesPieces pieces) bytes
  | _ :: _, [] => false
  | piece :: pieces, byte :: bytes => piece.accepts byte && matchesPieces pieces bytes

/-- Whether a pattern matches a byte string. -/
def isMatch (pattern bytes : Bytes) : Bool :=
  matchesPieces (parse pattern) bytes

/-- The characters that have a meaning in patterns. -/
def isSpecial (character : Char) : Bool :=
  character == '*' || character == '?' || character == '[' || character == ']'
    || character == '\\'

/-- A text with a backslash before every special character. -/
def escape (text : String) : String :=
  String.ofList (text.toList.flatMap fun character =>
    if isSpecial character then ['\\', character] else [character])

end Glob
end TypedStore
