import TypedStore.Bytes
import TypedStore.Number.BinaryFloat
import TypedStore.Number.Integer
import TypedStore.Toml

/-!
# Scalars of TOML

Texts in their four forms, numbers, and dates with times.  Each reader takes
one scalar off the front of the characters and gives back the rest; what may
follow a scalar is checked by whoever asked for it.

A text is read one character at a time; the `Reading` tells what the
characters before have begun.
-/

namespace TypedStore
namespace Toml

/-- A character that may stand in a text or a comment as it is. -/
def isPlain (character : Char) : Bool :=
  character == '\t' || (' ' ≤ character && character != '\x7f')

/-- A space or a tab. -/
def isSpace (character : Char) : Bool :=
  character == ' ' || character == '\t'

/-- Whether a line ends here; the end of the document does not count. -/
def atLineEnd : List Char → Bool
  | '\n' :: _ => true
  | '\r' :: '\n' :: _ => true
  | _ => false

/-- The characters after a line end, if one comes first. -/
def dropLineEnd : List Char → List Char
  | '\n' :: rest => rest
  | '\r' :: '\n' :: rest => rest
  | rest => rest

/-- What the characters before have begun in a text. -/
inductive Reading where
  | plain
  /-- A backslash came last. -/
  | escape
  /-- A code point is being spelled; digits are missing. -/
  | code (missing value : Nat)
  /-- A backslash ends the line; blanks are skipped. -/
  | gap (passedLineEnd : Bool)

/-- The character that a letter after a backslash stands for. -/
def escaped? (letter : Char) : Option Char :=
  ([('b', '\x08'), ('t', '\t'), ('n', '\n'), ('f', '\x0c'), ('r', '\r'), ('"', '"'),
    ('\\', '\\')] : List (Char × Char)).lookup letter

/-- The character of a code point. -/
def character? (point : Nat) : Option Char :=
  if point.isValidChar then some (Char.ofNat point) else none

/-- A gap is over with the first character that is not blank. -/
def settle (reading : Reading) (character : Char) (rest : List Char) : Reading :=
  match reading with
  | .gap true => if isSpace character || atLineEnd (character :: rest) then .gap true else .plain
  | reading => reading

/-- Read a text up to its closing quotes, which are three when it is `long`.
Backslashes have a meaning only between double quotes.  Quotes directly before
the closing ones belong to the text, at most two. -/
def readText (quote : Char) (long : Bool) : Reading → List Char → Option (List Char × List Char)
  | _, [] => none
  | reading, character :: rest =>
    match settle reading character rest with
    | .escape =>
      if character = 'u' then readText quote long (.code 4 0) rest
      else if character = 'U' then readText quote long (.code 8 0) rest
      else if long && isSpace character then readText quote long (.gap false) rest
      else if long && atLineEnd (character :: rest) then
        readText quote long (.gap (character == '\n')) rest
      else do
        let meant ← escaped? character
        let (text, rest) ← readText quote long .plain rest
        return (meant :: text, rest)
    | .code missing value => do
      let value := value * 16 + (← Bytes.hexValue? character)
      if missing ≤ 1 then
        let meant ← character? value
        let (text, rest) ← readText quote long .plain rest
        return (meant :: text, rest)
      else readText quote long (.code (missing - 1) value) rest
    | .gap passed =>
      if isSpace character then readText quote long (.gap passed) rest
      else if atLineEnd (character :: rest) then
        readText quote long (.gap (passed || character == '\n')) rest
      else none
    | .plain =>
      if character = quote then
        if !long then some ([], rest)
        else if rest.take 2 = [quote, quote] then
          let kept := ((rest.drop 2).takeWhile (· == quote)).take 2
          some (kept, rest.drop (2 + kept.length))
        else do
          let (text, rest) ← readText quote long .plain rest
          return (character :: text, rest)
      else if character = '\\' && quote = '"' then readText quote long .escape rest
      else if long && character = '\r' && rest.head? = some '\n' then
        readText quote long .plain rest
      else if isPlain character || (long && character = '\n') then do
        let (text, rest) ← readText quote long .plain rest
        return (character :: text, rest)
      else none

/-- Read a text of one line, from its opening quote on. -/
def readShortText : List Char → Option (String × List Char)
  | [] => none
  | quote :: rest =>
    if quote = '"' || quote = '\'' then
      (readText quote false .plain rest).map fun (text, rest) => (String.ofList text, rest)
    else none

/-- Read a text of any form, from its opening quote on.  A line end right
after three quotes is no part of the text. -/
def readAnyText (characters : List Char) : Option (String × List Char) :=
  match characters with
  | first :: second :: third :: rest =>
    if first = second && second = third then
      (readText first true .plain (dropLineEnd rest)).map fun (text, rest) =>
        (String.ofList text, rest)
    else readShortText characters
  | _ => readShortText characters

/-- Take digits, which single underscores may separate. -/
def readDigits (isDigit : Char → Bool) (characters : List Char) :
    Option (List Char × List Char) :=
  let run := characters.takeWhile fun character => isDigit character || character == '_'
  let groups := run.splitOn '_'
  if groups.any List.isEmpty then none else some (groups.flatten, characters.drop run.length)

/-- The value of digits in a base. -/
def valueOf (base : Nat) (digits : List Char) : Nat :=
  digits.foldl (fun value digit => value * base + (Bytes.hexValue? digit).getD 0) 0

/-- An integer that fits its word. -/
def integer? (value : Int) : Option Value :=
  if -0x8000000000000000 ≤ value ∧ value < 0x8000000000000000 then
    some (.integer (Int64.ofInt value))
  else none

/-- The float nearest to `± digits · 10 ^ exponent`; none when it is positive
and beyond the finite range. -/
def float? (negative : Bool) (digits : Nat) (exponent : Int) : Option Value :=
  let format := FloatFormat.double
  let magnitude :=
    if digits = 0 then 0
    else if 400 < exponent then format.infinity
    else if exponent + (Nat.log2 digits : Int) < -1500 then 0
    else format.nearest (digits * Nat.pow 10 exponent.toNat) (Nat.pow 10 (-exponent).toNat)
  if magnitude = format.infinity && !negative then none
  else some (.float (UInt64.ofNat (format.withSign negative magnitude)))

/-- Take a sign off; whether it is a minus. -/
def takeSign : List Char → Bool × List Char
  | '-' :: rest => (true, rest)
  | '+' :: rest => (false, rest)
  | rest => (false, rest)

/-- The characters after a word, if it comes first. -/
def dropWord (word : String) (characters : List Char) : Option (List Char) :=
  if word.toList.isPrefixOf characters then some (characters.drop word.length) else none

/-- The digits after a point, if there is one. -/
def readFraction : List Char → Option (Option (List Char) × List Char)
  | '.' :: rest => (readDigits Char.isDigit rest).map fun (digits, rest) => (some digits, rest)
  | rest => some (none, rest)

/-- The exponent, if there is one. -/
def readExponent : List Char → Option (Option Int × List Char)
  | mark :: rest =>
    if mark = 'e' || mark = 'E' then do
      let (negative, rest) := takeSign rest
      let (digits, rest) ← readDigits Char.isDigit rest
      let value : Int := valueOf 10 digits
      return (some (if negative then -value else value), rest)
    else some (none, mark :: rest)
  | [] => some (none, [])

/-- A number in decimal digits after its sign. -/
def readDecimal (negative : Bool) (characters : List Char) : Option (Value × List Char) := do
  let (whole, rest) ← readDigits Char.isDigit characters
  if 1 < whole.length && whole.head? = some '0' then none
  let (fraction, rest) ← readFraction rest
  let (exponent, rest) ← readExponent rest
  match fraction, exponent with
  | none, none =>
    let value : Int := valueOf 10 whole
    return (← integer? (if negative then -value else value), rest)
  | _, _ =>
    let places := fraction.getD []
    let value ← float? negative (valueOf 10 (whole ++ places)) (exponent.getD 0 - places.length)
    return (value, rest)

/-- A number in another base after its mark. -/
def readBased (base : Nat) (isDigit : Char → Bool) (characters : List Char) :
    Option (Value × List Char) := do
  let (digits, rest) ← readDigits isDigit characters
  return (← integer? (valueOf base digits), rest)

/-- A digit in base sixteen, of either case. -/
def isHexDigit (character : Char) : Bool :=
  (Bytes.hexValue? character).isSome

/-- A number. -/
def readNumber (characters : List Char) : Option (Value × List Char) :=
  match characters with
  | '0' :: 'x' :: rest => readBased 16 isHexDigit rest
  | '0' :: 'o' :: rest => readBased 8 (fun digit => '0' ≤ digit && digit ≤ '7') rest
  | '0' :: 'b' :: rest => readBased 2 (fun digit => digit == '0' || digit == '1') rest
  | _ =>
    let (negative, rest) := takeSign characters
    let format := FloatFormat.double
    match dropWord "inf" rest, dropWord "nan" rest with
    | some rest, _ => some (.float (UInt64.ofNat (format.withSign negative format.infinity)), rest)
    | none, some rest =>
      let quiet := format.infinity + Nat.pow 2 (format.fractionBits - 1)
      some (.float (UInt64.ofNat (format.withSign negative quiet)), rest)
    | none, none => readDecimal negative rest

/-- The value of exactly this many decimal digits. -/
def takeDigits (count : Nat) (characters : List Char) : Option (Nat × List Char) :=
  let digits := characters.take count
  if digits.length = count && digits.all Char.isDigit then
    some (valueOf 10 digits, characters.drop count)
  else none

/-- A number of exactly two digits between two bounds. -/
def takeBounded (lowest highest : Nat) (characters : List Char) : Option (Nat × List Char) := do
  let (value, rest) ← takeDigits 2 characters
  if lowest ≤ value ∧ value ≤ highest then some (value, rest) else none

/-- The number of days of a month. -/
def daysIn (year month : Nat) : Nat :=
  if month = 2 then
    if year % 4 = 0 ∧ (year % 100 ≠ 0 ∨ year % 400 = 0) then 29 else 28
  else if month = 4 ∨ month = 6 ∨ month = 9 ∨ month = 11 then 30
  else 31

/-- The characters after a given one, if it comes first. -/
def dropMark (mark : Char) : List Char → Option (List Char)
  | [] => none
  | character :: rest => if character = mark then some rest else none

/-- The characters after a date. -/
def dropDate (characters : List Char) : Option (List Char) := do
  let (year, rest) ← takeDigits 4 characters
  let (month, rest) ← takeBounded 1 12 (← dropMark '-' rest)
  let (_, rest) ← takeBounded 1 (daysIn year month) (← dropMark '-' rest)
  return rest

/-- The characters after a time of day.  A minute may have a leap second. -/
def dropTime (characters : List Char) : Option (List Char) := do
  let (_, rest) ← takeBounded 0 23 characters
  let (_, rest) ← takeBounded 0 59 (← dropMark ':' rest)
  let (_, rest) ← takeBounded 0 60 (← dropMark ':' rest)
  match rest with
  | '.' :: places =>
    return if (places.head?.map Char.isDigit).getD false then places.dropWhile Char.isDigit
      else rest
  | rest => return rest

/-- The characters after the distance from universal time, if it is given. -/
def dropOffset (characters : List Char) : List Char :=
  match characters with
  | [] => []
  | mark :: rest =>
    if mark = 'Z' || mark = 'z' then rest
    else if mark = '+' || mark = '-' then
      (do
        let (_, rest) ← takeBounded 0 23 rest
        let (_, rest) ← takeBounded 0 59 (← dropMark ':' rest)
        return rest).getD characters
    else characters

/-- The characters after a date with an optional time, or after a time. -/
def dropMoment (characters : List Char) : Option (List Char) :=
  match dropDate characters with
  | none => dropTime characters
  | some rest =>
    match rest with
    | [] => some []
    | mark :: more =>
      if mark = 'T' || mark = 't' || mark = ' ' then
        match dropTime more with
        | some more => some (dropOffset more)
        | none => some rest
      else some rest

/-- A date, a time or both. -/
def readMoment (characters : List Char) : Option (Value × List Char) :=
  (dropMoment characters).map fun rest =>
    (.moment (String.ofList (characters.take (characters.length - rest.length))), rest)

/-- A value that holds no other values. -/
def readScalar (characters : List Char) : Option (Value × List Char) :=
  match characters with
  | [] => none
  | first :: _ =>
    if first = '"' || first = '\'' then
      (readAnyText characters).map fun (text, rest) => (.text text, rest)
    else
      match dropWord "true" characters, dropWord "false" characters with
      | some rest, _ => some (.flag true, rest)
      | none, some rest => some (.flag false, rest)
      | none, none => (readMoment characters).orElse fun _ => readNumber characters

end Toml
end TypedStore
