/-!
# Byte strings

Everything that leaves memory is a list of bytes: keys and payloads of the
engines, key material, sealed data.  Lists keep the byte view open to
induction; the order on them is the lexicographic order of the library,
which is the order in which ordered engines keep their keys.

Besides the big-endian numerals of the wire format, the module ties text to
its UTF-8 bytes.  The main statement is `text?_utf8`: the bytes of a text
read back as that text.
-/

namespace TypedStore

/-- A finite string of bytes. -/
abbrev Bytes := List UInt8

namespace Bytes

/-- The numeral of `n` in exactly `width` bytes, most significant first.
Digits above that width are dropped. -/
def ofNat : (width : Nat) → (n : Nat) → Bytes
  | 0, _ => []
  | width + 1, n => UInt8.ofNat (n / Nat.pow 256 width) :: ofNat width n

@[simp] theorem length_ofNat (width n : Nat) : (ofNat width n).length = width := by
  induction width with
  | zero => rfl
  | succ width hypothesis => simp [ofNat, hypothesis]

/-- The number that a big-endian numeral stands for. -/
def toNat (bytes : Bytes) : Nat :=
  bytes.foldl (fun value byte => value * 256 + byte.toNat) 0

/-- The UTF-8 bytes of a text. -/
def utf8 (text : String) : Bytes :=
  text.toUTF8.data.toList

/-- The text with these UTF-8 bytes, if they are well formed. -/
def text? (bytes : Bytes) : Option String :=
  String.fromUTF8? ⟨bytes.toArray⟩

theorem text?_utf8 (text : String) : text? (utf8 text) = some text := by
  simp only [text?, utf8, Array.toArray_toList, String.fromUTF8?]
  exact dif_pos text.isValidUTF8

theorem utf8_of_text? {bytes : Bytes} {text : String} (read : text? bytes = some text) :
    utf8 text = bytes := by
  simp only [text?, String.fromUTF8?] at read
  split at read
  · cases read
    simp [utf8, String.fromUTF8]
  · cases read

/-- Two texts with the same bytes are the same text. -/
theorem utf8_injective {first second : String} (same : utf8 first = utf8 second) :
    first = second := by
  have read := text?_utf8 first
  rw [same, text?_utf8] at read
  exact (Option.some.inj read).symm

/-- Cut off the first `count` bytes; `none` if there are fewer. -/
def take? (count : Nat) (bytes : Bytes) : Option (Bytes × Bytes) :=
  if count ≤ bytes.length then some (bytes.splitAt count) else none

/-- What follows `start`, if the bytes begin with it. -/
def after? : (start bytes : Bytes) → Option Bytes
  | [], bytes => some bytes
  | _ :: _, [] => none
  | wanted :: start, byte :: bytes => if wanted = byte then after? start bytes else none

theorem after?_append (start rest : Bytes) : after? start (start ++ rest) = some rest := by
  induction start with
  | nil => rfl
  | cons byte start hypothesis => simp [after?, hypothesis]

theorem eq_append_of_after? {start bytes rest : Bytes} (found : after? start bytes = some rest) :
    bytes = start ++ rest := by
  induction start generalizing bytes with
  | nil => simpa [after?] using found
  | cons wanted start hypothesis =>
    cases bytes with
    | nil => simp [after?] at found
    | cons byte bytes =>
      simp only [after?] at found
      split at found
      · next same => simp [same, hypothesis found]
      · cases found

/-- One hexadecimal digit, in lower case. -/
def hexDigit (value : Nat) : Char :=
  if value < 10 then Char.ofNat (48 + value) else Char.ofNat (87 + value)

/-- The value of a hexadecimal digit of either case. -/
def hexValue? (digit : Char) : Option Nat :=
  if '0' ≤ digit ∧ digit ≤ '9' then some (digit.toNat - 48)
  else if 'a' ≤ digit ∧ digit ≤ 'f' then some (digit.toNat - 87)
  else if 'A' ≤ digit ∧ digit ≤ 'F' then some (digit.toNat - 55)
  else none

/-- Two hexadecimal digits for each byte. -/
def hex (bytes : Bytes) : String :=
  String.ofList (bytes.flatMap fun byte => [hexDigit (byte.toNat / 16), hexDigit (byte.toNat % 16)])

/-- Read two hexadecimal digits for each byte. -/
def ofHexDigits? : List Char → Option Bytes
  | [] => some []
  | [_] => none
  | high :: low :: rest => do
    let high ← hexValue? high
    let low ← hexValue? low
    return UInt8.ofNat (high * 16 + low) :: (← ofHexDigits? rest)

/-- The bytes that a text spells in hexadecimal. -/
def ofHex? (text : String) : Option Bytes :=
  ofHexDigits? text.toList

end Bytes

end TypedStore
