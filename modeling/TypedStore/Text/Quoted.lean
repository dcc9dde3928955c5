import TypedStore.Text.EscapedTable
import TypedStore.Text.Ranges

/-!
# Quoted text

A text in double quotes, as it stands in descriptions of values and settings.
Quotes and backslashes are escaped, the usual controls have short names, and
any other character that would not show by itself is spelled by its number.
-/

namespace TypedStore
namespace Text

/-- A number in lower-case hexadecimal digits, without leading zeros. -/
def hexNumber (number : Nat) : String :=
  String.ofList (Nat.toDigits 16 number)

/-- A character as it stands between the quotes. -/
def quotedChar (character : Char) : String :=
  if character = '\x00' then "\\0"
  else if character = '\t' then "\\t"
  else if character = '\r' then "\\r"
  else if character = '\n' then "\\n"
  else if character = '\\' then "\\\\"
  else if character = '"' then "\\\""
  else if within escapedBoundaries character.toNat then
    "\\u\x7b" ++ hexNumber character.toNat ++ "\x7d"
  else character.toString

/-- A text between double quotes. -/
def quoted (text : String) : String :=
  "\"" ++ String.join (text.toList.map quotedChar) ++ "\""

end Text
end TypedStore
