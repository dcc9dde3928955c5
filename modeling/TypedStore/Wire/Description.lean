import TypedStore.Datum
import TypedStore.Number.Decimal
import TypedStore.Text.Quoted

/-!
# Descriptions of values

The one-line text of wire values and of dynamic values.  Floats take the
shortest positional decimal, texts are quoted, and byte strings are written
as lists of numbers.
-/

namespace TypedStore
namespace Wire

/-- Parts with a comma between each two. -/
def joined (parts : List String) : String :=
  ", ".intercalate parts

/-- The numbers of a byte string. -/
def bytesText (bytes : Bytes) : String :=
  "[" ++ joined (bytes.map fun byte => toString byte.toNat) ++ "]"

mutual

/-- The text of a value. -/
def description : Wire → String
  | .nil => "nil"
  | .bool value => if value then "true" else "false"
  | .int value => toString value.val
  | .f32 bits => Decimal.text .single bits.toNat
  | .f64 bits => Decimal.text .double bits.toNat
  | .str text => Text.quoted text
  | .bin bytes => bytesText bytes
  | .array items => "[" ++ joined (itemsText items) ++ "]"
  | .map entries => "\x7b" ++ joined (entriesText entries) ++ "\x7d"
  | .ext type data => "[" ++ toString type.toInt ++ ", " ++ bytesText data ++ "]"

/-- The texts of the items of an array. -/
def itemsText : List Wire → List String
  | [] => []
  | item :: rest => description item :: itemsText rest

/-- The texts of the entries of a map. -/
def entriesText : List (Wire × Wire) → List String
  | [] => []
  | (key, value) :: rest => (description key ++ ": " ++ description value) :: entriesText rest

end

end Wire

/-- The text of a dynamic value: the name of its schema, or its raw data and
the name they were stored under. -/
def DynValue.description : DynValue → String
  | .typed schema _ => "DynValue<" ++ schema.tag ++ ">"
  | .raw data (some name) => "DynValue<" ++ name ++ "?>(" ++ data.description ++ ")"
  | .raw data none => "DynValue(" ++ data.description ++ ")"

end TypedStore
