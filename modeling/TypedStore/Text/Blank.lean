import TypedStore.Text.Ranges

/-!
# White space

The characters with the Unicode property `White_Space`, and the text that is
left when they are taken off both ends of a text.
-/

namespace TypedStore
namespace Text

/-- The boundaries of the property `White_Space`. -/
def blankBoundaries : List Nat :=
  [9, 14, 32, 33, 133, 134, 160, 161, 5760, 5761, 8192, 8203, 8232, 8234, 8239, 8240, 8287, 8288,
   12288, 12289]

/-- Whether a character is white space. -/
def isBlank (character : Char) : Bool :=
  within blankBoundaries character.toNat

/-- The text without the white space at its two ends. -/
def trim (text : String) : String :=
  String.ofList
    ((text.toList.dropWhile isBlank).reverse.dropWhile isBlank).reverse

end Text
end TypedStore
