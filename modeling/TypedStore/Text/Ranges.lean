/-!
# Sets of code points

A property of characters is given by its boundaries: an increasing list of
code points in which a member stretch begins and ends by turns, the end
excluded.
-/

namespace TypedStore
namespace Text

/-- Whether a code point lies in one of the stretches that the boundaries
mark off. -/
def within : (boundaries : List Nat) → (point : Nat) → Bool
  | low :: high :: rest, point => (low ≤ point && point < high) || within rest point
  | _, _ => false

end Text
end TypedStore
