import TypedStore.Text.CaseTable
import TypedStore.Text.Ranges

/-!
# Lower case

The lower case of a text by the Unicode rules.  Each character is mapped on
its own, with two exceptions: a capital I with a dot becomes an `i` followed
by a combining dot, and a capital sigma at the end of a word takes the final
form of the small letter.
-/

namespace TypedStore
namespace Text

/-- The run of the case table that holds a code point gives its lower case. -/
def lowercasePoint (point : Nat) : Nat :=
  match lowercaseRuns.find? fun (first, last, step, _) =>
      first ≤ point && point ≤ last && (point - first) % step == 0 with
  | some (_, _, _, distance) => (point + distance).toNat
  | none => point

/-- The next character that is not ignored by case rules is a cased one. -/
def meetsCased (characters : List Char) : Bool :=
  match characters.dropWhile fun character => within caseIgnorableBoundaries character.toNat with
  | [] => false
  | character :: _ => within casedBoundaries character.toNat

/-- The lower case of the remaining characters; `before` holds those already
passed, the nearest first. -/
def lowercaseFrom : (before rest : List Char) → List Char
  | _, [] => []
  | before, character :: rest =>
    let mapped :=
      if character = 'İ' then ['i', '\u0307']
      else if character = 'Σ' then
        if meetsCased before && !meetsCased rest then ['ς'] else ['σ']
      else [Char.ofNat (lowercasePoint character.toNat)]
    mapped ++ lowercaseFrom (character :: before) rest

/-- The text in lower case. -/
def lowercase (text : String) : String :=
  String.ofList (lowercaseFrom [] text.toList)

end Text
end TypedStore
