import TypedStore.Datum
import TypedStore.Number.BinaryFloat

/-!
# Rules shared by the readers of data

Data are read in two ways, from a wire value and straight from bytes.  What
the two have in common stands here: how numbers are converted, which texts
are accepted, how the labels of fields and variants are recognised, and how
the entries of a map make up a record or a map.
-/

namespace TypedStore
namespace Schema

/-- An integer of the given width. -/
def intDatum? (kind : IntKind) (value : WireInt) : Option Datum :=
  if kind.holds value.val then some (.int value) else none

/-- The text of a string, or of a byte string that holds UTF-8. -/
def textOfWire? : Wire → Option String
  | .str value => some value
  | .bin value => Bytes.text? value
  | _ => none

/-- The only character of a text. -/
def onlyChar? (value : String) : Option Char :=
  match value.toList with
  | [character] => some character
  | _ => none

/-- What a label stands for among those that are known. -/
inductive Label where
  | known (index : Nat)
  | unknown
  deriving DecidableEq, Repr

/-- The place of a text among the labels. -/
def labelOfText (labels : List String) (value : String) : Label :=
  match labels.idxOf? value with
  | some index => .known index
  | none => .unknown

/-- The place of the bytes of a text among the labels. -/
def labelOfBytes (labels : List String) (value : Bytes) : Label :=
  match (labels.map Bytes.utf8).idxOf? value with
  | some index => .known index
  | none => .unknown

/-- A number is a label by position. -/
def labelOfNat (labels : List String) (position : Nat) : Label :=
  if position < labels.length then .known position else .unknown

/-- A label may be a text, the bytes of one, or a position; nothing else is
a label. -/
def labelOfWire? (labels : List String) : Wire → Option Label
  | .str value => some (labelOfText labels value)
  | .bin value => some (labelOfBytes labels value)
  | .int value => if 0 ≤ value.val then some (labelOfNat labels value.val.toNat) else none
  | _ => none

/-- A field of a record as a reader sees it: its label, whether it may be
missing, and how its value is read. -/
structure Field (ρ : Type) where
  label : String
  mayBeMissing : Bool
  read : ρ

/-- The data of the fields, in order, from those that were found by position. -/
def gather {ρ : Type} (found : List (Nat × Datum)) :
    (position : Nat) → List (Field ρ) → Option (List Datum)
  | _, [] => some []
  | position, field :: rest => do
    let datum ←
      match found.lookup position with
      | some datum => some datum
      | none => if field.mayBeMissing then some .absent else none
    return datum :: (← gather found (position + 1) rest)

/-- Put an entry in its place among ascending keys, replacing an entry of the
same key. -/
def insertEntry (key : String) (datum : Datum) : List (String × Datum) → List (String × Datum)
  | [] => [(key, datum)]
  | (other, item) :: rest =>
    if key < other then (key, datum) :: (other, item) :: rest
    else if key = other then (key, datum) :: rest
    else (other, item) :: insertEntry key datum rest

/-- A map datum from entries in any order, the last of each key. -/
def mapDatum (entries : List (String × Datum)) : Datum :=
  .map (entries.foldl (fun sorted (key, datum) => insertEntry key datum sorted) [])

end Schema
end TypedStore
