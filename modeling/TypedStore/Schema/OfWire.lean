import TypedStore.Schema.Fields

/-!
# Data from wire values

`ofWire?` makes a datum of a schema from a wire value, or refuses.  Numbers
are converted where nothing or only precision is lost: an integer must lie in
the range of its width, a float may come from any number.  A record is an
array of all its fields or a map, whose keys are labels or positions and
whose unknown entries are skipped.  A variant is an array of its number and,
unless it carries nothing, its payload.
-/

namespace TypedStore
namespace Schema

/-- Read wire values one by one, each with its own reader. -/
def readEach : List (Wire → Option Datum) → List Wire → Option (List Datum)
  | [], [] => some []
  | reader :: readers, item :: rest => do
    let datum ← reader item
    return datum :: (← readEach readers rest)
  | _, _ => none

/-- The fields found among the entries of a map, by position.  No field may
occur twice. -/
def readFields (fields : List (Field (Wire → Option Datum))) :
    List (Wire × Wire) → List (Nat × Datum) → Option (List (Nat × Datum))
  | [], found => some found
  | (key, value) :: rest, found => do
    match ← labelOfWire? (fields.map Field.label) key with
    | .unknown => readFields fields rest found
    | .known position =>
      let field ← fields[position]?
      if (found.lookup position).isSome then none
      else
        let datum ← field.read value
        readFields fields rest ((position, datum) :: found)

/-- A record from an array of all its fields or from a map. -/
def readRecord (fields : List (Field (Wire → Option Datum))) : Wire → Option (List Datum)
  | .array items => readEach (fields.map Field.read) items
  | .map entries => do gather (← readFields fields entries []) 0 fields
  | _ => none

/-- How the payload of a variant is read; the payload may be missing. -/
abbrev PayloadReader := Option Wire → Option (Payload Datum)

/-- A variant that carries nothing: no payload, or an empty array. -/
def readUnit : PayloadReader
  | none => some .none
  | some (.array []) => some .none
  | some _ => none

/-- A variant that carries one value: an array of it, or the value itself if
that is no array. -/
def readSingle (reader : Wire → Option Datum) : PayloadReader
  | none => none
  | some (.array [item]) => (reader item).map .one
  | some (.array _) => none
  | some value => (reader value).map .one

/-- A variant that carries a tuple: an array of its items. -/
def readTuple (readers : List (Wire → Option Datum)) : PayloadReader
  | some (.array items) => (readEach readers items).map .many
  | _ => none

/-- A variant that carries fields. -/
def readLabelled (fields : List (Field (Wire → Option Datum))) : PayloadReader
  | some value => (readRecord fields value).map .many
  | none => none

/-- A variant of a union from its number and payload. -/
def readVariant (cases : List (String × PayloadReader)) : Wire → Option Datum
  | .array (number :: payload) => do
    let position ←
      match number with
      | .int value => if 0 ≤ value.val then some value.val.toNat else none
      | _ => none
    let (label, reader) ← cases[position]?
    let payload ←
      match payload with
      | [] => reader none
      | [value] => reader (some value)
      | _ => none
    return .variant position label payload
  | _ => none

mutual

/-- The datum of a schema that a wire value stands for, if any. -/
def ofWire? : Schema → Wire → Option Datum
  | .bool, .bool value => some (.bool value)
  | .int kind, .int value => intDatum? kind value
  | .f32, .int value => some (.f32 (singleOfInt value.val))
  | .f32, .f32 bits => some (.f32 bits)
  | .f32, .f64 bits => some (.f32 (narrow bits))
  | .f64, .int value => some (.f64 (doubleOfInt value.val))
  | .f64, .f32 bits => some (.f64 (widen bits))
  | .f64, .f64 bits => some (.f64 bits)
  | .char, .str value => (onlyChar? value).map .char
  | .text, value => (textOfWire? value).map .text
  | .unit, .nil => some .unit
  | .option _, .nil => some .absent
  | .option item, value => (ofWire? item value).map .present
  | .list item, .array values => (values.mapM (ofWire? item)).map .list
  | .map item, .map entries =>
    (entries.mapM fun (key, value) => do
      let key ← textOfWire? key
      let value ← ofWire? item value
      return (key, value)).map mapDatum
  | .tuple items, .array values => (readEach (readersOf items) values).map .tuple
  | .record _ fields, value => (readRecord (fieldsOf fields) value).map .tuple
  | .union _ cases, value => readVariant (casesOf cases) value
  | .guarded _, .int value =>
    if IntKind.i64.holds value.val then some (.guarded value) else none
  | .dyn, value => some (.dyn (.raw value none))
  | _, _ => none

/-- The readers of the items of a tuple. -/
def readersOf : List Schema → List (Wire → Option Datum)
  | [] => []
  | item :: rest => ofWire? item :: readersOf rest

/-- The readers of the fields of a record. -/
def fieldsOf : List (String × Schema) → List (Field (Wire → Option Datum))
  | [] => []
  | (label, item) :: rest => ⟨label, item.mayBeMissing, ofWire? item⟩ :: fieldsOf rest

/-- The readers of the variants of a union. -/
def casesOf : List (String × Case Schema) → List (String × PayloadReader)
  | [] => []
  | (label, carried) :: rest => (label, caseOf carried) :: casesOf rest

/-- The reader of what a variant carries. -/
def caseOf : Case Schema → PayloadReader
  | .unit => readUnit
  | .single body => readSingle (ofWire? body)
  | .tuple bodies => readTuple (readersOf bodies)
  | .record fields => readLabelled (fieldsOf fields)

end

end Schema
end TypedStore
