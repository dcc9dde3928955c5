import TypedStore.Schema.Fields
import TypedStore.Wire.Reader

/-!
# Data straight from bytes

`readDirect` reads a datum of a schema from the front of a byte string
without building the wire value first.  It follows the rules of `ofWire?`
with three differences that belong to the byte level.  Where an array is
wanted, a byte string counts as the array of its bytes.  A label by position
must have an unsigned form.  And a variant is labelled: a map of one entry
from its label to what it carries, or, if it carries nothing, its bare label.

Arrays, maps and extensions count against the nesting levels.
-/

namespace TypedStore
namespace Schema

/-- A reader of one datum from the front of a byte string. -/
abbrev DirectReader := Bytes → Option (Datum × Bytes)

/-- A component of an array: read from the front of a byte string, or made
from one byte where a byte string stands for the array. -/
structure Component where
  fromBytes : DirectReader
  fromByte : UInt8 → Option Datum

/-- The datum that one byte of a byte string stands for. -/
def ofByte? : Schema → UInt8 → Option Datum
  | .int kind, byte => intDatum? kind (.ofByte byte)
  | .f32, byte => some (.f32 (singleOfInt byte.toNat))
  | .f64, byte => some (.f64 (doubleOfInt byte.toNat))
  | .guarded _, byte => some (.guarded (.ofByte byte))
  | .dyn, byte => some (.dyn (.raw (.ofByte byte) none))
  | _, _ => none

/-- A datum that needs no more than the head of a value. -/
def ofHead? : Schema → Wire.Head → Option Datum
  | .bool, .bool value => some (.bool value)
  | .int kind, .int _ value => intDatum? kind value
  | .f32, .int _ value => some (.f32 (singleOfInt value.val))
  | .f32, .f32 bits => some (.f32 bits)
  | .f32, .f64 bits => some (.f32 (narrow bits))
  | .f64, .int _ value => some (.f64 (doubleOfInt value.val))
  | .f64, .f32 bits => some (.f64 (widen bits))
  | .f64, .f64 bits => some (.f64 bits)
  | .char, .str value => do return .char (← onlyChar? (← Bytes.text? value))
  | .text, .str value => (Bytes.text? value).map .text
  | .text, .bin value => (Bytes.text? value).map .text
  | .unit, .nil => some .unit
  | .guarded _, .int _ value =>
    if IntKind.i64.holds value.val then some (.guarded value) else none
  | _, _ => none

/-- Apply a test to the head of the first value. -/
def readByHead (test : Wire.Head → Option Datum) : DirectReader := fun bytes => do
  let (head, rest) ← Wire.readHead bytes
  return (← test head, rest)

/-- A list, given the readers of its items for the levels inside it. -/
def readListDirect (levels : Nat) (inner : Nat → DirectReader) (fromByte : UInt8 → Option Datum) :
    DirectReader := fun bytes => do
  match ← Wire.readHead bytes with
  | (.array length, rest) =>
    match levels with
    | 0 => none
    | levels + 1 =>
      let (items, rest) ← Wire.readTimes (inner levels) length rest
      return (.list items, rest)
  | (.bin data, rest) => return (.list (← data.mapM fromByte), rest)
  | _ => none

/-- Read the components one after another. -/
def readInOrder : List Component → Bytes → Option (List Datum × Bytes)
  | [], bytes => some ([], bytes)
  | component :: components, bytes => do
    let (datum, rest) ← component.fromBytes bytes
    let (others, rest) ← readInOrder components rest
    return (datum :: others, rest)

/-- Make the components from the bytes of a byte string, one each. -/
def makeFromBytes : List Component → Bytes → Option (List Datum)
  | [], [] => some []
  | component :: components, byte :: rest => do
    let datum ← component.fromByte byte
    return datum :: (← makeFromBytes components rest)
  | _, _ => none

/-- An array of exactly these components, its head already read. -/
def readComponents (components : List Component) :
    Wire.Head → Bytes → Option (List Datum × Bytes)
  | .array length, rest => if length = components.length then readInOrder components rest else none
  | .bin data, rest => (makeFromBytes components data).map fun items => (items, rest)
  | _, _ => none

/-- The label at the front of a byte string. -/
def readLabel (labels : List String) (bytes : Bytes) : Option (Label × Bytes) := do
  match ← Wire.readHead bytes with
  | (.str value, rest) => return (labelOfBytes labels value, rest)
  | (.bin value, rest) => return (labelOfBytes labels value, rest)
  | (.int false value, rest) => return (labelOfNat labels value.val.toNat, rest)
  | _ => none

/-- The fields found among the next entries of a map, by position.  The value
of an unknown label is skipped. -/
def readEntries (fields : List (Field Component)) (levels : Nat) :
    (count : Nat) → List (Nat × Datum) → Bytes → Option (List (Nat × Datum) × Bytes)
  | 0, found, bytes => some (found, bytes)
  | count + 1, found, bytes => do
    match ← readLabel (fields.map Field.label) bytes with
    | (.unknown, rest) =>
      let (_, rest) ← Wire.read levels rest
      readEntries fields levels count found rest
    | (.known position, rest) =>
      let field ← fields[position]?
      if (found.lookup position).isSome then none
      else
        let (datum, rest) ← field.read.fromBytes rest
        readEntries fields levels count ((position, datum) :: found) rest

/-- A record, given its fields for the levels inside it. -/
def readRecordDirect (levels : Nat) (fieldsAt : Nat → List (Field Component))
    (bytes : Bytes) : Option (List Datum × Bytes) := do
  let (head, rest) ← Wire.readHead bytes
  match head, levels with
  | .bin _, levels => readComponents ((fieldsAt levels).map Field.read) head rest
  | .array _, levels + 1 => readComponents ((fieldsAt levels).map Field.read) head rest
  | .map length, levels + 1 =>
    let (found, rest) ← readEntries (fieldsAt levels) levels length [] rest
    return (← gather found 0 (fieldsAt levels), rest)
  | _, _ => none

/-- A tuple, given its components for the levels inside it. -/
def readTupleDirect (levels : Nat) (componentsAt : Nat → List Component)
    (bytes : Bytes) : Option (List Datum × Bytes) := do
  let (head, rest) ← Wire.readHead bytes
  match head, levels with
  | .bin _, levels => readComponents (componentsAt levels) head rest
  | .array _, levels + 1 => readComponents (componentsAt levels) head rest
  | _, _ => none

/-- How a variant reads what it carries, and whether it carries nothing. -/
structure CaseReader where
  label : String
  isUnit : Bool
  read : Bytes → Option (Payload Datum × Bytes)

/-- What a labelled variant carries when it carries nothing. -/
def readNil (bytes : Bytes) : Option (Payload Datum × Bytes) := do
  match ← Wire.readHead bytes with
  | (.nil, rest) => return (.none, rest)
  | _ => none

/-- A labelled variant of a union. -/
def readUnionDirect (cases : List CaseReader) : DirectReader := fun bytes => do
  let labels := cases.map CaseReader.label
  match ← Wire.readHead bytes with
  | (.map length, rest) =>
    if length = 1 then
      match ← readLabel labels rest with
      | (.known position, rest) =>
        let found ← cases[position]?
        let (payload, rest) ← found.read rest
        return (.variant position found.label payload, rest)
      | (.unknown, _) => none
    else none
  | _ =>
    match ← readLabel labels bytes with
    | (.known position, rest) =>
      let found ← cases[position]?
      if found.isUnit then return (.variant position found.label .none, rest) else none
    | (.unknown, _) => none

/-- A map of texts, given the reader of its values for the levels inside. -/
def readMapDirect (levels : Nat) (inner : Nat → DirectReader) : DirectReader := fun bytes => do
  match ← Wire.readHead bytes, levels with
  | (.map length, rest), levels + 1 =>
    let readKey : Bytes → Option (String × Bytes) := fun bytes => do
      match ← Wire.readHead bytes with
      | (.str value, rest) => return (← Bytes.text? value, rest)
      | (.bin value, rest) => return (← Bytes.text? value, rest)
      | _ => none
    let (entries, rest) ← Wire.readTimes (Wire.readPair readKey (inner levels)) length rest
    return (mapDatum entries, rest)
  | _, _ => none

mutual

/-- Read a datum of a schema, opening at most `levels` nested levels. -/
def readDirect : Schema → (levels : Nat) → DirectReader
  | .option item, levels => fun bytes => do
    match ← Wire.readHead bytes with
    | (.nil, rest) => return (.absent, rest)
    | _ =>
      let (datum, rest) ← readDirect item levels bytes
      return (.present datum, rest)
  | .list item, levels =>
    readListDirect levels (readDirect item) (ofByte? item)
  | .map item, levels => readMapDirect levels (readDirect item)
  | .tuple items, levels => fun bytes =>
    (readTupleDirect levels (componentsOf items) bytes).map fun (items, rest) =>
      (.tuple items, rest)
  | .record _ fields, levels => fun bytes =>
    (readRecordDirect levels (directFieldsOf fields) bytes).map fun (items, rest) =>
      (.tuple items, rest)
  | .union _ cases, levels => readUnionDirect (directCasesOf cases levels)
  | .dyn, levels => fun bytes =>
    (Wire.read levels bytes).map fun (data, rest) => (.dyn (.raw data none), rest)
  | schema, _ => readByHead (ofHead? schema)

/-- The components of a tuple. -/
def componentsOf : List Schema → (levels : Nat) → List Component
  | [], _ => []
  | item :: rest, levels => ⟨readDirect item levels, ofByte? item⟩ :: componentsOf rest levels

/-- The fields of a record. -/
def directFieldsOf : List (String × Schema) → (levels : Nat) → List (Field Component)
  | [], _ => []
  | (label, item) :: rest, levels =>
    ⟨label, item.mayBeMissing, readDirect item levels, ofByte? item⟩ ::
      directFieldsOf rest levels

/-- The variants of a union. -/
def directCasesOf : List (String × Case Schema) → (levels : Nat) → List CaseReader
  | [], _ => []
  | (label, carried) :: rest, levels =>
    directCaseOf label carried levels :: directCasesOf rest levels

/-- One variant of a union. -/
def directCaseOf (label : String) : Case Schema → (levels : Nat) → CaseReader
  | .unit, _ => ⟨label, true, readNil⟩
  | .single body, levels =>
    ⟨label, false, fun bytes =>
      (readDirect body levels bytes).map fun (item, rest) => (.one item, rest)⟩
  | .tuple bodies, levels =>
    ⟨label, false, fun bytes =>
      (readTupleDirect levels (componentsOf bodies) bytes).map fun (items, rest) =>
        (.many items, rest)⟩
  | .record fields, levels =>
    ⟨label, false, fun bytes =>
      (readRecordDirect levels (directFieldsOf fields) bytes).map fun (items, rest) =>
        (.many items, rest)⟩

end

end Schema
end TypedStore
