import TypedStore.Schema
import TypedStore.Wire

/-!
# Data

A `Datum` is a value of some schema.  It says everything that writing needs,
down to the number and the label of a union's variant; which schemas it
belongs to is decided by `Datum.fits`.

A `DynValue` is a value whose schema is known only when the program runs:
either a datum together with its schema, or raw data, perhaps with the name
it was stored under.  Data may hold dynamic values and dynamic values hold
data, so the two types are declared together.
-/

namespace TypedStore

/-- What a variant of a union holds. -/
inductive Payload (α : Type) where
  | none
  | one (item : α)
  | many (items : List α)

mutual

/-- A value of a schema. -/
inductive Datum where
  | bool (value : Bool)
  | int (value : WireInt)
  | f32 (bits : UInt32)
  | f64 (bits : UInt64)
  | char (value : Char)
  | text (value : String)
  | unit
  | absent
  | present (item : Datum)
  | list (items : List Datum)
  /-- Entries in ascending order of their keys. -/
  | map (entries : List (String × Datum))
  /-- A tuple or the fields of a record. -/
  | tuple (items : List Datum)
  | variant (index : Nat) (label : String) (payload : Payload Datum)
  /-- An integer that cannot be written when it is negative. -/
  | guarded (value : WireInt)
  | dyn (value : DynValue)

/-- A value whose schema is known only when the program runs. -/
inductive DynValue where
  | typed (schema : Schema) (datum : Datum)
  | raw (data : Wire) (name : Option String)

end

instance : Inhabited Datum := ⟨.unit⟩

instance : Inhabited DynValue := ⟨.raw .nil none⟩

namespace Datum

mutual

/-- Structural comparison of data. -/
def same : Datum → Datum → Bool
  | .bool first, .bool second => first == second
  | .int first, .int second => decide (first = second)
  | .f32 first, .f32 second => decide (first = second)
  | .f64 first, .f64 second => decide (first = second)
  | .char first, .char second => decide (first = second)
  | .text first, .text second => decide (first = second)
  | .unit, .unit => true
  | .absent, .absent => true
  | .present first, .present second => same first second
  | .list first, .list second => sameItems first second
  | .map first, .map second => sameEntries first second
  | .tuple first, .tuple second => sameItems first second
  | .variant firstIndex firstLabel first, .variant secondIndex secondLabel second =>
    decide (firstIndex = secondIndex) && decide (firstLabel = secondLabel)
      && samePayload first second
  | .guarded first, .guarded second => decide (first = second)
  | .dyn first, .dyn second => sameDyn first second
  | _, _ => false

/-- Structural comparison of lists of data. -/
def sameItems : List Datum → List Datum → Bool
  | [], [] => true
  | first :: firsts, second :: seconds => same first second && sameItems firsts seconds
  | _, _ => false

/-- Structural comparison of the entries of maps. -/
def sameEntries : List (String × Datum) → List (String × Datum) → Bool
  | [], [] => true
  | (firstKey, first) :: firsts, (secondKey, second) :: seconds =>
    decide (firstKey = secondKey) && same first second && sameEntries firsts seconds
  | _, _ => false

/-- Structural comparison of what variants hold. -/
def samePayload : Payload Datum → Payload Datum → Bool
  | .none, .none => true
  | .one first, .one second => same first second
  | .many first, .many second => sameItems first second
  | _, _ => false

/-- Structural comparison of dynamic values. -/
def sameDyn : DynValue → DynValue → Bool
  | .typed firstSchema first, .typed secondSchema second =>
    decide (firstSchema = secondSchema) && same first second
  | .raw first firstName, .raw second secondName =>
    decide (first = second) && decide (firstName = secondName)
  | _, _ => false

end

mutual

theorem same_iff : ∀ first second : Datum, same first second = true ↔ first = second
  | .bool _, second => by cases second <;> simp [same]
  | .int _, second => by cases second <;> simp [same]
  | .f32 _, second => by cases second <;> simp [same]
  | .f64 _, second => by cases second <;> simp [same]
  | .char _, second => by cases second <;> simp [same]
  | .text _, second => by cases second <;> simp [same]
  | .unit, second => by cases second <;> simp [same]
  | .absent, second => by cases second <;> simp [same]
  | .present item, second => by cases second <;> simp [same, same_iff item]
  | .list items, second => by cases second <;> simp [same, sameItems_iff items]
  | .map entries, second => by cases second <;> simp [same, sameEntries_iff entries]
  | .tuple items, second => by cases second <;> simp [same, sameItems_iff items]
  | .variant _ _ payload, second => by
    cases second <;> simp [same, samePayload_iff payload, and_assoc]
  | .guarded _, second => by cases second <;> simp [same]
  | .dyn value, second => by cases second <;> simp [same, sameDyn_iff value]

theorem sameItems_iff :
    ∀ first second : List Datum, sameItems first second = true ↔ first = second
  | [], second => by cases second <;> simp [sameItems]
  | item :: rest, second => by
    cases second <;> simp [sameItems, same_iff item, sameItems_iff rest]

theorem sameEntries_iff :
    ∀ first second : List (String × Datum), sameEntries first second = true ↔ first = second
  | [], second => by cases second <;> simp [sameEntries]
  | _ :: _, [] => by simp [sameEntries]
  | (key, item) :: rest, (otherKey, other) :: others => by
    simp [sameEntries, same_iff item, sameEntries_iff rest]

theorem samePayload_iff :
    ∀ first second : Payload Datum, samePayload first second = true ↔ first = second
  | .none, second => by cases second <;> simp [samePayload]
  | .one item, second => by cases second <;> simp [samePayload, same_iff item]
  | .many items, second => by cases second <;> simp [samePayload, sameItems_iff items]

theorem sameDyn_iff : ∀ first second : DynValue, sameDyn first second = true ↔ first = second
  | .typed _ datum, second => by cases second <;> simp [sameDyn, same_iff datum]
  | .raw _ _, second => by cases second <;> simp [sameDyn]

end

instance : DecidableEq Datum :=
  fun first second => decidable_of_iff _ (same_iff first second)

instance : DecidableEq DynValue :=
  fun first second => decidable_of_iff _ (sameDyn_iff first second)

/-- The entry keys of a map in strictly ascending order, which is also the
order of their UTF-8 bytes. -/
def ascending (entries : List (String × Datum)) : Bool :=
  decide (entries.Pairwise fun first second => first.1 < second.1)

mutual

/-- Whether a datum is a value of a schema. -/
def fits : Datum → Schema → Bool
  | .bool _, .bool => true
  | .int value, .int kind => kind.holds value.val
  | .f32 _, .f32 => true
  | .f64 _, .f64 => true
  | .char _, .char => true
  | .text _, .text => true
  | .unit, .unit => true
  | .absent, .option _ => true
  | .present datum, .option item => fits datum item
  | .list items, .list item => allFit items item
  | .map entries, .map item => ascending entries && entriesFit entries item
  | .tuple items, .tuple schemas => eachFits items schemas
  | .tuple items, .record _ fields => eachFits items (fields.map Prod.snd)
  | .variant index label payload, .union _ cases =>
    match cases[index]? with
    | some (wanted, carried) => decide (label = wanted) && payloadFits payload carried
    | none => false
  | .guarded value, .guarded _ => IntKind.i64.holds value.val
  | .dyn value, .dyn => dynFits value
  | _, _ => false

/-- Whether all data are values of one schema. -/
def allFit : List Datum → Schema → Bool
  | [], _ => true
  | item :: rest, schema => fits item schema && allFit rest schema

/-- Whether the data are values of the schemas, one by one. -/
def eachFits : List Datum → List Schema → Bool
  | [], [] => true
  | item :: rest, schema :: schemas => fits item schema && eachFits rest schemas
  | _, _ => false

/-- Whether the values of a map are values of one schema. -/
def entriesFit : List (String × Datum) → Schema → Bool
  | [], _ => true
  | (_, item) :: rest, schema => fits item schema && entriesFit rest schema

/-- Whether a variant holds what its case carries. -/
def payloadFits : Payload Datum → Case Schema → Bool
  | .none, .unit => true
  | .one item, .single body => fits item body
  | .many items, .tuple bodies => eachFits items bodies
  | .many items, .record fields => eachFits items (fields.map Prod.snd)
  | _, _ => false

/-- Whether a dynamic value that names a schema holds a value of it. -/
def dynFits : DynValue → Bool
  | .typed schema datum => fits datum schema
  | .raw _ _ => true

end

/-- A byte as a datum. -/
def ofByte (byte : UInt8) : Datum :=
  .int (.ofByte byte)

end Datum

namespace DynValue

/-- Whether the schema is known. -/
def isTyped : DynValue → Bool
  | .typed _ _ => true
  | .raw _ _ => false

/-- The name of the schema; raw data answers with the name it was stored
under, if it had one. -/
def typeName : DynValue → Option String
  | .typed schema _ => some schema.tag
  | .raw _ name => name

/-- The raw data of a value whose schema is not known. -/
def raw? : DynValue → Option Wire
  | .typed _ _ => none
  | .raw data _ => some data

end DynValue

end TypedStore
