/-!
# Schemas

A `Schema` describes a type of keys or values: scalars, options, lists,
maps from texts that are ordered by key, tuples, records, unions, and the
dynamic type that holds a value of any schema.  A schema has a name,
`Schema.tag`, under which values of it are labelled in storage.

Every value of a schema is written in one order.  Maps and sets that keep
their items by hash are no schemas: their order changes each time they are
read.  `TableType` has them.

Records and unions are known by their names; the names of composite types are
built from those of their parts.  Schemas are compared structurally, and
`same_iff` gives decidable equality.
-/

namespace TypedStore

/-- The fixed widths of integers. -/
inductive IntKind where
  | i8 | i16 | i32 | i64 | u8 | u16 | u32 | u64
  deriving DecidableEq, Repr

namespace IntKind

/-- The smallest member. -/
def lowest : IntKind → Int
  | .i8 => -0x80
  | .i16 => -0x8000
  | .i32 => -0x80000000
  | .i64 => -0x8000000000000000
  | _ => 0

/-- The largest member. -/
def highest : IntKind → Int
  | .i8 => 0x7f
  | .i16 => 0x7fff
  | .i32 => 0x7fffffff
  | .i64 => 0x7fffffffffffffff
  | .u8 => 0xff
  | .u16 => 0xffff
  | .u32 => 0xffffffff
  | .u64 => 0xffffffffffffffff

/-- Whether an integer fits the width. -/
def holds (kind : IntKind) (value : Int) : Bool :=
  decide (kind.lowest ≤ value ∧ value ≤ kind.highest)

/-- The name of the width. -/
def tag : IntKind → String
  | .i8 => "i8"
  | .i16 => "i16"
  | .i32 => "i32"
  | .i64 => "i64"
  | .u8 => "u8"
  | .u16 => "u16"
  | .u32 => "u32"
  | .u64 => "u64"

end IntKind

/-- What a variant of a union carries: nothing, one value, a tuple, or
labelled fields. -/
inductive Case (α : Type) where
  | unit
  | single (body : α)
  | tuple (bodies : List α)
  | record (fields : List (String × α))

/-- A type of keys or values. -/
inductive Schema where
  | bool
  | int (kind : IntKind)
  | f32
  | f64
  | char
  | text
  | unit
  | option (item : Schema)
  | list (item : Schema)
  /-- Maps from texts, ordered by key. -/
  | map (item : Schema)
  | tuple (items : List Schema)
  | record (name : String) (fields : List (String × Schema))
  | union (name : String) (cases : List (String × Case Schema))
  /-- A named integer of eight bytes whose negative values cannot be written. -/
  | guarded (name : String)
  /-- A value of any schema, or raw data. -/
  | dyn
  deriving Inhabited

namespace Schema

/-- A list of bytes. -/
def bytes : Schema := .list (.int .u8)

mutual

/-- The name under which values of a schema are labelled. -/
def tag : Schema → String
  | .bool => "bool"
  | .int kind => kind.tag
  | .f32 => "f32"
  | .f64 => "f64"
  | .char => "char"
  | .text => "alloc::string::String"
  | .unit => "()"
  | .option item => "core::option::Option<" ++ tag item ++ ">"
  | .list item => "alloc::vec::Vec<" ++ tag item ++ ">"
  | .map item =>
    "alloc::collections::btree::map::BTreeMap<alloc::string::String, " ++ tag item ++ ">"
  | .tuple [] => "()"
  | .tuple [item] => "(" ++ tag item ++ ",)"
  | .tuple (first :: second :: rest) => "(" ++ tag first ++ tags (second :: rest) ++ ")"
  | .record name _ => name
  | .union name _ => name
  | .guarded name => name
  | .dyn => "tidemap_storage::registry::DynValue"

/-- The names of further components, each after a comma. -/
def tags : List Schema → String
  | [] => ""
  | item :: rest => ", " ++ tag item ++ tags rest

end

mutual

/-- Structural comparison of schemas. -/
def same : Schema → Schema → Bool
  | .bool, .bool => true
  | .int first, .int second => decide (first = second)
  | .f32, .f32 => true
  | .f64, .f64 => true
  | .char, .char => true
  | .text, .text => true
  | .unit, .unit => true
  | .option first, .option second => same first second
  | .list first, .list second => same first second
  | .map first, .map second => same first second
  | .tuple first, .tuple second => sameItems first second
  | .record firstName first, .record secondName second =>
    decide (firstName = secondName) && sameFields first second
  | .union firstName first, .union secondName second =>
    decide (firstName = secondName) && sameCases first second
  | .guarded first, .guarded second => decide (first = second)
  | .dyn, .dyn => true
  | _, _ => false

/-- Structural comparison of lists of schemas. -/
def sameItems : List Schema → List Schema → Bool
  | [], [] => true
  | first :: firsts, second :: seconds => same first second && sameItems firsts seconds
  | _, _ => false

/-- Structural comparison of labelled fields. -/
def sameFields : List (String × Schema) → List (String × Schema) → Bool
  | [], [] => true
  | (firstLabel, first) :: firsts, (secondLabel, second) :: seconds =>
    decide (firstLabel = secondLabel) && same first second && sameFields firsts seconds
  | _, _ => false

/-- Structural comparison of labelled variants. -/
def sameCases : List (String × Case Schema) → List (String × Case Schema) → Bool
  | [], [] => true
  | (firstLabel, first) :: firsts, (secondLabel, second) :: seconds =>
    decide (firstLabel = secondLabel) && sameCase first second && sameCases firsts seconds
  | _, _ => false

/-- Structural comparison of what two variants carry. -/
def sameCase : Case Schema → Case Schema → Bool
  | .unit, .unit => true
  | .single first, .single second => same first second
  | .tuple first, .tuple second => sameItems first second
  | .record first, .record second => sameFields first second
  | _, _ => false

end

mutual

theorem same_iff : ∀ first second : Schema, same first second = true ↔ first = second
  | .bool, second => by cases second <;> simp [same]
  | .int _, second => by cases second <;> simp [same]
  | .f32, second => by cases second <;> simp [same]
  | .f64, second => by cases second <;> simp [same]
  | .char, second => by cases second <;> simp [same]
  | .text, second => by cases second <;> simp [same]
  | .unit, second => by cases second <;> simp [same]
  | .option item, second => by cases second <;> simp [same, same_iff item]
  | .list item, second => by cases second <;> simp [same, same_iff item]
  | .map item, second => by cases second <;> simp [same, same_iff item]
  | .tuple items, second => by cases second <;> simp [same, sameItems_iff items]
  | .record _ fields, second => by cases second <;> simp [same, sameFields_iff fields]
  | .union _ cases, second => by cases second <;> simp [same, sameCases_iff cases]
  | .guarded _, second => by cases second <;> simp [same]
  | .dyn, second => by cases second <;> simp [same]

theorem sameItems_iff :
    ∀ first second : List Schema, sameItems first second = true ↔ first = second
  | [], second => by cases second <;> simp [sameItems]
  | item :: rest, second => by
    cases second <;> simp [sameItems, same_iff item, sameItems_iff rest]

theorem sameFields_iff :
    ∀ first second : List (String × Schema), sameFields first second = true ↔ first = second
  | [], second => by cases second <;> simp [sameFields]
  | _ :: _, [] => by simp [sameFields]
  | (label, item) :: rest, (otherLabel, other) :: others => by
    simp [sameFields, same_iff item, sameFields_iff rest]

theorem sameCases_iff :
    ∀ first second : List (String × Case Schema), sameCases first second = true ↔ first = second
  | [], second => by cases second <;> simp [sameCases]
  | _ :: _, [] => by simp [sameCases]
  | (label, item) :: rest, (otherLabel, other) :: others => by
    simp [sameCases, sameCase_iff item, sameCases_iff rest]

theorem sameCase_iff :
    ∀ first second : Case Schema, sameCase first second = true ↔ first = second
  | .unit, second => by cases second <;> simp [sameCase]
  | .single body, second => by cases second <;> simp [sameCase, same_iff body]
  | .tuple bodies, second => by cases second <;> simp [sameCase, sameItems_iff bodies]
  | .record fields, second => by cases second <;> simp [sameCase, sameFields_iff fields]

end

instance : DecidableEq Schema :=
  fun first second => decidable_of_iff _ (same_iff first second)

/-- Whether a record field of this schema may be left out, and then counts
as an absent option. -/
def mayBeMissing : Schema → Bool
  | .option _ => true
  | _ => false

end Schema

end TypedStore
