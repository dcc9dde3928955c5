import TypedStore.Envelope
import TypedStore.Listing

/-!
# Tables

A table is a map or a set that keeps its items by hash.  It draws a hash function
when it is read, gives its items in the order of their places for as long as it
lasts, and is written in this order.  So readers that pass the same items on write
them in different orders, and schemas, which have one wire form for each value, have
no tables.

A `TableType` is a type with tables somewhere in its values.  A `TypeRegistry`
knows such types beside schemas, and a `HeldValue` is a value of either, or raw
data.  Where there are no tables these are a `Registry` and a `DynValue`.
-/

namespace TypedStore

/-- The hash function that tables draw when a value is read: the place of each key or
item.  Those of one place come as they were read. -/
structure TableOrder where
  place : Datum → Nat

namespace TableOrder

variable {α : Type}

/-- Put an item in front of the first one whose place is not before its own. -/
def insert (place : α → Nat) (item : α) : List α → List α
  | [] => [item]
  | other :: rest =>
    if place item ≤ place other then item :: other :: rest else other :: insert place item rest

/-- The items of a table in its order. -/
def arrange (place : α → Nat) (items : List α) : List α :=
  items.foldr (insert place) []

theorem insert_perm (place : α → Nat) (item : α) (items : List α) :
    (insert place item items).Perm (item :: items) := by
  induction items with
  | nil => exact .refl _
  | cons other rest hypothesis =>
    rw [insert]
    split
    · exact .refl _
    · exact (hypothesis.cons other).trans (.swap item other rest)

theorem arrange_perm (place : α → Nat) (items : List α) : (arrange place items).Perm items := by
  induction items with
  | nil => exact .refl _
  | cons item rest hypothesis => exact (insert_perm place item _).trans (hypothesis.cons item)

/-- The entries of a map by the places of their keys. -/
def arrangeEntries (order : TableOrder) (entries : List (String × Datum)) :
    List (String × Datum) :=
  arrange (fun entry => order.place (.text entry.1)) entries

end TableOrder

/-- A type with tables in its values.  A value is the datum that it is written as.  The
order has no say in which data fit the type. -/
structure TableType where
  tag : String
  read : TableOrder → Wire → Option Datum
  accepts : ∀ first second data, (read first data).isSome = (read second data).isSome

namespace TableType

/-- The entries of a map, in any order, as they were read. -/
def entriesOfWire? (item : Schema) (entries : List (Wire × Wire)) :
    Option (List (String × Datum)) :=
  entries.mapM fun (key, value) => do
    let key ← Schema.textOfWire? key
    let value ← item.ofWire? value
    return (key, value)

/-- Entries without repeated keys, the last value of each. -/
def lastOfEach (entries : List (String × Datum)) : List (String × Datum) :=
  entries.foldl (fun kept entry => Listing.put entry.1 entry.2 kept) []

/-- Maps from texts that keep their entries by hash. -/
def map (item : Schema) : TableType where
  tag := "std::collections::hash::map::HashMap<alloc::string::String, " ++ item.tag ++ ">"
  read order
    | .map entries =>
      (entriesOfWire? item entries).map fun found => .map (order.arrangeEntries (lastOfEach found))
    | _ => none
  accepts first second data := by
    cases data with
    | map entries => simp only [Option.isSome_map]
    | _ => rfl

/-- Sets that keep their items by hash. -/
def set (item : Schema) : TableType where
  tag := "std::collections::hash::set::HashSet<" ++ item.tag ++ ">"
  read order
    | .array values =>
      (values.mapM item.ofWire?).map fun found =>
        .list (TableOrder.arrange order.place (found.foldr List.insert []))
    | _ => none
  accepts first second data := by
    cases data with
    | array values => simp only [Option.isSome_map]
    | _ => rfl

end TableType

/-- The value that a type makes of data, or the refusal of them. -/
def TableType.interpret (type : TableType) (order : TableOrder) (data : Wire) :
    Except CodecError Datum :=
  match type.read order data with
  | some contents => .ok contents
  | none => .error (.deserialization "data do not fit the requested type")

/-- A value whose type is known only when the program runs, with tables or without. -/
inductive HeldValue where
  | plain (value : DynValue)
  | table (type : TableType) (contents : Datum)

namespace HeldValue

/-- The name of the type, as raw data tell it. -/
def typeName : HeldValue → Option String
  | plain value => value.typeName
  | table type _ => some type.tag

/-- The wire form of what is held. -/
def toWire : HeldValue → Except CodecError Wire
  | plain value => value.toWire
  | table _ contents => (contents.toWire .numbered).mapError fun fault =>
    .serialization (WriteFault.converting fault.text)

/-- The value as a datum of a schema.  A table has to be written and read again. -/
def intoTyped (value : HeldValue) (schema : Schema) : Except CodecError Datum :=
  match value with
  | plain value => value.intoTyped schema
  | table _ _ => value.toWire >>= fun data => (DynValue.raw data none).intoTyped schema

/-- The value as one of a type with tables: what it holds if it has that very type, and
otherwise what its wire form reads as. -/
def intoTable (value : HeldValue) (order : TableOrder) (type : TableType) :
    Except CodecError Datum := do
  match value with
  | table held contents => if held.tag = type.tag then return contents
  | plain _ => pure ()
  type.interpret order (← value.toWire)

end HeldValue

/-- A registry that also knows types with tables, all under different names. -/
structure TypeRegistry where
  schemas : Registry
  tables : List TableType
  distinct : (schemas.schemas.map Schema.tag ++ tables.map TableType.tag).Nodup

namespace TypeRegistry

/-- A registry of schemas alone. -/
def ofSchemas (schemas : Registry) : TypeRegistry :=
  ⟨schemas, [], by simpa using schemas.distinct⟩

/-- The type with tables that is registered under a name. -/
def table? (registry : TypeRegistry) (name : String) : Option TableType :=
  registry.tables.find? fun type => type.tag == name

/-- The names of all types. -/
def names (registry : TypeRegistry) : List String :=
  registry.schemas.schemas.map Schema.tag ++ registry.tables.map TableType.tag

/-- Add a schema, unless its name is taken. -/
def registerSchema (registry : TypeRegistry) (schema : Schema) : TypeRegistry :=
  if taken : schema.tag ∈ registry.names then registry
  else
    { registry with
      schemas := registry.schemas.register schema
      distinct := by
        have free : schema.tag ∉ registry.schemas.schemas.map Schema.tag :=
          fun member => taken (List.mem_append_left _ member)
        rw [Registry.register, dif_neg free, List.map_append, List.append_assoc]
        exact (List.perm_middle.nodup_iff).mpr (List.nodup_cons.mpr ⟨taken, registry.distinct⟩) }

/-- Add a type with tables, unless its name is taken. -/
def registerTable (registry : TypeRegistry) (type : TableType) : TypeRegistry :=
  if taken : type.tag ∈ registry.names then registry
  else
    { registry with
      tables := type :: registry.tables
      distinct := (List.perm_middle.nodup_iff).mpr
        (List.nodup_cons.mpr ⟨taken, registry.distinct⟩) }

/-- The value of data stored under a name. -/
def decode (registry : TypeRegistry) (order : TableOrder) (name : String) (data : Wire) :
    HeldValue :=
  match registry.table? name with
  | none => .plain (registry.schemas.decode name data)
  | some type =>
    match type.read order data with
    | some contents => .table type contents
    | none => .plain (.raw data (some name))

end TypeRegistry

/-- Add the type of a typed value to a registry. -/
def HeldValue.registerIn (value : HeldValue) (registry : TypeRegistry) : TypeRegistry :=
  match value with
  | plain (.typed schema _) => registry.registerSchema schema
  | plain (.raw _ _) => registry
  | table type _ => registry.registerTable type

/-- The payload of a value, and the registry with its type added. -/
def encodeHeld (value : HeldValue) (registry : TypeRegistry) :
    Except CodecError Bytes × TypeRegistry :=
  (value.toWire.map fun data => (Envelope.wrap data value.typeName).write,
    value.registerIn registry)

/-- The value of a payload, its name resolved by a registry. -/
def decodeHeld (order : TableOrder) (bytes : Bytes) (registry : TypeRegistry) :
    Except CodecError HeldValue := do
  let (data, name) ← Envelope.open? bytes
  match name with
  | some name => return registry.decode order name data
  | none => return .plain (.raw data none)

/-- The value of a type with tables in a payload. -/
def decodeTable (order : TableOrder) (type : TableType) (bytes : Bytes) :
    Except CodecError Datum := do
  let (data, _) ← Envelope.open? bytes
  type.interpret order data

end TypedStore
