import TypedStore.Datum.ToWire
import TypedStore.Error
import TypedStore.Schema.OfWire

/-!
# Registries of schemas

A `Registry` knows schemas by their names.  The first schema registered under
a name stays, so the names in a registry are distinct; the structure carries
the proof.  Reading raw data under a name gives a typed value when the name is
known and the data fit its schema, and otherwise raw data that keep the name.
-/

namespace TypedStore

/-- The schemas that a reader can restore, each under its own name. -/
structure Registry where
  schemas : List Schema
  distinct : (schemas.map Schema.tag).Nodup

namespace Registry

/-- The registry without schemas. -/
def empty : Registry := ⟨[], List.nodup_nil⟩

instance : Inhabited Registry := ⟨empty⟩

/-- The schema registered under a name. -/
def find? (registry : Registry) (name : String) : Option Schema :=
  registry.schemas.find? fun schema => schema.tag == name

/-- Whether a schema of this name is registered. -/
def contains (registry : Registry) (name : String) : Bool :=
  (registry.schemas.map Schema.tag).contains name

/-- Add a schema, unless its name is taken. -/
def register (registry : Registry) (schema : Schema) : Registry :=
  if taken : schema.tag ∈ registry.schemas.map Schema.tag then registry
  else
    { schemas := registry.schemas ++ [schema]
      distinct := by
        rw [List.map_append]
        refine List.nodup_append.2 ⟨registry.distinct, by simp, ?_⟩
        intro first member second last
        simp only [List.map_cons, List.map_nil, List.mem_singleton] at last
        subst last
        exact fun same => taken (same ▸ member) }

/-- Add schemas one after another. -/
def registerAll (registry : Registry) (schemas : List Schema) : Registry :=
  schemas.foldl register registry

/-- The number of registered schemas. -/
def size (registry : Registry) : Nat :=
  registry.schemas.length

/-- The text that describes a registry. -/
def description (registry : Registry) : String :=
  "TypeRegistry \x7b types: " ++ toString registry.size ++ " \x7d"

/-- The dynamic value of data stored under a name. -/
def decode (registry : Registry) (name : String) (data : Wire) : DynValue :=
  match registry.find? name with
  | none => .raw data (some name)
  | some schema =>
    match schema.ofWire? data with
    | some datum => .typed schema datum
    | none => .raw data (some name)

end Registry

namespace DynValue

/-- Add the schema of a typed value to a registry. -/
def registerIn (value : DynValue) (registry : Registry) : Registry :=
  match value with
  | .typed schema _ => registry.register schema
  | .raw _ _ => registry

/-- The wire form of what a dynamic value holds. -/
def toWire (value : DynValue) : Except CodecError Wire :=
  (Datum.dynToWire value).mapError fun fault =>
    .serialization (WriteFault.converting fault.text)

/-- The value as a datum of a schema: what it holds if it has that very
schema, and otherwise what its wire form reads as. -/
def intoTyped (value : DynValue) (schema : Schema) : Except CodecError Datum := do
  match value with
  | .typed held datum => if held = schema then return datum
  | .raw _ _ => pure ()
  match schema.ofWire? (← value.toWire) with
  | some datum => return datum
  | none => throw (.deserialization "data do not fit the requested type")

end DynValue

end TypedStore
