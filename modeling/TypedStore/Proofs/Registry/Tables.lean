import TypedStore.Proofs.Registry.Lookup
import TypedStore.Table

/-!
# Look-ups in a registry with tables

A name belongs to a schema, to a type with tables or to nobody.  So what the schemas
make of data counts, unless the name is that of a type with tables which takes the
data.  Such a type takes the same data whatever order it draws, and a value without
tables is found again in every order.
-/

namespace TypedStore
namespace TypeRegistry

/-- Whether what a registry has under the name of a schema, if anything, is that schema. -/
structure AgreesOn (registry : TypeRegistry) (schema : Schema) : Prop where
  schemas : ∀ held ∈ registry.schemas.schemas, held.tag = schema.tag → held = schema
  noTable : registry.table? schema.tag = none

variable {registry : TypeRegistry} {name : String} {type : TableType} {schema : Schema}

theorem table?_eq_none_iff :
    registry.table? name = none ↔ name ∉ registry.tables.map TableType.tag :=
  find?_tag_eq_none_iff

theorem tag_of_table? (found : registry.table? name = some type) : type.tag = name :=
  tag_of_find?_tag found

/-- No schema has the name of a type with tables. -/
theorem not_mem_of_table? (found : registry.table? name = some type) :
    name ∉ registry.schemas.schemas.map Schema.tag := by
  have apart := (List.nodup_append.mp registry.distinct).2.2
  intro member
  exact apart name member type.tag
    (List.mem_map_of_mem (List.mem_of_find?_eq_some found)) (tag_of_table? found).symm

theorem agreesOn_of_not_mem (unknown : schema.tag ∉ registry.names) :
    registry.AgreesOn schema where
  schemas held member same := by
    refine absurd ?_ unknown
    rw [← same]
    exact List.mem_append_left _ (List.mem_map_of_mem member)
  noTable := table?_eq_none_iff.mpr fun member => unknown (List.mem_append_right _ member)

/-- The name of a member is not that of a type with tables. -/
theorem table?_of_mem (member : schema ∈ registry.schemas.schemas) :
    registry.table? schema.tag = none := by
  cases found : registry.table? schema.tag with
  | none => rfl
  | some type => exact absurd (List.mem_map_of_mem member) (not_mem_of_table? found)

/-- The name of a type with tables leads to it. -/
theorem table?_of_mem_tables (member : type ∈ registry.tables) :
    registry.table? type.tag = some type :=
  find?_tag_of_mem (List.nodup_append.mp registry.distinct).2.1 member

/-- A member is not registered a second time. -/
theorem registerSchema_of_mem (member : schema ∈ registry.schemas.schemas) :
    registry.registerSchema schema = registry :=
  dif_pos (List.mem_append_left _ (List.mem_map_of_mem member))

theorem registerTable_of_mem (member : type ∈ registry.tables) :
    registry.registerTable type = registry :=
  dif_pos (List.mem_append_right _ (List.mem_map_of_mem member))

/-- Data under a name that is no type with tables are read by the schemas alone. -/
theorem decode_of_table?_eq_none (free : registry.table? name = none) (order : TableOrder)
    (data : Wire) :
    registry.decode order name data = .plain (registry.schemas.decode name data) := by
  rw [decode, free]

/-- A value without tables is what the schemas alone make of the data, and comes of them
whatever the order. -/
theorem decode_of_eq_plain {first : TableOrder} {data : Wire} {value : DynValue}
    (decoded : registry.decode first name data = .plain value) :
    registry.schemas.decode name data = value ∧
      ∀ later, registry.decode later name data = .plain value := by
  cases found : registry.table? name with
  | none =>
    rw [decode_of_table?_eq_none found] at decoded
    refine ⟨HeldValue.plain.inj decoded, ?_⟩
    intro later
    rw [decode_of_table?_eq_none found, decoded]
  | some type =>
    rw [decode, found] at decoded
    dsimp only at decoded
    split at decoded
    · cases decoded
    · next refused =>
      refine ⟨?_, ?_⟩
      · rw [Registry.decode_of_not_mem data (not_mem_of_table? found)]
        exact HeldValue.plain.inj decoded
      · intro later
        have same := type.accepts later first data
        rw [refused, Option.isSome_none, Option.isSome_eq_false_iff, Option.isNone_iff_eq_none]
          at same
        rw [decode, found]
        dsimp only
        rw [same]
        exact decoded

end TypeRegistry

/-! ## Registries of schemas alone -/

theorem decodeHeld_ofSchemas (order : TableOrder) (bytes : Bytes) (registry : Registry) :
    decodeHeld order bytes (.ofSchemas registry) = (decodeDyn bytes registry).map .plain := by
  rw [decodeHeld, decodeDyn]
  cases Envelope.open? bytes with
  | error fault => rfl
  | ok opened =>
    rcases opened with ⟨data, name⟩
    cases name <;> rfl

theorem registerSchema_ofSchemas (registry : Registry) (schema : Schema) :
    (TypeRegistry.ofSchemas registry).registerSchema schema =
      .ofSchemas (registry.register schema) := by
  have names : (TypeRegistry.ofSchemas registry).names = registry.schemas.map Schema.tag :=
    List.append_nil _
  rw [TypeRegistry.registerSchema]
  split
  · next taken =>
    rw [names] at taken
    rw [Registry.register, dif_pos taken]
  · rfl

theorem encodeHeld_ofSchemas (value : DynValue) (registry : Registry) :
    encodeHeld (.plain value) (.ofSchemas registry) =
      ((encodeDyn value registry).1, .ofSchemas (encodeDyn value registry).2) := by
  cases value with
  | typed schema datum =>
    exact Prod.ext rfl (registerSchema_ofSchemas registry schema)
  | raw data name => rfl

end TypedStore
