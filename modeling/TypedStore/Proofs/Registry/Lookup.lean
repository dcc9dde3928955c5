import Mathlib.Data.List.Nodup
import TypedStore.Registry

/-!
# Look-ups in a registry

A registry answers by name.  Its names are distinct, so the schema found under
the name of a member is that member.  Registering changes one look-up at most:
the one for the new name, and only when the name was free.
-/

namespace TypedStore

/-! ## Finding by name -/

section Names

variable {α : Type} {tag : α → String} {items : List α} {item : α} {name : String}

theorem find?_tag_eq_none_iff :
    items.find? (fun held => tag held == name) = none ↔ name ∉ items.map tag := by
  rw [List.find?_eq_none, List.mem_map]
  constructor
  · rintro nothing ⟨held, member, same⟩
    exact nothing held member (beq_iff_eq.mpr same)
  · intro nothing held member same
    exact nothing ⟨held, member, eq_of_beq same⟩

theorem tag_of_find?_tag (found : items.find? (fun held => tag held == name) = some item) :
    tag item = name := by
  have matched := List.find?_some found
  exact beq_iff_eq.mp matched

/-- Where names are distinct the name of a member leads to the member. -/
theorem find?_tag_of_mem (distinct : (items.map tag).Nodup) (member : item ∈ items) :
    items.find? (fun held => tag held == tag item) = some item := by
  cases found : items.find? (fun held => tag held == tag item) with
  | none => exact absurd (List.mem_map_of_mem member) (find?_tag_eq_none_iff.mp found)
  | some other =>
    have listed := List.mem_of_find?_eq_some found
    rw [List.inj_on_of_nodup_map distinct listed member (tag_of_find?_tag found)]

end Names

namespace Registry

/-- The name of a member leads to the member. -/
theorem find?_of_mem {registry : Registry} {schema : Schema}
    (member : schema ∈ registry.schemas) : registry.find? schema.tag = some schema :=
  find?_tag_of_mem registry.distinct member

theorem find?_eq_none_iff {registry : Registry} {name : String} :
    registry.find? name = none ↔ name ∉ registry.schemas.map Schema.tag :=
  find?_tag_eq_none_iff

/-- Registering answers for the new name if nothing did before, and leaves every
other answer as it was. -/
theorem find?_register (registry : Registry) (schema : Schema) (name : String) :
    (registry.register schema).find? name =
      (registry.find? name).or (if schema.tag = name then some schema else none) := by
  rw [register]
  split
  · next taken =>
    by_cases same : schema.tag = name
    · rcases List.mem_map.mp taken with ⟨held, member, tagged⟩
      have found := find?_of_mem member
      rw [tagged, same] at found
      rw [found, Option.some_or]
    · rw [if_neg same, Option.or_none]
  · rw [find?, List.find?_append]
    congr 1
    by_cases same : schema.tag = name
    · rw [if_pos same]
      exact List.find?_cons_of_pos (beq_iff_eq.mpr same)
    · have notThis : ¬(schema.tag == name) = true := fun equal => same (eq_of_beq equal)
      rw [if_neg same]
      exact List.find?_cons_of_neg notThis

/-- Data stored under the name of a member are read by that member. -/
theorem decode_of_mem {registry : Registry} {schema : Schema} {data : Wire} {datum : Datum}
    (member : schema ∈ registry.schemas) (read : schema.ofWire? data = some datum) :
    registry.decode schema.tag data = .typed schema datum := by
  rw [decode, find?_of_mem member]
  dsimp only
  rw [read]

/-- Data under a name that is not registered stay raw and keep the name. -/
theorem decode_of_not_mem {registry : Registry} {name : String} (data : Wire)
    (unknown : name ∉ registry.schemas.map Schema.tag) :
    registry.decode name data = .raw data (some name) := by
  rw [decode, find?_eq_none_iff.mpr unknown]

theorem tag_of_find? {registry : Registry} {name : String} {schema : Schema}
    (found : registry.find? name = some schema) : schema.tag = name :=
  tag_of_find?_tag found

/-- Data stored under a name stay what they are, or are read by the schema of that
name. -/
theorem decode_cases (registry : Registry) (name : String) (data : Wire) :
    registry.decode name data = .raw data (some name) ∨
      ∃ schema datum, registry.find? name = some schema ∧ schema.ofWire? data = some datum ∧
        registry.decode name data = .typed schema datum := by
  rw [decode]
  cases found : registry.find? name with
  | none => exact .inl rfl
  | some schema =>
    dsimp only
    cases read : schema.ofWire? data with
    | none => exact .inl rfl
    | some datum => exact .inr ⟨schema, datum, rfl, read, rfl⟩

/-- Whether a registry answers for every name that another one answers for, with
the same schema. -/
def Extends (later earlier : Registry) : Prop :=
  ∀ name schema, earlier.find? name = some schema → later.find? name = some schema

theorem Extends.refl (registry : Registry) : registry.Extends registry :=
  fun _ _ found => found

theorem Extends.trans {latest later earlier : Registry} (second : latest.Extends later)
    (first : later.Extends earlier) : latest.Extends earlier :=
  fun name schema found => second name schema (first name schema found)

theorem register_extends (registry : Registry) (schema : Schema) :
    (registry.register schema).Extends registry := by
  intro name held found
  rw [find?_register, found, Option.some_or]

end Registry
end TypedStore
