import TypedStore.Proofs.Envelope.Exchange

/-!
# Dynamic values after one payload

A dynamic value that goes through a payload keeps its name.  Its data come back as
they were, unless the reader knows a schema under that name and the data fit it:
then they are read as that schema has them, which may be another wire form when
the value was raw data.  A typed value of a static schema is read by its own
schema, and nothing changes.
-/

namespace TypedStore

open Envelope

namespace DynValue

/-- Whether the format can count what it has to count in the payload of a value. -/
structure Countable (value : DynValue) : Prop where
  data : ∀ data, value.toWire = .ok data → data.lengthsFit = true
  name : ∀ name ∈ value.typeName, (Bytes.utf8 name).length < 0x100000000

/-- Whether a value is what a schema of the reader makes of the data of another. -/
structure Reread (reader : Registry) (value found : DynValue) (schema : Schema) : Prop where
  known : reader.find? schema.tag = some schema
  named : value.typeName = some schema.tag
  read : ∃ data datum, value.toWire = .ok data ∧ schema.ofWire? data = some datum ∧
    found = .typed schema datum

/-- Whether a value is one that comes back from the payload of another. -/
structure Recalls (value : DynValue) (reader : Registry) (found : DynValue) : Prop where
  sameName : found.typeName = value.typeName
  sameData : found.toWire = value.toWire ∨ ∃ schema, Reread reader value found schema
  ofStatic : ∀ schema datum data, value = .typed schema datum → Sendable schema datum data →
    (∀ held ∈ reader.schemas, held.tag = schema.tag → held = schema) →
    found.toWire = value.toWire

end DynValue

open DynValue

theorem decodeDyn_write_wrap {value : DynValue} (countable : value.Countable) {data : Wire}
    (written : value.toWire = .ok data) (reader : Registry) :
    decodeDyn (wrap data value.typeName).write reader =
      if data.depth ≤ room then
        .ok (match value.typeName with
          | some name => reader.decode name data
          | none => .raw data none)
      else .error (.deserialization "malformed payload") := by
  rw [decodeDyn, open?_write_wrap (countable.data data written) countable.name]
  split
  · rw [ok_bind]
    cases value.typeName <;> rfl
  · rfl

theorem Sendable.toWire_typed {schema : Schema} {datum : Datum} {data : Wire}
    (sendable : Sendable schema datum data) : (DynValue.typed schema datum).toWire = .ok data := by
  rw [DynValue.toWire, Datum.dynToWire, sendable.written]
  rfl

/-- A value of a static schema keeps its wire form when its name is its own. -/
theorem Sendable.toWire_decode {schema : Schema} {datum : Datum} {data : Wire}
    (sendable : Sendable schema datum data) {reader : Registry}
    (unambiguous : ∀ held ∈ reader.schemas, held.tag = schema.tag → held = schema) :
    (reader.decode schema.tag data).toWire = .ok data := by
  rcases reader.decode_cases schema.tag data with raw | ⟨held, read, found, -, -⟩
  · rw [raw]
    rfl
  · have listed : held ∈ reader.schemas := List.mem_of_find?_eq_some found
    rw [unambiguous held listed (Registry.tag_of_find? found)] at listed
    rw [sendable.decode_of_mem listed, DynValue.toWire, Datum.dynToWire, Datum.toWire_settled,
      sendable.written]
    rfl

/-- Data under a name are recalled from the value that they are the data of. -/
theorem recalls_decode {value : DynValue} {named : String} {data : Wire}
    (name : value.typeName = some named) (written : value.toWire = .ok data) (reader : Registry) :
    value.Recalls reader (reader.decode named data) := by
  refine ⟨?_, ?_, ?_⟩
  · rcases reader.decode_cases named data with raw | ⟨schema, datum, known, -, typed⟩
    · rw [raw, name]
      rfl
    · rw [typed, name, ← Registry.tag_of_find? known]
      rfl
  · rcases reader.decode_cases named data with raw | ⟨schema, datum, known, read, typed⟩
    · rw [raw, written]
      exact .inl rfl
    · have own := Registry.tag_of_find? known
      refine .inr ⟨schema, ?_, ?_, data, datum, written, read, typed⟩
      · rw [own]
        exact known
      · rw [name, own]
  · rintro schema datum sent rfl sendable unambiguous
    have own : named = schema.tag := (Option.some.inj name).symm
    have same : data = sent := Except.ok.inj (written.symm.trans sendable.toWire_typed)
    rw [own, same, sendable.toWire_decode unambiguous, sendable.toWire_typed]

/-- What a reader finds in a payload is recalled from the value that the payload was
made of. -/
theorem recalls_of_decodeDyn {value found : DynValue} (countable : value.Countable)
    {writer reader : Registry} {payload : Bytes}
    (encoded : (encodeDyn value writer).1 = .ok payload)
    (decoded : decodeDyn payload reader = .ok found) : value.Recalls reader found := by
  rcases exists_of_map_eq_ok encoded with ⟨data, written, rfl⟩
  rw [decodeDyn_write_wrap countable written] at decoded
  split at decoded
  · cases name : value.typeName with
    | some named =>
      rw [name] at decoded
      rw [← Except.ok.inj decoded]
      exact recalls_decode name written reader
    | none =>
      rw [name] at decoded
      have same : found.toWire = value.toWire := by
        rw [← Except.ok.inj decoded, written]
        rfl
      refine ⟨?_, .inl same, fun _ _ _ _ _ _ => same⟩
      rw [← Except.ok.inj decoded, name]
      rfl
  · cases decoded

end TypedStore
