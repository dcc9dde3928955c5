import TypedStore.Envelope
import TypedStore.Proofs.Registry.Lookup
import TypedStore.Proofs.Schema.Nested
import TypedStore.Proofs.Wire.RoundTrip

/-!
# Payloads across writers and readers

A payload can be written from a value of a schema or from a dynamic value, and
read as either.  The theorems here say what each reader makes of what each
writer wrote.

Two things stand between a value and its return, and both are stated exactly.
The reader takes `Wire.maxDepth` levels of nesting and the envelope is one of
them, so data deeper than `Envelope.room` are refused by every reader.  And a
datum comes back settled: a present option that is written as nil is read as
absent.  Nothing is assumed about data that merely look like an envelope; the
outer map is always the one the writer added.
-/

namespace TypedStore

namespace Envelope

/-- How deeply data in an envelope may be nested. -/
def room : Nat := Wire.maxDepth - 1

/-- The data and the name of an envelope are found again. -/
theorem split_wrap (data : Wire) (name : Option String) :
    split (wrap data name) = (data, name) := by
  cases name <;> rfl

theorem depth_wrap (data : Wire) (name : Option String) :
    (wrap data name).depth = data.depth + 1 := by
  cases name <;>
    simp only [wrap, Wire.depth, Wire.depthEntries, Nat.zero_max, Nat.max_zero, Nat.max_self]

theorem lengthsFit_wrap {data : Wire} {name : Option String} (fits : data.lengthsFit = true)
    (short : ∀ text ∈ name, (Bytes.utf8 text).length < 0x100000000) :
    (wrap data name).lengthsFit = true := by
  have dataShort : (Bytes.utf8 dataLabel).length < 0x100000000 := by decide
  have typeShort : (Bytes.utf8 typeLabel).length < 0x100000000 := by decide
  cases name with
  | none =>
    simp only [wrap, Wire.lengthsFit, Wire.entriesFit, fits, dataShort, List.length_cons,
      List.length_nil, decide_true, Bool.and_true]
    exact decide_eq_true (by omega)
  | some text =>
    have textShort := short text rfl
    simp only [wrap, Wire.lengthsFit, Wire.entriesFit, fits, dataShort, typeShort, textShort,
      List.length_cons, List.length_nil, decide_true, Bool.and_true]
    exact decide_eq_true (by omega)

/-- What opening the envelope of a writer gives, for every depth of the data. -/
theorem open?_write_wrap {data : Wire} {name : Option String} (fits : data.lengthsFit = true)
    (short : ∀ text ∈ name, (Bytes.utf8 text).length < 0x100000000) :
    open? (wrap data name).write =
      if data.depth ≤ room then .ok (data, name)
      else .error (.deserialization "malformed payload") := by
  have whole := lengthsFit_wrap fits short
  have back := Wire.read_write (wrap data name) Wire.maxDepth [] whole
  rw [List.append_nil, depth_wrap] at back
  have bound : data.depth + 1 ≤ Wire.maxDepth ↔ data.depth ≤ room := by
    unfold room Wire.maxDepth
    omega
  rw [open?.eq_def]
  split
  · next empty => exact absurd empty (Wire.write_ne_nil whole)
  · rw [back]
    by_cases shallow : data.depth ≤ room
    · rw [if_pos (bound.mpr shallow), if_pos shallow]
      dsimp only
      rw [split_wrap]
    · rw [if_neg fun deep => shallow (bound.mp deep), if_neg shallow]

end Envelope

open Envelope

/-- A value of a schema without dynamic parts that has a wire form the format can
count: what a writer must be given for its payload to be read at all. -/
structure Sendable (schema : Schema) (value : Datum) (data : Wire) : Prop where
  static : schema.isStatic = true
  fits : value.fits schema = true
  written : value.toWire .numbered = .ok data
  dataFit : data.lengthsFit = true
  nameFits : (Bytes.utf8 schema.tag).length < 0x100000000

namespace Sendable

variable {schema : Schema} {value : Datum} {data : Wire}

/-! ## One payload for both writers -/

/-- A value of a static schema is labelled with that schema. -/
theorem encodeValue_eq (sendable : Sendable schema value data) (writer : Registry) :
    encodeValue schema value writer =
      (.ok (wrap data (some schema.tag)).write, writer.register schema) := by
  have static := sendable.static
  cases schema with
  | dyn => cases static
  | _ => simp only [encodeValue, sendable.written]

/-- So is a dynamic value that holds it, settled or not. -/
theorem encodeDyn_typed_settled (sendable : Sendable schema value data) (writer : Registry) :
    encodeDyn (.typed schema value.settled) writer =
      (.ok (wrap data (some schema.tag)).write, writer.register schema) := by
  have held : (DynValue.typed schema value.settled).toWire = .ok data := by
    rw [DynValue.toWire, Datum.dynToWire, Datum.toWire_settled, sendable.written]
    rfl
  rw [encodeDyn, held]
  rfl

theorem encodeDyn_typed (sendable : Sendable schema value data) (writer : Registry) :
    encodeDyn (.typed schema value) writer =
      (.ok (wrap data (some schema.tag)).write, writer.register schema) := by
  have held : (DynValue.typed schema value).toWire = .ok data := by
    rw [DynValue.toWire, Datum.dynToWire, sendable.written]
    rfl
  rw [encodeDyn, held]
  rfl

/-! ## What each reader makes of it -/

theorem open?_payload (sendable : Sendable schema value data) :
    open? (wrap data (some schema.tag)).write =
      if data.depth ≤ room then .ok (data, some schema.tag)
      else .error (.deserialization "malformed payload") := by
  apply open?_write_wrap sendable.dataFit
  intro text same
  rw [← Option.some.inj same]
  exact sendable.nameFits

/-- A reader that asks for the schema does not look at its registry. -/
theorem decodeValue_payload (sendable : Sendable schema value data) (reader : Registry) :
    decodeValue schema (wrap data (some schema.tag)).write reader =
      if data.depth ≤ room then .ok value.settled
      else .error (.deserialization "malformed payload") := by
  have other : schema = .dyn → False := by
    rintro rfl
    cases sendable.static
  have back : schema.ofWire? data = some value.settled :=
    Schema.ofWire?_toWire value schema sendable.static sendable.fits sendable.written
  rw [decodeValue, sendable.open?_payload]
  · split
    · rw [ok_bind]
      dsimp only
      rw [back]
      rfl
    · rfl
  · exact other

/-- A dynamic reader asks its registry for the name. -/
theorem decodeDyn_payload (sendable : Sendable schema value data) (reader : Registry) :
    decodeDyn (wrap data (some schema.tag)).write reader =
      if data.depth ≤ room then .ok (reader.decode schema.tag data)
      else .error (.deserialization "malformed payload") := by
  rw [decodeDyn, sendable.open?_payload]
  split <;> rfl

theorem decode_of_mem (sendable : Sendable schema value data) {reader : Registry}
    (member : schema ∈ reader.schemas) :
    reader.decode schema.tag data = .typed schema value.settled :=
  Registry.decode_of_mem member
    (Schema.ofWire?_toWire value schema sendable.static sendable.fits sendable.written)

/-- Static and dynamic writers and readers are interchangeable.  Both writers make
the same payload and leave the same registry.  A static reader gets the value
whatever its registry holds, a dynamic reader gets it as a typed value if the
schema is registered and as raw data with the name if nothing is registered
under that name.  Reading fails on data nested too deeply, and a present option
written as nil does not come back; there are no other exceptions. -/
theorem writers_and_readers_agree (sendable : Sendable schema value data) (writer : Registry) :
    encodeValue schema value writer =
        (.ok (wrap data (some schema.tag)).write, writer.register schema) ∧
      encodeValue .dyn (.dyn (.typed schema value)) writer =
        (.ok (wrap data (some schema.tag)).write, writer.register schema) ∧
      (∀ name, (writer.register schema).find? name =
        (writer.find? name).or (if schema.tag = name then some schema else none)) ∧
      (∀ reader, decodeValue schema (wrap data (some schema.tag)).write reader = .ok value ↔
        data.depth ≤ room ∧ value.isDefinite = true) ∧
      (∀ reader, schema ∈ reader.schemas →
        (decodeValue .dyn (wrap data (some schema.tag)).write reader =
            .ok (.dyn (.typed schema value)) ↔
          data.depth ≤ room ∧ value.isDefinite = true)) ∧
      ∀ reader, schema.tag ∉ reader.schemas.map Schema.tag →
        (decodeValue .dyn (wrap data (some schema.tag)).write reader =
            .ok (.dyn (.raw data (some schema.tag))) ↔
          data.depth ≤ room) := by
  refine ⟨sendable.encodeValue_eq writer, sendable.encodeDyn_typed writer,
    writer.find?_register schema, ?_, ?_, ?_⟩
  · intro reader
    rw [sendable.decodeValue_payload, ← Datum.settled_eq_self_iff]
    by_cases shallow : data.depth ≤ room
    · rw [if_pos shallow]
      simp only [shallow, Except.ok.injEq, true_and]
    · rw [if_neg shallow]
      simp only [shallow, reduceCtorEq, false_and]
  · intro reader member
    rw [decodeValue, sendable.decodeDyn_payload, sendable.decode_of_mem member,
      ← Datum.settled_eq_self_iff]
    by_cases shallow : data.depth ≤ room
    · rw [if_pos shallow]
      change Except.ok (Datum.dyn (.typed schema value.settled)) = _ ↔ _
      simp only [shallow, Except.ok.injEq, Datum.dyn.injEq, DynValue.typed.injEq, true_and]
    · rw [if_neg shallow]
      change Except.error _ = Except.ok _ ↔ _
      simp only [shallow, reduceCtorEq, false_and]
  · intro reader unknown
    rw [decodeValue, sendable.decodeDyn_payload, Registry.decode_of_not_mem data unknown]
    by_cases shallow : data.depth ≤ room
    · rw [if_pos shallow]
      exact iff_of_true rfl shallow
    · rw [if_neg shallow]
      refine iff_of_false ?_ shallow
      intro same
      cases same

/-- The agreement on a map with entries that look like those of an envelope. -/
theorem envelope_lookalike_comes_back :
    decodeValue (.map .text)
        (wrap (.map [(.str "data", .str "inner"), (.str "type", .str "other")])
          (some (Schema.map .text).tag)).write Registry.empty =
      .ok (.map [("data", .text "inner"), ("type", .text "other")]) :=
  have sendable : Sendable (.map .text) (.map [("data", .text "inner"), ("type", .text "other")])
      (.map [(.str "data", .str "inner"), (.str "type", .str "other")]) :=
    ⟨rfl, by decide +kernel, rfl, by decide +kernel, by decide +kernel⟩
  ((sendable.writers_and_readers_agree Registry.empty).2.2.2.1 Registry.empty).mpr
    ⟨by decide, by decide⟩

end Sendable

/-! ## What does not come back -/

theorem Sendable.nested {depth : Nat} (short : depth < 0x8000000) :
    Sendable (.nested depth) (.nested depth) (.nested depth) where
  static := Schema.isStatic_nested depth
  fits := Datum.fits_nested depth
  written := Datum.toWire_nested .numbered depth
  dataFit := Wire.lengthsFit_nested depth
  nameFits := by
    rw [Schema.length_utf8_tag_nested]
    omega

/-- A record of an integer. -/
def integerPoint : Schema := .record "Point" [("x", .int .i64)]

/-- Another record of the same name, of a float. -/
def floatPoint : Schema := .record "Point" [("x", .f64)]

/-- The first record, with three in it. -/
theorem Sendable.ofIntegerPoint :
    Sendable integerPoint (.tuple [.int (.ofByte 3)]) (.array [.ofByte 3]) :=
  ⟨rfl, by decide, rfl, by decide, by decide +kernel⟩

/-- Values that are written and do not come back: the present option of an absent one,
which comes back absent; lists in lists that need every level which a reader has; and a
record whose name the reader has for another one. -/
theorem values_that_do_not_return :
    Sendable (.option (.option .bool)) (.present .absent) .nil ∧
      ((encodeValue (.option (.option .bool)) (.present .absent) .empty).1 >>= fun payload =>
        decodeValue (.option (.option .bool)) payload .empty) = .ok .absent ∧
      Sendable (.nested 1023) (.nested 1023) (.nested 1023) ∧
      ((encodeValue (.nested 1023) (.nested 1023) .empty).1 >>= fun payload =>
        decodeValue (.nested 1023) payload .empty) =
          .error (.deserialization "malformed payload") ∧
      Sendable integerPoint (.tuple [.int (.ofByte 3)]) (.array [.ofByte 3]) ∧
      ((encodeValue integerPoint (.tuple [.int (.ofByte 3)]) .empty).1 >>= fun payload =>
        decodeValue .dyn payload (Registry.empty.register floatPoint)) =
          .ok (.dyn (.typed floatPoint (.tuple [.f64 0x4008000000000000]))) := by
  have ofOptions : Sendable (.option (.option .bool)) (.present .absent) .nil :=
    ⟨rfl, rfl, rfl, rfl, by decide +kernel⟩
  have ofLists : Sendable (.nested 1023) (.nested 1023) (.nested 1023) := .nested (by decide)
  refine ⟨ofOptions, ?_, ofLists, ?_, .ofIntegerPoint, ?_⟩
  · rw [ofOptions.encodeValue_eq, ok_bind, ofOptions.decodeValue_payload]
    rfl
  · rw [ofLists.encodeValue_eq, ok_bind, ofLists.decodeValue_payload, Wire.depth_nested,
      if_neg (by decide)]
  · rw [Sendable.ofIntegerPoint.encodeValue_eq, ok_bind]
    rfl

end TypedStore
