import TypedStore.Proofs.Envelope.Beginnings
import TypedStore.Proofs.Envelope.Copiers
import TypedStore.Proofs.Envelope.Recall

/-!
# Converting what was read dynamically

A reader that asks for a schema can read the payload by that schema, or read it
dynamically and convert what it found.  The second way goes through the registry:
it may find a typed value of the schema that was written, which is taken as it is or
written and read again, or raw data, which are read.  On a payload of a static
schema the two ways agree, for every schema that is asked for, and so the registry
does not matter.

Only the name under which the value was written matters.  A registry that holds a
different schema under that name may convert other data.  So may one that reads a
table, since a table is written in an order of its own.
-/

namespace TypedStore

open Envelope

/-- The datum of a schema that a payload holds, read as a dynamic value first. -/
def decodeConverted (order : TableOrder) (target : Schema) (payload : Bytes)
    (reader : TypeRegistry) : Except CodecError Datum :=
  decodeHeld order payload reader >>= fun found => found.intoTyped target

/-- The datum that a schema makes of data, or the refusal of it. -/
def Schema.interpret (target : Schema) (data : Wire) : Except CodecError Datum :=
  match target.ofWire? data with
  | some datum => .ok datum
  | none => .error (.deserialization "data do not fit the requested type")

variable {target : Schema} {data : Wire}

/-! ## Conversions -/

theorem DynValue.intoTyped_raw (name : Option String) :
    (DynValue.raw data name).intoTyped target = target.interpret data := by
  simp only [DynValue.intoTyped, Schema.interpret]
  rfl

/-- A typed value of another schema is read from what it is written as. -/
theorem DynValue.intoTyped_other {held : Schema} {datum : Datum} (other : held ≠ target)
    (written : datum.toWire .numbered = .ok data) :
    (DynValue.typed held datum).intoTyped target = target.interpret data := by
  have same : (DynValue.typed held datum).toWire = .ok data := by
    rw [DynValue.toWire, Datum.dynToWire, written]
    rfl
  simp only [DynValue.intoTyped, if_neg other, same]
  rfl

theorem DynValue.intoTyped_self (held : Schema) (datum : Datum) :
    (DynValue.typed held datum).intoTyped held = .ok datum := by
  simp only [DynValue.intoTyped, if_true]
  rfl

/-- A schema other than the dynamic one is read without looking at the name. -/
theorem decodeValue_eq_interpret (static : target ≠ .dyn) (payload : Bytes) (reader : Registry) :
    decodeValue target payload reader =
      open? payload >>= fun opened => target.interpret opened.1 := by
  unfold decodeValue
  split
  · exact absurd rfl static
  · cases open? payload with
    | error fault => rfl
    | ok opened =>
      simp only [ok_bind, Schema.interpret]
      cases target.ofWire? opened.1 <;> rfl

namespace Sendable

variable {schema : Schema} {value : Datum}

/-- Whatever a registry finds in the data of a value, it converts as the data would be
read. -/
theorem intoTyped_decode (sendable : Sendable schema value data) {reader : Registry}
    (agrees : ∀ held ∈ reader.schemas, held.tag = schema.tag → held = schema) (target : Schema) :
    (reader.decode schema.tag data).intoTyped target = target.interpret data := by
  by_cases known : schema.tag ∈ reader.schemas.map Schema.tag
  · rcases List.mem_map.mp known with ⟨held, listed, tagged⟩
    rw [agrees held listed tagged] at listed
    rw [sendable.decode_of_mem listed]
    have back : schema.ofWire? data = some value.settled :=
      Schema.ofWire?_toWire value schema sendable.static sendable.fits sendable.written
    by_cases same : schema = target
    · subst same
      rw [DynValue.intoTyped_self, Schema.interpret, back]
    · have written : value.settled.toWire .numbered = .ok data := by
        rw [Datum.toWire_settled, sendable.written]
      exact DynValue.intoTyped_other same written
  · rw [Registry.decode_of_not_mem data known, DynValue.intoTyped_raw]

theorem decodeValue_interprets (sendable : Sendable schema value data) (static : target ≠ .dyn)
    (reader : Registry) :
    decodeValue target (wrap data (some schema.tag)).write reader =
      if data.depth ≤ room then target.interpret data
      else .error (.deserialization "malformed payload") := by
  rw [decodeValue_eq_interpret static, sendable.open?_payload]
  split <;> rfl

theorem decodeConverted_interprets (sendable : Sendable schema value data) (order : TableOrder)
    {reader : TypeRegistry} (agrees : reader.AgreesOn schema) (target : Schema) :
    decodeConverted order target (wrap data (some schema.tag)).write reader =
      if data.depth ≤ room then target.interpret data
      else .error (.deserialization "malformed payload") := by
  rw [decodeConverted, sendable.decodeHeld_payload order agrees.noTable]
  split
  · exact sendable.intoTyped_decode agrees.schemas target
  · rfl

/-- A type with tables is read from what the value found is written as. -/
theorem intoTable_decode (sendable : Sendable schema value data) {reader : Registry}
    (agrees : ∀ held ∈ reader.schemas, held.tag = schema.tag → held = schema)
    (order : TableOrder) (type : TableType) :
    (HeldValue.plain (reader.decode schema.tag data)).intoTable order type =
      type.interpret order data := by
  have written : (reader.decode schema.tag data).toWire = .ok data := sendable.toWire_decode agrees
  change (reader.decode schema.tag data).toWire >>= type.interpret order = _
  rw [written]
  rfl

theorem decodeTable_interprets (sendable : Sendable schema value data) (order : TableOrder)
    (type : TableType) :
    decodeTable order type (wrap data (some schema.tag)).write =
      if data.depth ≤ room then type.interpret order data
      else .error (.deserialization "malformed payload") := by
  rw [decodeTable, sendable.open?_payload]
  split <;> rfl

theorem intoTable_interprets (sendable : Sendable schema value data) (order later : TableOrder)
    {reader : TypeRegistry} (agrees : reader.AgreesOn schema) (type : TableType) :
    (decodeHeld order (wrap data (some schema.tag)).write reader >>= fun found =>
        found.intoTable later type) =
      if data.depth ≤ room then type.interpret later data
      else .error (.deserialization "malformed payload") := by
  rw [sendable.decodeHeld_payload order agrees.noTable]
  split
  · exact sendable.intoTable_decode agrees.schemas later type
  · rfl

/-- Reading dynamically and converting is reading.  For every schema that is asked
for, the dynamic one apart, both ways give the datum that the schema makes of what was
written, or both refuse it with the same error, and both refuse data nested too deeply.
For a type with tables both ways give the same in every order.  So what either of them
gives does not depend on the registry, whatever tables it knows. -/
theorem decodeConverted_eq_decodeValue (sendable : Sendable schema value data)
    {writer : Registry} {payload : Bytes}
    (written : (encodeValue schema value writer).1 = .ok payload) (target : Schema)
    (static : target ≠ .dyn) :
    (∀ order (reader : TypeRegistry), reader.AgreesOn schema →
        decodeConverted order target payload reader = decodeValue target payload reader.schemas ∧
          ∀ found, decodeConverted order target payload reader = .ok found ↔
            data.depth ≤ room ∧ target.ofWire? data = some found) ∧
      (∀ order later (reader : TypeRegistry) type, reader.AgreesOn schema →
        (decodeHeld order payload reader >>= fun found => found.intoTable later type) =
          decodeTable later type payload) ∧
      ∀ order other (first second : TypeRegistry),
        first.AgreesOn schema → second.AgreesOn schema →
        decodeConverted order target payload first = decodeConverted other target payload second ∧
          decodeValue target payload first.schemas =
            decodeValue target payload second.schemas := by
  have same : payload = (wrap data (some schema.tag)).write := by
    rw [sendable.encodeValue_eq] at written
    exact (Except.ok.inj written).symm
  subst same
  refine ⟨?_, ?_, ?_⟩
  · intro order reader agrees
    rw [sendable.decodeConverted_interprets order agrees, sendable.decodeValue_interprets static]
    refine ⟨rfl, ?_⟩
    intro found
    by_cases shallow : data.depth ≤ room
    · rw [if_pos shallow, Schema.interpret]
      cases target.ofWire? data <;> simp [shallow]
    · simp [shallow]
  · intro order later reader type agrees
    rw [sendable.intoTable_interprets order later agrees, sendable.decodeTable_interprets]
  · intro order other first second inFirst inSecond
    rw [sendable.decodeConverted_interprets order inFirst,
      sendable.decodeConverted_interprets other inSecond,
      sendable.decodeValue_interprets static, sendable.decodeValue_interprets static]
    exact ⟨rfl, rfl⟩

/-- Two bytes are asked for as a float and an optional integer, by a reader that knows
lists of bytes and by one that knows maps of flags. -/
theorem bytes_convert_to_numbers :
    decodeConverted lastIsA (.tuple [.f64, .option (.int .i64)])
        (wrap (.array [.ofByte 7, .ofByte 200]) (some Schema.bytes.tag)).write
        (.ofSchemas (Registry.empty.register Schema.bytes)) =
      .ok (.tuple [.f64 0x401c000000000000, .present (.int (.ofByte 200))]) ∧
    decodeConverted lastIsA (.tuple [.f64, .option (.int .i64)])
        (wrap (.array [.ofByte 7, .ofByte 200]) (some Schema.bytes.tag)).write
        (.ofSchemas (Registry.empty.register Schema.bytes)) =
      decodeConverted lastIsA (.tuple [.f64, .option (.int .i64)])
        (wrap (.array [.ofByte 7, .ofByte 200]) (some Schema.bytes.tag)).write
        knowsHashedFlags :=
  have sendable : Sendable Schema.bytes (.list [.int (.ofByte 7), .int (.ofByte 200)])
      (.array [.ofByte 7, .ofByte 200]) :=
    ⟨rfl, by decide, rfl, by decide, by decide +kernel⟩
  have written := congrArg Prod.fst (sendable.encodeValue_eq Registry.empty)
  have knows : (TypeRegistry.ofSchemas (Registry.empty.register Schema.bytes)).AgreesOn
      Schema.bytes := by
    refine ⟨?_, rfl⟩
    intro held member _
    exact List.mem_singleton.mp member
  have nothing : knowsHashedFlags.AgreesOn Schema.bytes := by
    refine ⟨?_, by decide +kernel⟩
    intro held member _
    cases member
  have agreement := sendable.decodeConverted_eq_decodeValue written
    (.tuple [.f64, .option (.int .i64)]) (by simp)
  ⟨((agreement.1 lastIsA _ knows).2 _).mpr ⟨by decide, by decide +kernel⟩,
    (agreement.2.2 lastIsA lastIsA _ _ knows nothing).1⟩

end Sendable

/-- A set of two integers that is kept by hash. -/
def hashedNumbers : HeldValue :=
  .table (.set (.int .u32)) (.list [.int (.ofByte 1), .int (.ofByte 2)])

/-- An order in which one comes last. -/
def lastIsOne : TableOrder := ⟨fun item => if item = .int (.ofByte 1) then 1 else 0⟩

/-- Conversions that depend on the registry.  A reader that knows sets kept by hash turns
such a set around on its way into a list, which one that knows nothing does not.  And a
reader that has another record under the name of what was written cannot convert it
back. -/
theorem conversions_that_change_values :
    (∃ payload, (encodeHeld hashedNumbers (.ofSchemas .empty)).1 = .ok payload ∧
        decodeConverted lastIsOne (.list (.int .u32)) payload
            ((TypeRegistry.ofSchemas .empty).registerTable (.set (.int .u32))) =
          .ok (.list [.int (.ofByte 2), .int (.ofByte 1)]) ∧
        decodeConverted lastIsOne (.list (.int .u32)) payload (.ofSchemas .empty) =
          .ok (.list [.int (.ofByte 1), .int (.ofByte 2)]) ∧
        decodeValue (.list (.int .u32)) payload .empty =
          .ok (.list [.int (.ofByte 1), .int (.ofByte 2)])) ∧
      ∃ payload, (encodeValue integerPoint (.tuple [.int (.ofByte 3)]) .empty).1 = .ok payload ∧
        decodeConverted lastIsOne integerPoint payload
            (.ofSchemas (Registry.empty.register floatPoint)) =
          .error (.deserialization "data do not fit the requested type") ∧
        decodeValue integerPoint payload .empty = .ok (.tuple [.int (.ofByte 3)]) :=
  ⟨⟨_, rfl, by decide +kernel, by decide +kernel, by decide +kernel⟩,
    ⟨_, rfl, by decide +kernel, by decide +kernel⟩⟩

end TypedStore
