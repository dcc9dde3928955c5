import TypedStore.Proofs.Envelope.Conversion
import TypedStore.Proofs.Envelope.Keys
import TypedStore.Proofs.Schema.Labels

/-!
# Payloads without an envelope

Bytes that are no envelope are taken as the data of a value.  Such bytes come from a writer that
knows nothing of envelopes and writes the value directly, as keys are written: the variants of
unions are labelled.  The reader of payloads goes by way of wire values and knows the numbers of
variants only.  So it takes back every value without a variant, and refuses every value that holds
one, though the same bytes are read as a key.

Whether there is a `data` entry is asked of maps alone, since nothing else is an envelope.
-/

namespace TypedStore

open Envelope

/-- Whether data would be taken for an envelope. -/
def Wire.hasDataEntry : Wire → Bool
  | .map entries => entries.any fun entry => entry.1.text? == some dataLabel
  | _ => false

theorem Envelope.split_of_bare {data : Wire} (bare : data.hasDataEntry = false) :
    split data = (data, none) := by
  cases data with
  | map entries =>
    have nowhere : entries.reverse.find? (fun entry => entry.1.text? == some dataLabel) = none := by
      rw [List.find?_eq_none]
      intro entry member
      exact List.any_eq_false.mp bare entry (List.mem_reverse.mp member)
    have noData : last? dataLabel entries = none := by rw [last?, nowhere, Option.map_none]
    rw [split, noData]
  | _ => rfl

theorem Schema.ne_dyn_of_isStatic {schema : Schema} (static : schema.isStatic = true) :
    schema ≠ .dyn := by
  rintro rfl
  cases static

/-- A value of a static schema, its wire form with labelled variants, and the bytes of it, which
are no envelope. -/
structure PlainPayload (schema : Schema) (value : Datum) (data : Wire) (bytes : Bytes) : Prop where
  static : schema.isStatic = true
  fits : value.fits schema = true
  written : value.toWire .labelled = .ok data
  encoded : encodeKey value = .ok bytes
  countable : data.lengthsFit = true
  bare : data.hasDataEntry = false

namespace PlainPayload

variable {schema : Schema} {value : Datum} {data : Wire} {bytes : Bytes}

theorem bytes_eq (plain : PlainPayload schema value data bytes) : bytes = data.write := by
  have encoded := plain.encoded
  rw [encodeKey, plain.written] at encoded
  exact (Except.ok.inj encoded).symm

theorem open?_eq (plain : PlainPayload schema value data bytes) :
    open? bytes =
      if data.depth ≤ Wire.maxDepth then .ok (data, none)
      else .error (.deserialization "malformed payload") := by
  rw [plain.bytes_eq, open?.eq_def]
  split
  · next empty => exact absurd empty (Wire.write_ne_nil plain.countable)
  · have read := Wire.read_write data Wire.maxDepth [] plain.countable
    rw [List.append_nil] at read
    rw [read]
    by_cases shallow : data.depth ≤ Wire.maxDepth
    · rw [if_pos shallow, if_pos shallow]
      exact congrArg Except.ok (split_of_bare plain.bare)
    · rw [if_neg shallow, if_neg shallow]

/-- The registry does not matter, and one variant is enough to spoil a value. -/
theorem decodeValue_eq (plain : PlainPayload schema value data bytes) (reader : Registry) :
    decodeValue schema bytes reader =
      if data.depth ≤ Wire.maxDepth then
        if value.holdsVariant then .error (.deserialization "data do not fit the requested type")
        else .ok value.settled
      else .error (.deserialization "malformed payload") := by
  rw [decodeValue_eq_interpret (Schema.ne_dyn_of_isStatic plain.static), plain.open?_eq]
  split
  · have found := Schema.ofWire?_toWire_labelled plain.static plain.fits plain.written
    change schema.interpret data = _
    rw [Schema.interpret, found]
    cases value.holdsVariant <;> rfl
  · rfl

/-- A reader of keys takes the same bytes, with variants or without. -/
theorem decodeKey_eq (plain : PlainPayload schema value data bytes)
    (keyType : schema.isKeyType = true) (shallow : value.nesting ≤ Wire.maxDepth) :
    decodeKey schema bytes = .ok value.settled := by
  have encodedKey : EncodedKey schema value bytes := by
    refine ⟨keyType, plain.fits, plain.encoded, ?_⟩
    intro other written
    rw [plain.written] at written
    rw [← Except.ok.inj written]
    exact plain.countable
  have read := encodedKey.decodeKey_append []
  rw [List.append_nil, if_pos shallow] at read
  exact read

/-- A plain payload gives the value back, whatever the registry, exactly when it is nested no
deeper than the reader goes, no present option in it is written as nil, and no variant of a union
is in it.  With a variant it is refused, although the reader of keys gets the value from the same
bytes. -/
theorem decodes_iff (plain : PlainPayload schema value data bytes) (reader : Registry) :
    (decodeValue schema bytes reader = .ok value ↔
        data.depth ≤ Wire.maxDepth ∧ value.isDefinite = true ∧ value.holdsVariant = false) ∧
      (data.depth ≤ Wire.maxDepth → decodeValue schema bytes reader =
        if value.holdsVariant then .error (.deserialization "data do not fit the requested type")
        else .ok value.settled) ∧
      (Wire.maxDepth < data.depth → decodeValue schema bytes reader =
        .error (.deserialization "malformed payload")) ∧
      (schema.isKeyType = true → value.nesting ≤ Wire.maxDepth →
        decodeKey schema bytes = .ok value.settled) := by
  have decoded := plain.decodeValue_eq reader
  refine ⟨?_, ?_, ?_, plain.decodeKey_eq⟩
  · rw [decoded, ← Datum.settled_eq_self_iff]
    by_cases shallow : data.depth ≤ Wire.maxDepth
    · rw [if_pos shallow]
      cases value.holdsVariant with
      | true => exact iff_of_false nofun fun both => Bool.noConfusion both.2.2
      | false =>
        rw [if_neg Bool.false_ne_true, Except.ok.injEq]
        exact ⟨fun same => ⟨shallow, same, rfl⟩, fun both => both.2.1⟩
    · rw [if_neg shallow]
      exact iff_of_false nofun fun both => shallow both.1
  · intro shallow
    rw [decoded, if_pos shallow]
  · intro deep
    rw [decoded, if_neg (Nat.not_le.mpr deep)]

/-- A union of shapes. -/
def shape : Schema :=
  .union "Shape" [("Dot", .unit), ("Circle", .single (.int .i64)),
    ("Rect", .tuple [.int .i64, .int .i64]), ("Named", .record [("label", .text)])]

/-- A record with an absent option, a list and a map comes back under its own schema. -/
theorem plain_record_comes_back :
    decodeValue
        (.record "Parcel" [("note", .option .text), ("sizes", .list (.int .u8)),
          ("marks", .map .bool)])
        [0x93, 0xc0, 0x92, 0x01, 0x02, 0x81, 0xa1, 0x61, 0xc3] (Registry.empty.register shape) =
      .ok (.tuple [.absent, .list [.ofByte 1, .ofByte 2], .map [("a", .bool true)]]) := by
  have plain : PlainPayload
      (.record "Parcel" [("note", .option .text), ("sizes", .list (.int .u8)),
        ("marks", .map .bool)])
      (.tuple [.absent, .list [.ofByte 1, .ofByte 2], .map [("a", .bool true)]])
      (.array [.nil, .array [.int (.ofByte 1), .int (.ofByte 2)],
        .map [(.str "a", .bool true)]])
      [0x93, 0xc0, 0x92, 0x01, 0x02, 0x81, 0xa1, 0x61, 0xc3] :=
    ⟨by decide, by decide, by decide +kernel, by decide +kernel, by decide, by decide +kernel⟩
  exact (plain.decodes_iff (Registry.empty.register shape)).1.mpr
    ⟨by decide, by decide, by decide⟩

/-- A circle is written directly, and read as a key.  Its bytes are no envelope, and they are not
read as a payload, while those of its envelope are. -/
theorem labelled_circle_is_refused :
    (Datum.variant 1 "Circle" (.one (.ofByte 5))).fits shape = true ∧
      encodeKey (.variant 1 "Circle" (.one (.ofByte 5))) =
        .ok [0x81, 0xa6, 0x43, 0x69, 0x72, 0x63, 0x6c, 0x65, 0x05] ∧
      (Wire.map [(.str "Circle", .int (.ofByte 5))]).hasDataEntry = false ∧
      decodeKey shape [0x81, 0xa6, 0x43, 0x69, 0x72, 0x63, 0x6c, 0x65, 0x05] =
        .ok (.variant 1 "Circle" (.one (.ofByte 5))) ∧
      decodeValue shape [0x81, 0xa6, 0x43, 0x69, 0x72, 0x63, 0x6c, 0x65, 0x05] .empty =
        .error (.deserialization "data do not fit the requested type") ∧
      (encodeValue shape (.variant 1 "Circle" (.one (.ofByte 5))) .empty).1.bind
          (fun payload => decodeValue shape payload .empty) =
        .ok (.variant 1 "Circle" (.one (.ofByte 5))) := by
  decide +kernel

end PlainPayload
end TypedStore
