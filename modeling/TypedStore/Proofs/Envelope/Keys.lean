import TypedStore.Envelope
import TypedStore.Proofs.Schema.KeyRecovery
import TypedStore.Proofs.Schema.Nested

/-!
# Keys as bytes

Engines that store bytes know entries by the bytes of their keys alone.  So these bytes
must give the key back, must not be read when anything follows them, and must not be the
beginning of the bytes of another key.

`decodeKey_append` is exact about both limits that a reader of keys has.  It opens
`Wire.maxDepth` levels of nesting, and no bytes of a key that is nested more deeply are
read.  And it cannot tell a present option that is written as nil from an absent one; a
key without such options is `isDefinite` and comes back as it was.  The second limit is
also the only one on telling keys apart.
-/

namespace TypedStore

/-- A key of a schema without dynamic parts and the bytes that it is encoded as, all of
whose lengths the format can count. -/
structure EncodedKey (schema : Schema) (key : Datum) (bytes : Bytes) : Prop where
  keyType : schema.isKeyType = true
  fits : key.fits schema = true
  encoded : encodeKey key = .ok bytes
  countable : ∀ data, key.toWire .labelled = .ok data → data.lengthsFit = true

namespace EncodedKey

variable {schema : Schema} {key other : Datum} {bytes otherBytes : Bytes}

theorem exists_data (encodedKey : EncodedKey schema key bytes) :
    ∃ data, key.toWire .labelled = .ok data ∧ data.lengthsFit = true ∧ bytes = data.write := by
  have encoded := encodedKey.encoded
  rw [encodeKey] at encoded
  split at encoded
  · next data written =>
    exact ⟨data, written, encodedKey.countable data written, (Except.ok.inj encoded).symm⟩
  · cases encoded

/-- The reader of a schema takes the bytes of a key and no more. -/
theorem consumes (encodedKey : EncodedKey schema key bytes) :
    Schema.Consumes schema.readDirect key.nesting bytes key.settled := by
  rcases encodedKey.exists_data with ⟨data, written, fits, rfl⟩
  exact Schema.readDirect_write key schema encodedKey.keyType encodedKey.fits written fits

theorem ne_nil (encodedKey : EncodedKey schema key bytes) : bytes ≠ [] := by
  rcases encodedKey.exists_data with ⟨data, written, fits, rfl⟩
  exact Wire.write_ne_nil fits

/-- What is read from the bytes of a key, whatever follows them. -/
theorem decodeKey_append (encodedKey : EncodedKey schema key bytes) (suffix : Bytes) :
    decodeKey schema (bytes ++ suffix) =
      if key.nesting ≤ Wire.maxDepth then
        match suffix with
        | [] => .ok key.settled
        | _ :: _ => .error (.trailingBytes suffix.length)
      else .error (.deserialization "malformed key") := by
  rw [decodeKey.eq_def]
  split
  · next empty => exact absurd (List.append_eq_nil_iff.mp empty).1 encodedKey.ne_nil
  · rw [encodedKey.consumes Wire.maxDepth suffix]
    by_cases shallow : key.nesting ≤ Wire.maxDepth
    · rw [if_pos shallow, if_pos shallow]
      cases suffix <;> rfl
    · rw [if_neg shallow, if_neg shallow]

/-- Bytes of keys that begin alike are the bytes of one settled key. -/
theorem settled_eq_of_prefix (first : EncodedKey schema key bytes)
    (second : EncodedKey schema other otherBytes) (begins : bytes <+: otherBytes) :
    key.settled = other.settled := by
  rcases begins with ⟨suffix, rfl⟩
  have inFirst := first.consumes (max key.nesting other.nesting) suffix
  have inSecond := second.consumes (max key.nesting other.nesting) []
  rw [if_pos (Nat.le_max_left _ _)] at inFirst
  rw [List.append_nil, if_pos (Nat.le_max_right _ _), inFirst] at inSecond
  exact congrArg Prod.fst (Option.some.inj inSecond)

theorem bytes_eq_of_settled_eq (first : EncodedKey schema key bytes)
    (second : EncodedKey schema other otherBytes) (same : key.settled = other.settled) :
    bytes = otherBytes := by
  rcases first.exists_data with ⟨data, written, -, rfl⟩
  rcases second.exists_data with ⟨otherData, otherWritten, -, rfl⟩
  rw [← Datum.toWire_settled, same, Datum.toWire_settled, otherWritten] at written
  rw [Except.ok.inj written]

/-- The encoding of keys is exact.  The bytes of a key that is nested no deeper than the
reader goes give back that key, settled, which is the key itself unless it has a present
option written as nil; followed by anything they are refused, and the error counts what
follows.  Deeper keys are not read at all.  Of two keys of one schema, neither is written
as the beginning of the other, and the two are written alike only if they settle to the
same key. -/
theorem key_codec_exact (encodedKey : EncodedKey schema key bytes) :
    (decodeKey schema bytes = .ok key ↔
        key.nesting ≤ Wire.maxDepth ∧ key.isDefinite = true) ∧
      (key.nesting ≤ Wire.maxDepth → decodeKey schema bytes = .ok key.settled ∧
        ∀ suffix ≠ [], decodeKey schema (bytes ++ suffix) =
          .error (.trailingBytes suffix.length)) ∧
      (Wire.maxDepth < key.nesting → ∀ suffix, decodeKey schema (bytes ++ suffix) =
        .error (.deserialization "malformed key")) ∧
      ∀ other otherBytes, EncodedKey schema other otherBytes →
        (bytes <+: otherBytes ↔ key.settled = other.settled) ∧
        (bytes = otherBytes ↔ key.settled = other.settled) ∧
        (key.isDefinite = true → other.isDefinite = true → key ≠ other →
          bytes ≠ otherBytes ∧ ¬bytes <+: otherBytes ∧ ¬otherBytes <+: bytes) := by
  have whole := encodedKey.decodeKey_append []
  rw [List.append_nil] at whole
  refine ⟨?_, ?_, ?_, ?_⟩
  · rw [whole, ← Datum.settled_eq_self_iff]
    by_cases shallow : key.nesting ≤ Wire.maxDepth <;> simp [shallow]
  · intro shallow
    rw [if_pos shallow] at whole
    refine ⟨whole, ?_⟩
    intro suffix follows
    rw [encodedKey.decodeKey_append suffix, if_pos shallow]
    cases suffix with
    | nil => exact absurd rfl follows
    | cons byte rest => rfl
  · intro deep suffix
    rw [encodedKey.decodeKey_append suffix, if_neg (Nat.not_le.mpr deep)]
  · intro other otherBytes otherKey
    have prefixes : bytes <+: otherBytes ↔ key.settled = other.settled :=
      ⟨encodedKey.settled_eq_of_prefix otherKey,
        fun same => encodedKey.bytes_eq_of_settled_eq otherKey same ▸ List.prefix_refl bytes⟩
    refine ⟨prefixes, ?_, ?_⟩
    · constructor
      · rintro rfl
        exact prefixes.mp (List.prefix_refl bytes)
      · exact encodedKey.bytes_eq_of_settled_eq otherKey
    · intro definite otherDefinite different
      have apart : key.settled ≠ other.settled := by
        rw [(Datum.settled_eq_self_iff key).mpr definite,
          (Datum.settled_eq_self_iff other).mpr otherDefinite]
        exact different
      refine ⟨?_, ?_, ?_⟩
      · rintro rfl
        exact apart (prefixes.mp (List.prefix_refl bytes))
      · exact fun begins => apart (prefixes.mp begins)
      · exact fun begins => apart (otherKey.settled_eq_of_prefix encodedKey begins).symm

/-- A pair of an absent integer and a labelled shape, alone and followed by two bytes. -/
theorem shape_key_is_exact :
    decodeKey
        (.tuple [.option (.int .i64),
          .union "Shape" [("Dot", .unit), ("Named", .record [("label", .text)])]])
        [0x92, 0xc0, 0x81, 0xa5, 0x4e, 0x61, 0x6d, 0x65, 0x64, 0x91, 0xa1, 0x78] =
      .ok (.tuple [.absent, .variant 1 "Named" (.many [.text "x"])]) ∧
    (decodeKey
        (.tuple [.option (.int .i64),
          .union "Shape" [("Dot", .unit), ("Named", .record [("label", .text)])]])
        ([0x92, 0xc0, 0x81, 0xa5, 0x4e, 0x61, 0x6d, 0x65, 0x64, 0x91, 0xa1, 0x78] ++
          [0xc0, 0x01])).mapError CodecError.message =
      .error "Deserialization error: 2 trailing bytes after key" := by
  have encodedKey : EncodedKey
      (.tuple [.option (.int .i64),
        .union "Shape" [("Dot", .unit), ("Named", .record [("label", .text)])]])
      (.tuple [.absent, .variant 1 "Named" (.many [.text "x"])])
      [0x92, 0xc0, 0x81, 0xa5, 0x4e, 0x61, 0x6d, 0x65, 0x64, 0x91, 0xa1, 0x78] := by
    refine ⟨by decide, by decide, by decide +kernel, ?_⟩
    intro data written
    cases written
    decide
  rcases encodedKey.key_codec_exact with ⟨alone, followed, -, -⟩
  refine ⟨alone.mpr ⟨by decide, by decide⟩, ?_⟩
  rw [(followed (by decide)).2 [0xc0, 0x01] (by decide)]
  rfl

theorem nested (depth : Nat) :
    EncodedKey (.nested depth) (.nested depth) (Wire.nested depth).write where
  keyType := Schema.isKeyType_nested depth
  fits := Datum.fits_nested depth
  encoded := by rw [encodeKey, Datum.toWire_nested]
  countable data written := by
    rw [Datum.toWire_nested] at written
    cases written
    exact Wire.lengthsFit_nested depth

/-- Keys that are written and do not come back: a present option of nothing, which is
written as the absent one, and lists in lists that are one level deeper than a reader
goes, with no count of what follows them. -/
theorem keys_that_do_not_return :
    EncodedKey (.option .unit) .absent [0xc0] ∧
      EncodedKey (.option .unit) (.present .unit) [0xc0] ∧
      decodeKey (.option .unit) [0xc0] = .ok .absent ∧
      EncodedKey (.nested 1024) (.nested 1024) (Wire.nested 1024).write ∧
      decodeKey (.nested 1024) ((Wire.nested 1024).write ++ [0x00]) =
        .error (.deserialization "malformed key") := by
  have absent : EncodedKey (.option .unit) .absent [0xc0] := by
    refine ⟨rfl, rfl, rfl, ?_⟩
    intro data written
    cases written
    rfl
  have present : EncodedKey (.option .unit) (.present .unit) [0xc0] := by
    refine ⟨rfl, rfl, rfl, ?_⟩
    intro data written
    cases written
    rfl
  refine ⟨absent, present, rfl, nested 1024, ?_⟩
  rw [(nested 1024).decodeKey_append, Datum.nesting_nested, if_neg (by decide)]

end EncodedKey
end TypedStore
