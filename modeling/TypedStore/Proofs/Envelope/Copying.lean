import TypedStore.Proofs.Envelope.Copiers
import TypedStore.Proofs.Envelope.Recall
import TypedStore.Proofs.Schema.Rereading

/-!
# Copies of arbitrary payloads

A payload need not have been written here.  Its envelope may have its entries in any
order, more entries, the same entry twice, or none of them, and lengths and numbers may
have any of the forms that the format has.  A copier reads it and writes what it read,
and the copy is in the one form that `encodeValue` gives.

`copying_normalizes` says that this is final for a value without tables.  Reading the
copy gives the value that was read at first, typed or raw, with its name and its data,
and copying the copy changes nothing.  What can happen is that the copy is nested too
deeply: an envelope is one level, and data that came without one may take all the
levels that a reader has.

The copy of a table is not final, since the next reader draws another order.
-/

namespace TypedStore

open Envelope

/-! ## What opening a payload gives -/

theorem Envelope.mem_of_last? {label : String} {entries : List (Wire × Wire)} {value : Wire}
    (found : last? label entries = some value) : ∃ key, (key, value) ∈ entries := by
  rcases Option.map_eq_some_iff.mp found with ⟨⟨key, held⟩, here, same⟩
  cases same
  exact ⟨key, List.mem_reverse.mp (List.mem_of_find?_eq_some here)⟩

/-- The data and the name of an envelope are parts of it, or the data are all of it. -/
theorem Envelope.fits_split {value : Wire} (fits : value.lengthsFit = true) :
    (split value).1.lengthsFit = true ∧
      ∀ text ∈ (split value).2, (Bytes.utf8 text).length < 0x100000000 := by
  have whole : value.lengthsFit = true ∧
      ∀ text ∈ (none : Option String), (Bytes.utf8 text).length < 0x100000000 :=
    ⟨fits, by simp⟩
  unfold split
  split
  · next entries =>
    have each := Wire.entriesFit_iff.mp (Bool.and_eq_true_iff.mp fits).2
    split
    · next data found =>
      rcases mem_of_last? found with ⟨key, member⟩
      refine ⟨(each _ member).2, ?_⟩
      intro text named
      rcases Option.bind_eq_some_iff.mp named with ⟨held, foundName, isText⟩
      rcases mem_of_last? foundName with ⟨key, member⟩
      have heldFits := (each _ member).2
      cases held with
      | str name =>
        cases isText
        exact of_decide_eq_true heldFits
      | _ => cases isText
    · exact whole
  · exact whole

/-- The format can count what is found in a payload, whoever wrote it. -/
theorem Envelope.fits_of_open? {payload : Bytes} {data : Wire} {name : Option String}
    (opened : open? payload = .ok (data, name)) :
    data.lengthsFit = true ∧ ∀ text ∈ name, (Bytes.utf8 text).length < 0x100000000 := by
  unfold open? at opened
  split at opened
  · cases opened
  · split at opened
    · cases opened
    · next value rest read =>
      have parts := fits_split (Wire.lengthsFit_of_read Wire.maxDepth read)
      rw [Except.ok.inj opened] at parts
      exact parts

/-! ## Copies -/

section Copies

variable {registry : TypeRegistry} {first : TableOrder} {payload copied : Bytes}
  {found : DynValue}

/-- A value without tables is what the schemas find. -/
theorem decodeDyn_of_decodeHeld (decoded : decodeHeld first payload registry = .ok (.plain found)) :
    decodeDyn payload registry.schemas = .ok found := by
  rcases exists_of_bind_eq_ok decoded with ⟨⟨data, name⟩, opened, later⟩
  rw [decodeDyn, opened, ok_bind]
  cases name with
  | none => exact congrArg Except.ok (HeldValue.plain.inj (Except.ok.inj later))
  | some name =>
    exact congrArg Except.ok (TypeRegistry.decode_of_eq_plain (Except.ok.inj later)).1

/-- What a registry restores from data and, perhaps, a name. -/
def TypeRegistry.restore (registry : TypeRegistry) (order : TableOrder) (name : Option String)
    (data : Wire) : HeldValue :=
  match name with
  | some name => registry.decode order name data
  | none => .plain (.raw data none)

/-- A value that was found is counted and is restored from what it is written as, whatever
order tables draw. -/
theorem restored_of_decodeHeld
    (countable : ∀ schema ∈ registry.schemas.schemas, schema.isCountable = true)
    (decoded : decodeHeld first payload registry = .ok (.plain found)) :
    found.Countable ∧ ∀ data, found.toWire = .ok data →
      ∀ later, registry.restore later found.typeName data = .plain found := by
  rcases exists_of_bind_eq_ok decoded with ⟨⟨data, name⟩, opened, later⟩
  rcases fits_of_open? opened with ⟨dataFit, nameFits⟩
  have raw : (DynValue.raw data name).Countable := by
    refine ⟨?_, nameFits⟩
    intro other same
    cases same
    exact dataFit
  cases name with
  | none =>
    cases later
    refine ⟨raw, ?_⟩
    intro other same order
    cases same
    rfl
  | some name =>
    rcases TypeRegistry.decode_of_eq_plain (Except.ok.inj later) with ⟨bySchemas, always⟩
    rcases registry.schemas.decode_cases name data with isRaw | ⟨schema, datum, known, read, typed⟩
    · rw [bySchemas] at isRaw
      subst isRaw
      refine ⟨raw, ?_⟩
      intro other same order
      cases same
      exact always order
    · rw [bySchemas] at typed
      subst typed
      have member := List.mem_of_find?_eq_some known
      have own := Registry.tag_of_find? known
      have rereads := Schema.steady_ofWire? schema (countable schema member) data datum dataFit read
      have backAgain : ∀ other, (DynValue.typed schema datum).toWire = .ok other →
          schema.ofWire? other = some datum ∧ other.lengthsFit = true :=
        fun other written => rereads other (of_mapError_eq_ok written)
      refine ⟨⟨fun other written => (backAgain other written).2, ?_⟩, ?_⟩
      · intro text same
        cases same
        rw [own]
        exact nameFits name rfl
      · intro other written order
        change registry.decode order schema.tag other = _
        rw [TypeRegistry.decode_of_table?_eq_none (TypeRegistry.table?_of_mem member),
          Registry.decode_of_mem member (backAgain other written).1]

/-- What was found by a registry has nothing to add to it. -/
theorem registerIn_of_decodeHeld
    (decoded : decodeHeld first payload registry = .ok (.plain found)) :
    (HeldValue.plain found).registerIn registry = registry := by
  rcases exists_of_bind_eq_ok (decodeDyn_of_decodeHeld decoded) with ⟨⟨data, name⟩, -, later⟩
  cases name with
  | none =>
    cases later
    rfl
  | some name =>
    cases later
    rcases registry.schemas.decode_cases name data with isRaw | ⟨schema, datum, known, read, typed⟩
    · rw [isRaw]
      rfl
    · rw [typed]
      exact TypeRegistry.registerSchema_of_mem (List.mem_of_find?_eq_some known)

theorem decodeHeld_write_wrap {value : DynValue} (countable : value.Countable) {data : Wire}
    (written : value.toWire = .ok data) (order : TableOrder) (reader : TypeRegistry) :
    decodeHeld order (wrap data value.typeName).write reader =
      if data.depth ≤ room then .ok (reader.restore order value.typeName data)
      else .error (.deserialization "malformed payload") := by
  rw [decodeHeld, open?_write_wrap (countable.data data written) countable.name]
  split
  · rw [ok_bind]
    cases value.typeName <;> rfl
  · rfl

/-- Copying any payload that holds no table and can be read brings it into its final form.
The copier's registry stays as it was.  A reader of the copy finds the very value that was
found at first, and its copy is the same again, as long as the data leave a level for the
envelope.  Data that are nested more deeply are written but never read. -/
theorem copying_normalizes
    (countable : ∀ schema ∈ registry.schemas.schemas, schema.isCountable = true)
    (decoded : decodeHeld first payload registry = .ok (.plain found))
    (encoded : (encodeHeld (.plain found) registry).1 = .ok copied) :
    relay first payload registry = (.ok copied, registry) ∧
      ∃ data, found.toWire = .ok data ∧
        (data.depth ≤ room → ∀ later,
          decodeHeld later copied registry = .ok (.plain found) ∧
            relay later copied registry = (.ok copied, registry)) ∧
        (room < data.depth → ∀ later,
          decodeHeld later copied registry = .error (.deserialization "malformed payload")) := by
  have copies : encodeHeld (.plain found) registry = (.ok copied, registry) :=
    Prod.ext encoded (registerIn_of_decodeHeld decoded)
  rcases exists_of_map_eq_ok encoded with ⟨data, written, rfl⟩
  rcases restored_of_decodeHeld countable decoded with ⟨counted, restores⟩
  refine ⟨?_, data, written, ?_, ?_⟩
  · rw [relay, decoded]
    exact copies
  · intro shallow later
    have again := decodeHeld_write_wrap counted written later registry
    rw [if_pos shallow, restores data written later] at again
    refine ⟨again, ?_⟩
    change relay later (wrap data found.typeName).write registry = _
    rw [relay, again]
    exact copies
  · intro deep later
    have again := decodeHeld_write_wrap counted written later registry
    rw [if_neg (Nat.not_le.mpr deep)] at again
    exact again

end Copies

/-- A registry that knows a point and maps of flags that are kept by hash. -/
def knowsPoints : TypeRegistry :=
  knowsHashedFlags.registerSchema (.record "Point" [("x", .f64), ("label", .option .text)])

/-- An envelope with its name in front, as a text of the longer form, an entry `n` that no
envelope has, and a point that is a map of one integer without its label. -/
theorem foreign_point_normalizes :
    relay lastIsA [0x83, 0xa4, 0x74, 0x79, 0x70, 0x65, 0xd9, 0x05, 0x50, 0x6f, 0x69, 0x6e, 0x74,
        0xa1, 0x6e, 0xc0, 0xa4, 0x64, 0x61, 0x74, 0x61, 0x81, 0xa1, 0x78, 0xd1, 0x00, 0x03]
        knowsPoints =
      (.ok (wrap (.array [.f64 0x4008000000000000, .nil]) (some "Point")).write, knowsPoints) ∧
    decodeHeld lastIsA (wrap (.array [.f64 0x4008000000000000, .nil]) (some "Point")).write
        knowsPoints =
      .ok (.plain (.typed (.record "Point" [("x", .f64), ("label", .option .text)])
        (.tuple [.f64 0x4008000000000000, .absent]))) := by
  have countable : ∀ schema ∈ knowsPoints.schemas.schemas, schema.isCountable = true := by
    intro schema member
    rw [List.mem_singleton.mp member]
    rfl
  have decoded : decodeHeld lastIsA
      [0x83, 0xa4, 0x74, 0x79, 0x70, 0x65, 0xd9, 0x05, 0x50, 0x6f, 0x69, 0x6e, 0x74,
        0xa1, 0x6e, 0xc0, 0xa4, 0x64, 0x61, 0x74, 0x61, 0x81, 0xa1, 0x78, 0xd1, 0x00, 0x03]
      knowsPoints =
      .ok (.plain (.typed (.record "Point" [("x", .f64), ("label", .option .text)])
        (.tuple [.f64 0x4008000000000000, .absent]))) := rfl
  rcases copying_normalizes countable decoded rfl with ⟨copies, data, written, shallow, -⟩
  cases written
  exact ⟨copies, (shallow (by decide) lastIsA).1⟩

/-- The copy of a map that is kept by hash is not final.  One copier happens to keep the
order of the entries, and the next one does not. -/
theorem copied_table_is_not_final :
    relay ⟨fun _ => 0⟩ (flagPayload flagEntries) knowsHashedFlags =
        (.ok (flagPayload flagEntries), knowsHashedFlags) ∧
      relay lastIsA (flagPayload flagEntries) knowsHashedFlags =
        (.ok (flagPayload flagEntries.reverse), knowsHashedFlags) ∧
      flagPayload flagEntries.reverse ≠ flagPayload flagEntries := by
  have kept : (⟨fun _ => 0⟩ : TableOrder).arrangeWires flagEntries = flagEntries := by decide
  have turned : lastIsA.arrangeWires flagEntries = flagEntries.reverse := by decide +kernel
  refine ⟨?_, ?_, by decide +kernel⟩
  · rw [relay_flagPayload, kept]
  · rw [relay_flagPayload, turned]

end TypedStore
