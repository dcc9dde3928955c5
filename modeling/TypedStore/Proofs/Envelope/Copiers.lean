import TypedStore.Proofs.Envelope.Exchange
import TypedStore.Proofs.Registry.Tables
import TypedStore.Proofs.Schema.Tables

/-!
# Copiers

A copier reads a payload as a dynamic value and writes what it read.  What it knows
decides how: data of a name that it does not know stay raw, data of one that it knows
become a value and data again.  `Sendable.chain_keeps_payload` says that this makes no
difference to the payload of a schema, whatever else the copiers know.

It does make one to tables.  A copier that knows their type hands the same entries on
in the order that it drew, which `relay_hashMap` says exactly.
-/

namespace TypedStore

open Envelope

/-- What a copier makes of a payload, with the orders that its tables draw.  A payload
that cannot be read is not copied. -/
def relay (order : TableOrder) (payload : Bytes) (registry : TypeRegistry) :
    Except CodecError Bytes × TypeRegistry :=
  match decodeHeld order payload registry with
  | .ok value => encodeHeld value registry
  | .error fault => (.error fault, registry)

/-- The payloads that a chain of copiers hands on, each with the registry of its
copier afterwards. -/
def relayAll : Bytes → List (TableOrder × TypeRegistry) →
    Except CodecError (List (Bytes × TypeRegistry))
  | _, [] => .ok []
  | payload, (order, registry) :: rest =>
    match relay order payload registry with
    | (.ok copied, registry) => (relayAll copied rest).map ((copied, registry) :: ·)
    | (.error fault, _) => .error fault

namespace Sendable

variable {schema : Schema} {value : Datum} {data : Wire}

/-- Where the name of a schema is that of no type with tables, a reader asks its schemas
for it. -/
theorem decodeHeld_payload (sendable : Sendable schema value data) (order : TableOrder)
    {reader : TypeRegistry} (noTable : reader.table? schema.tag = none) :
    decodeHeld order (wrap data (some schema.tag)).write reader =
      if data.depth ≤ room then .ok (.plain (reader.schemas.decode schema.tag data))
      else .error (.deserialization "malformed payload") := by
  rw [decodeHeld, sendable.open?_payload]
  split
  · rw [ok_bind]
    dsimp only
    rw [TypeRegistry.decode_of_table?_eq_none noTable]
    rfl
  · rfl

/-- One copier changes neither the payload nor its own registry.  It takes one of
two ways, through the schema or through raw data. -/
theorem relay_payload (sendable : Sendable schema value data) (shallow : data.depth ≤ room)
    (order : TableOrder) {copier : TypeRegistry} (agrees : copier.AgreesOn schema) :
    relay order (wrap data (some schema.tag)).write copier =
      (.ok (wrap data (some schema.tag)).write, copier) := by
  have reads := sendable.decodeHeld_payload order agrees.noTable
  rw [if_pos shallow] at reads
  rw [relay, reads]
  dsimp only
  by_cases known : schema.tag ∈ copier.schemas.schemas.map Schema.tag
  · rcases List.mem_map.mp known with ⟨held, listed, tagged⟩
    have member : schema ∈ copier.schemas.schemas := by
      rw [← agrees.schemas held listed tagged]
      exact listed
    have written := congrArg Prod.fst (sendable.encodeDyn_typed_settled copier.schemas)
    rw [sendable.decode_of_mem member]
    exact Prod.ext written (TypeRegistry.registerSchema_of_mem member)
  · rw [Registry.decode_of_not_mem data known]
    rfl

theorem relayAll_payload (sendable : Sendable schema value data) (shallow : data.depth ≤ room)
    (copiers : List (TableOrder × TypeRegistry))
    (agree : ∀ copier ∈ copiers, copier.2.AgreesOn schema) :
    relayAll (wrap data (some schema.tag)).write copiers =
      .ok (copiers.map fun copier => ((wrap data (some schema.tag)).write, copier.2)) := by
  induction copiers with
  | nil => rfl
  | cons copier rest hypothesis =>
    have first := sendable.relay_payload shallow copier.1 (agree copier List.mem_cons_self)
    have others := hypothesis fun later member => agree later (List.mem_cons_of_mem _ member)
    rw [relayAll, first]
    dsimp only
    rw [others]
    rfl

/-- Names and data survive any chain of copiers.  Every payload along the chain is
the one first written and every registry stays as it was.  Whoever reads at the
end gets the value as a typed value if the schema is registered, settled as
every reader sees it, and otherwise its data with its name.  Data nested too
deeply never enter a chain: no reader takes the first payload. -/
theorem chain_keeps_payload (sendable : Sendable schema value data)
    (copiers : List (TableOrder × TypeRegistry))
    (agree : ∀ copier ∈ copiers, copier.2.AgreesOn schema) :
    (∀ writer, (encodeValue schema value writer).1 =
        .ok (wrap data (some schema.tag)).write) ∧
      (data.depth ≤ room →
        relayAll (wrap data (some schema.tag)).write copiers =
          .ok (copiers.map fun copier => ((wrap data (some schema.tag)).write, copier.2)) ∧
        (∀ order reader, schema ∈ reader.schemas.schemas →
          decodeHeld order (wrap data (some schema.tag)).write reader =
            .ok (.plain (.typed schema value.settled))) ∧
        ∀ order reader, schema.tag ∉ reader.names →
          decodeHeld order (wrap data (some schema.tag)).write reader =
            .ok (.plain (.raw data (some schema.tag)))) ∧
      (room < data.depth → ∀ order reader,
        decodeHeld order (wrap data (some schema.tag)).write reader =
          .error (.deserialization "malformed payload")) ∧
      (value.settled = value ↔ value.isDefinite = true) := by
  refine ⟨?_, ?_, ?_, Datum.settled_eq_self_iff value⟩
  · intro writer
    rw [sendable.encodeValue_eq]
  · intro shallow
    refine ⟨sendable.relayAll_payload shallow copiers agree, ?_, ?_⟩
    · intro order reader member
      rw [sendable.decodeHeld_payload order (TypeRegistry.table?_of_mem member), if_pos shallow,
        sendable.decode_of_mem member]
    · intro order reader unknown
      have noTable := (TypeRegistry.agreesOn_of_not_mem unknown).noTable
      have noSchema := fun member => unknown (List.mem_append_left _ member)
      rw [sendable.decodeHeld_payload order noTable, if_pos shallow,
        Registry.decode_of_not_mem data noSchema]
  · intro deep order reader
    rw [decodeHeld, sendable.open?_payload, if_neg (Nat.not_le.mpr deep)]
    rfl

/-- A pair goes through a copier that does not know its schema and one that does. -/
theorem pair_survives_two_copiers :
    relayAll (wrap (.array [.nil, .bool true]) (some "(core::option::Option<()>, bool)")).write
        [(⟨fun _ => 0⟩, .ofSchemas .empty),
          (⟨fun _ => 0⟩, .ofSchemas (Registry.empty.register (.tuple [.option .unit, .bool])))] =
      .ok [((wrap (.array [.nil, .bool true]) (some "(core::option::Option<()>, bool)")).write,
          .ofSchemas .empty),
        ((wrap (.array [.nil, .bool true]) (some "(core::option::Option<()>, bool)")).write,
          .ofSchemas (Registry.empty.register (.tuple [.option .unit, .bool])))] := by
  have sendable : Sendable (.tuple [.option .unit, .bool]) (.tuple [.absent, .bool true])
      (.array [.nil, .bool true]) :=
    ⟨rfl, rfl, rfl, by decide, by decide +kernel⟩
  refine ((sendable.chain_keeps_payload
    [(⟨fun _ => 0⟩, .ofSchemas .empty),
      (⟨fun _ => 0⟩, .ofSchemas (Registry.empty.register (.tuple [.option .unit, .bool])))]
    ?_).2.1 (by decide)).1
  simp only [List.forall_mem_cons, List.not_mem_nil]
  refine ⟨⟨by decide +kernel, rfl⟩, ⟨by decide +kernel, rfl⟩, ?_⟩
  intro copier impossible
  cases impossible

end Sendable

/-! ## Tables -/

/-- A copier that knows a map kept by hash hands the same entries on, in the order that it
drew, under the same name.  Its registry stays as it was. -/
theorem relay_hashMap {item : Schema} {entries : List (String × Datum)}
    {wires : List (Wire × Wire)} (static : item.isStatic = true)
    (distinct : (entries.map Prod.fst).Nodup) (fits : Datum.entriesFit entries item = true)
    (written : Datum.entriesToWire .numbered entries = .ok wires)
    (dataFit : (Wire.map wires).lengthsFit = true)
    (nameFits : (Bytes.utf8 (TableType.map item).tag).length < 0x100000000)
    (shallow : (Wire.map wires).depth ≤ room) (order : TableOrder) {copier : TypeRegistry}
    (knows : TableType.map item ∈ copier.tables) :
    relay order (wrap (.map wires) (some (TableType.map item).tag)).write copier =
        (.ok (wrap (.map (order.arrangeWires wires)) (some (TableType.map item).tag)).write,
          copier) ∧
      (order.arrangeWires wires).Perm wires := by
  refine ⟨?_, TableOrder.arrange_perm _ wires⟩
  have opened : open? (wrap (.map wires) (some (TableType.map item).tag)).write =
      .ok (.map wires, some (TableType.map item).tag) := by
    rw [open?_write_wrap dataFit, if_pos shallow]
    intro text same
    rw [← Option.some.inj same]
    exact nameFits
  have again := TableType.toWire_arrangeEntries order written
  rw [relay, decodeHeld, opened, ok_bind]
  dsimp only
  rw [TypeRegistry.decode, TypeRegistry.table?_of_mem_tables knows]
  dsimp only
  rw [TableType.read_map order static distinct fits written]
  refine Prod.ext ?_ (TypeRegistry.registerTable_of_mem knows)
  change ((Datum.toWire .numbered _).mapError _).map _ = _
  rw [again]
  rfl

/-- A map of two flags that is kept by hash. -/
def hashedFlags : HeldValue :=
  .table (.map .bool) (.map [("a", .bool true), ("b", .bool false)])

/-- Such a map on the wire. -/
def flagEntries : List (Wire × Wire) :=
  [(.str "a", .bool true), (.str "b", .bool false)]

/-- A payload of such maps. -/
def flagPayload (entries : List (Wire × Wire)) : Bytes :=
  (wrap (.map entries) (some (TableType.map .bool).tag)).write

/-- A copier that knows such maps. -/
def knowsHashedFlags : TypeRegistry :=
  (TypeRegistry.ofSchemas .empty).registerTable (.map .bool)

/-- An order in which `a` comes last. -/
def lastIsA : TableOrder := ⟨fun item => if item = .text "a" then 1 else 0⟩

theorem relay_flagPayload (order : TableOrder) :
    relay order (flagPayload flagEntries) knowsHashedFlags =
      (.ok (flagPayload (order.arrangeWires flagEntries)), knowsHashedFlags) := by
  have written : Datum.entriesToWire .numbered [("a", .bool true), ("b", .bool false)] =
      .ok flagEntries := rfl
  have known : TableType.map .bool ∈ knowsHashedFlags.tables := List.mem_singleton.mpr rfl
  exact (relay_hashMap (rfl : Schema.bool.isStatic = true) (by decide) rfl written (by decide)
    (by decide +kernel) (by decide) order known).1

/-- Payloads that do not survive copiers: that of a map kept by hash, which comes out in
another order, and that of a record whose name the copier has for another one.  Readers
find another value than the present option of an absent one, and no copier takes lists
in lists that need every level which a reader has. -/
theorem payloads_that_change_on_the_way :
    ((encodeHeld hashedFlags (.ofSchemas .empty)).1 = .ok (flagPayload flagEntries) ∧
        (relay lastIsA (flagPayload flagEntries) knowsHashedFlags).1 =
          .ok (flagPayload flagEntries.reverse) ∧
        flagPayload flagEntries.reverse ≠ flagPayload flagEntries) ∧
      (∃ payload copied,
        (encodeValue integerPoint (.tuple [.int (.ofByte 3)]) .empty).1 = .ok payload ∧
        (relay lastIsA payload (.ofSchemas (Registry.empty.register floatPoint))).1 = .ok copied ∧
        copied ≠ payload) ∧
      (∃ payload,
        (encodeValue (.option (.option .bool)) (.present .absent) .empty).1 = .ok payload ∧
        decodeHeld lastIsA payload
            (.ofSchemas (Registry.empty.register (.option (.option .bool)))) =
          .ok (.plain (.typed (.option (.option .bool)) .absent))) ∧
      ∃ payload, (encodeValue (.nested 1023) (.nested 1023) .empty).1 = .ok payload ∧
        (relay lastIsA payload (.ofSchemas .empty)).1 =
          .error (.deserialization "malformed payload") := by
  have copied : lastIsA.arrangeWires flagEntries = flagEntries.reverse := by decide +kernel
  have ofLists : Sendable (.nested 1023) (.nested 1023) (.nested 1023) := .nested (by decide)
  refine ⟨⟨rfl, ?_, by decide +kernel⟩, ⟨_, _, rfl, rfl, by decide +kernel⟩, ⟨_, rfl, rfl⟩,
    ⟨_, congrArg Prod.fst (ofLists.encodeValue_eq .empty), ?_⟩⟩
  · rw [relay_flagPayload, copied]
  · rw [relay, ofLists.decodeHeld_payload lastIsA rfl, Wire.depth_nested, if_neg (by decide)]

end TypedStore
