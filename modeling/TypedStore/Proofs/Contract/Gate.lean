import TypedStore.Memory
import TypedStore.Proofs.Contract.Adapter
import TypedStore.Proofs.Contract.Lsm
import TypedStore.Proofs.Contract.Redis
import TypedStore.Proofs.Contract.Sqlite
import TypedStore.Proofs.Envelope.Conversion

/-!
# Writing where overwriting is denied

A map that denies overwriting leaves the decision to its engine, and the engine looks at
what it holds, not at what readers see.  An entry that nobody can read still keeps its key:
`load` finds nothing there, and nothing is written.

`Storage.Admits` says how an engine decides, in any state and whatever bytes it holds, and
`KeepsFirst` what the maps over it make of that.  A value that is refused has been encoded
all the same, so its schema is in the registry afterwards.  Only readers of dynamic values
look there: what was raw under the name of that schema may be typed from then on.
-/

namespace TypedStore

variable {σ κ ν ρ : Type}

/-- How an engine decides on inserting a payload under a key, given whether it holds an
entry there.  `rows` are the entries it holds. -/
structure Storage.Admits (inner : Storage σ κ Bytes) (rows : σ → ρ) (held : Bool) (key : κ)
    (payload : Bytes) (state : σ) : Prop where
  absent : held = false → (inner.load key state).1 = none
  written : held = false →
    (inner.load key (inner.storeIfAbsent key payload (inner.load key state).2).2).1 =
      some payload
  kept : held = true →
    rows (inner.storeIfAbsent key payload (inner.load key state).2).2 = rows state
  same : ∀ found, (inner.load key state).1 = some found →
    (inner.load key (inner.storeIfAbsent key payload (inner.load key state).2).2).1 = some found

/-- A map over an engine that denies overwriting. -/
def denying (values : ValueCodec ν) (inner : Storage σ κ Bytes) : TypedMap (Registry × σ) κ ν :=
  ⟨Adapter.storage values inner, false⟩

/-- Look a key up and store a value under it through a map that denies overwriting. -/
def offer (values : ValueCodec ν) (inner : Storage σ κ Bytes) (key : κ) (value : ν)
    (state : Registry × σ) : Registry × σ :=
  (denying values inner).store key value ((denying values inner).load key state).2

/-- What storing a value does through a map that denies overwriting.  If the engine holds no
entry under the key, the key was absent and now has the value.  If it holds one, its entries
stay as they are; and if it can hand the entry over, the map reads it as before, under the
registry that encoding the value leaves behind. -/
structure KeepsFirst (values : ValueCodec ν) (inner : Storage σ κ Bytes) (rows : σ → ρ)
    (held : Bool) (key : κ) (value : ν) (before : Registry × σ) : Prop where
  absent : held = false → ((denying values inner).load key before).1 = none
  written : held = false →
    ((denying values inner).load key (offer values inner key value before)).1 = some value
  kept : held = true → rows (offer values inner key value before).2 = rows before.2
  reread : (inner.load key before.2).1.isSome = true →
    ((denying values inner).load key (offer values inner key value before)).1 =
      ((denying values inner).load key ((values.encode value before.1).2, before.2)).1

/-- The decision of the engine is that of the map. -/
theorem Storage.Admits.keepsFirst {inner : Storage σ κ Bytes} {rows : σ → ρ} {held : Bool}
    {key : κ} {payload : Bytes} {state : σ} (admits : inner.Admits rows held key payload state)
    {values : ValueCodec ν} {value : ν} {registry : Registry}
    (encoded : (values.encode value registry).1 = .ok payload)
    (back : values.decode payload (values.encode value registry).2 = .ok value) :
    KeepsFirst values inner rows held key value (registry, state) := by
  have stored : offer values inner key value (registry, state) =
      ((values.encode value registry).2,
        (inner.storeIfAbsent key payload (inner.load key state).2).2) :=
    Adapter.storeIfAbsent_of_encoded _ encoded
  have loaded : ∀ registry state, ((denying values inner).load key (registry, state)).1 =
      (inner.load key state).1.bind fun bytes => (values.decode bytes registry).toOption :=
    fun _ _ => rfl
  constructor
  · intro nothing
    rw [loaded, admits.absent nothing]
    rfl
  · intro nothing
    rw [stored, loaded, admits.written nothing, Option.bind_some, back]
    rfl
  · intro present
    rw [stored]
    exact admits.kept present
  · intro found
    rcases Option.isSome_iff_exists.mp found with ⟨bytes, same⟩
    rw [stored, loaded, loaded, admits.same bytes same, same]

/-! ## Engines -/

section Engines

variable {inner : Storage σ κ Bytes} {rows : σ → ρ} {key : κ} {payload : Bytes} {state : σ}

theorem Storage.Admits.of_absent (absent : (inner.load key state).1 = none)
    (written : (inner.load key
      (inner.storeIfAbsent key payload (inner.load key state).2).2).1 = some payload) :
    inner.Admits rows false key payload state where
  absent _ := absent
  written _ := written
  kept impossible := by cases impossible
  same found present := by
    rw [absent] at present
    cases present

theorem Storage.Admits.of_held
    (kept : rows (inner.storeIfAbsent key payload (inner.load key state).2).2 = rows state)
    (same : ∀ found, (inner.load key state).1 = some found → (inner.load key
      (inner.storeIfAbsent key payload (inner.load key state).2).2).1 = some found) :
    inner.Admits rows true key payload state where
  absent impossible := by cases impossible
  written impossible := by cases impossible
  kept _ := kept
  same := same

end Engines

theorem Memory.admits [DecidableEq κ] {memory : Memory κ Bytes} (opened : memory.closed = false)
    (key : κ) (payload : Bytes) :
    Memory.storage.Admits Memory.listing (memory.listing.get? key).isSome key payload memory := by
  rcases memory with ⟨listing, closed⟩
  cases opened
  cases found : listing.get? key with
  | none =>
    have inserted : Memory.storeIfAbsent key payload ⟨listing, false⟩ =
        (true, ⟨listing.insert key payload, false⟩) := by
      simp [Memory.storeIfAbsent, found]
    refine .of_absent found ?_
    change (Memory.storeIfAbsent key payload ⟨listing, false⟩).2.load key = _
    rw [inserted]
    simp [Memory.load]
  | some bytes =>
    have refused : Memory.storeIfAbsent key payload ⟨listing, false⟩ =
        (false, ⟨listing, false⟩) := by
      simp [Memory.storeIfAbsent, found]
    refine .of_held ?_ ?_
    · exact congrArg (fun answered => answered.2.listing) refused
    · intro held loaded
      change (Memory.storeIfAbsent key payload ⟨listing, false⟩).2.load key = some held
      rw [refused]
      exact loaded

/-- What was stored stays readable when a value is sealed, whether or not it is inserted. -/
theorem Lsm.admits {aead : Aead} (sound : aead.Sound) {codec : KeyCodec κ} {lsm : Lsm}
    (opened : lsm.closed = false) (consistent : lsm.protection.Consistent aead) {key : κ}
    {bytes : Bytes} (writable : codec.bytes? key = some bytes) {payload : Bytes}
    (room : Lsm.hasRoom (lsm.storeIfAbsent aead codec key payload).2) :
    (Lsm.storage aead codec).Admits Lsm.entries (lsm.entries.get? bytes).isSome key payload
      lsm := by
  rcases Lsm.exists_storeIfAbsent sound opened consistent writable room with
    ⟨stored, protection, unlocked, _, kept, answered⟩
  cases found : lsm.entries.get? bytes with
  | none =>
    rw [found] at answered
    refine .of_absent ?_ ?_
    · refine (Lsm.load_of_writable opened writable).trans ?_
      rw [found]
      rfl
    · have stillOpen : (({ lsm with protection } : Lsm).insertStored bytes stored).closed =
          false := opened
      change (lsm.storeIfAbsent aead codec key payload).2.load aead codec key = _
      rw [answered]
      refine (Lsm.load_of_writable stillOpen writable).trans ?_
      change ((lsm.entries.insert bytes stored).get? bytes).bind (fun stored =>
        (protection.unlock aead stored).toOption) = _
      rw [Tree.get?_insert, if_pos rfl, Option.bind_some, unlocked]
      rfl
  | some old =>
    rw [found] at answered
    refine .of_held (congrArg (fun answered => answered.2.entries) answered) ?_
    intro plain loaded
    have before := (Lsm.load_of_writable opened writable).symm.trans loaded
    -- Sealing the refused value may have added a data key, and old bytes still open.
    have stillOpen : ({ lsm with protection } : Lsm).closed = false := opened
    change (lsm.storeIfAbsent aead codec key payload).2.load aead codec key = _
    rw [answered]
    refine (Lsm.load_of_writable stillOpen writable).trans ?_
    rw [found, Option.bind_some] at before
    change (lsm.entries.get? bytes).bind (fun stored =>
      (protection.unlock aead stored).toOption) = _
    rw [found, Option.bind_some]
    cases opens : lsm.protection.unlock aead old with
    | error fault =>
      rw [opens] at before
      cases before
    | ok held =>
      rw [opens] at before
      cases before
      rw [kept old plain opens]
      rfl

theorem Sqlite.admits {codec : KeyCodec κ} {table : SqlTable} {handle : Sqlite}
    (opened : handle.closed = false) {key : κ} {bytes : Bytes}
    (writable : codec.bytes? key = some bytes) (payload : Bytes) :
    (Sqlite.storage codec).Admits Prod.fst (table.find? (.blob bytes)).isSome key payload
      (table, handle) := by
  have cell : Sqlite.cell? codec key = some (.blob bytes) := by
    rw [Sqlite.cell?, writable]
    rfl
  have loads : ∀ after : SqlTable, ∀ later : Sqlite, later.closed = false →
      Sqlite.load codec key (after, later) =
        (after.find? (.blob bytes)).bind fun row => row.2.bytes? := by
    intro after later stillOpen
    rw [Sqlite.load, stillOpen, cell]
    rfl
  have answered : Sqlite.storeIfAbsent codec key payload (table, handle) =
      if (table.find? (.blob bytes)).isSome then (false, table, handle.forget)
      else (true, table.upsert (.blob bytes) (.blob payload), handle.forget) := by
    rw [Sqlite.storeIfAbsent, opened, cell]
    rfl
  cases found : table.find? (.blob bytes) with
  | none =>
    rw [found] at answered
    refine .of_absent ?_ ?_
    · refine (loads table handle opened).trans ?_
      rw [found]
      rfl
    · change Sqlite.load codec key (Sqlite.storeIfAbsent codec key payload (table, handle)).2 = _
      rw [answered]
      refine (loads _ handle.forget opened).trans ?_
      rw [table.find?_upsert (fun same => SqlValue.noConfusion same)]
      rfl
  | some row =>
    rw [found] at answered
    refine .of_held (congrArg (fun answered => answered.2.1) answered) ?_
    intro held loaded
    change Sqlite.load codec key (Sqlite.storeIfAbsent codec key payload (table, handle)).2 = _
    rw [answered]
    exact (loads table handle.forget opened).trans ((loads table handle opened).symm.trans loaded)

/-- Nobody else writes to the server between the calls. -/
theorem Redis.admits {link : RedisLink σ} (quiet : link.Quiescent) {codec : KeyCodec κ}
    {state : Redis.State σ} (opened : state.1.closed = false) (steady : quiet.steady state.2)
    (accepted : quiet.accepts state.1.options.expireMillis) {key : κ} {serverKey : Bytes}
    (writable : Redis.serverKey? codec state.1.options key = some serverKey) (payload : Bytes) :
    (Redis.storage link codec).Admits (fun state => quiet.keyspace state.2)
      ((quiet.keyspace state.2).get? serverKey).isSome key payload state := by
  rcases Redis.load_of_writable opened steady writable with ⟨looked, loaded, lookStays, lookSame⟩
  have lookedOpen : looked.1.closed = false := lookStays.closed.trans opened
  have lookedWritable : Redis.serverKey? codec looked.1.options key = some serverKey := by
    rw [lookStays.options]
    exact writable
  have lookedAccepted : quiet.accepts looked.1.options.expireMillis := by
    rw [lookStays.options]
    exact accepted
  rcases Redis.storeIfAbsent_of_writable lookedOpen lookStays.steady lookedAccepted lookedWritable
    payload with ⟨offered, answered, stays, keyspace⟩
  have offeredWritable : Redis.serverKey? codec offered.1.options key = some serverKey := by
    rw [stays.options]
    exact lookedWritable
  rcases Redis.load_of_writable (stays.closed.trans lookedOpen) stays.steady offeredWritable with
    ⟨last, reloaded, _, _⟩
  rw [lookSame] at keyspace
  have reads : ((Redis.storage link codec).load key
      ((Redis.storage link codec).storeIfAbsent key payload
        ((Redis.storage link codec).load key state).2).2).1 =
          (quiet.keyspace offered.2).get? serverKey := by
    change (Redis.load link codec key (Redis.storeIfAbsent link codec key payload
      (Redis.load link codec key state).2).2).1 = _
    rw [loaded, answered, reloaded]
  have holds : (quiet.keyspace ((Redis.storage link codec).storeIfAbsent key payload
      ((Redis.storage link codec).load key state).2).2.2) = quiet.keyspace offered.2 := by
    change quiet.keyspace (Redis.storeIfAbsent link codec key payload
      (Redis.load link codec key state).2).2.2 = _
    rw [loaded, answered]
  have first : ((Redis.storage link codec).load key state).1 =
      (quiet.keyspace state.2).get? serverKey := congrArg Prod.fst loaded
  cases found : (quiet.keyspace state.2).get? serverKey with
  | none =>
    rw [found] at keyspace first
    refine .of_absent first ?_
    rw [reads, keyspace]
    exact (Tree.get?_insert _ _ _ _).trans (if_pos rfl)
  | some value =>
    rw [found] at keyspace
    refine .of_held ?_ ?_
    · rw [holds]
      exact keyspace
    · intro held present
      rw [reads, ← present, first]
      exact congrArg (Tree.get? · serverKey) keyspace

/-! ## Reading again under a larger registry -/

/-- A dynamic value read again under a registry, which may know what its raw data are. -/
def DynValue.recognizedBy (registry : Registry) : DynValue → DynValue
  | .raw data (some name) => registry.decode name data
  | value => value

theorem Registry.decode_register (registry : Registry) (added : Schema) (name : String)
    (data : Wire) :
    (registry.register added).decode name data =
      (registry.decode name data).recognizedBy (registry.register added) := by
  rcases registry.decode_cases name data with raw | ⟨schema, datum, found, read, typed⟩
  · rw [raw]
    rfl
  · rw [typed, decode, registry.register_extends added name schema found]
    dsimp only
    rw [read]
    rfl

theorem decodeDyn_register (bytes : Bytes) (registry : Registry) (added : Schema) :
    decodeDyn bytes (registry.register added) =
      (decodeDyn bytes registry).map (DynValue.recognizedBy (registry.register added)) := by
  rw [decodeDyn, decodeDyn]
  cases Envelope.open? bytes with
  | error fault => rfl
  | ok opened =>
    rcases opened with ⟨data, name | name⟩
    · rfl
    · exact congrArg Except.ok (registry.decode_register added name data)

/-- Readers of static schemas never look at the registry. -/
theorem load_static {schema : Schema} (static : schema ≠ .dyn) (inner : Storage σ κ Bytes)
    (key : κ) (first second : Registry) (state : σ) :
    ((denying schema.valueCodec inner).load key (first, state)).1 =
      ((denying schema.valueCodec inner).load key (second, state)).1 := by
  have same : ∀ bytes, schema.valueCodec.decode bytes first =
      schema.valueCodec.decode bytes second := by
    intro bytes
    exact (decodeValue_eq_interpret static bytes first).trans
      (decodeValue_eq_interpret static bytes second).symm
  change ((inner.load key state).1.bind fun bytes =>
    (schema.valueCodec.decode bytes first).toOption) = _
  simp only [same]
  rfl

/-- Readers of dynamic values find what they found before, recognized if need be. -/
theorem load_recognized (inner : Storage σ κ Bytes) (key : κ) (registry : Registry)
    (added : Schema) (state : σ) :
    ((denying dynCodec inner).load key (registry.register added, state)).1 =
      ((denying dynCodec inner).load key (registry, state)).1.map
        (DynValue.recognizedBy (registry.register added)) := by
  change ((inner.load key state).1.bind fun bytes =>
    (decodeDyn bytes (registry.register added)).toOption) =
      ((inner.load key state).1.bind fun bytes => (decodeDyn bytes registry).toOption).map _
  cases (inner.load key state).1 with
  | none => rfl
  | some bytes =>
    rw [Option.bind_some, Option.bind_some, decodeDyn_register]
    cases decodeDyn bytes registry <;> rfl

/-! ## Maps -/

/-- Where overwriting is denied, the first entry of a key stays, whether or not it can be
read.  Whatever an open engine holds, and whatever value can be written and read back: under
a key for which the engine holds nothing, nothing is found before and the value after; and
under one for which it holds an entry, no entry changes, and what was found is found again.
Readers of static schemas find the very same value.  Readers of dynamic values may recognize
it, since the registry has come to know the schema of the refused value. -/
theorem denying_map_keeps_first [DecidableEq κ] {values : ValueCodec ν} {value : ν}
    {registry : Registry} {payload : Bytes}
    (encoded : (values.encode value registry).1 = .ok payload)
    (back : values.decode payload (values.encode value registry).2 = .ok value)
    {keys : KeyCodec κ} {key : κ} {bytes : Bytes} (writable : keys.bytes? key = some bytes) :
    (∀ memory : Memory κ Bytes, memory.closed = false →
      KeepsFirst values Memory.storage Memory.listing (memory.listing.get? key).isSome key value
        (registry, memory)) ∧
    (∀ {aead : Aead} (lsm : Lsm), aead.Sound → lsm.closed = false →
      lsm.protection.Consistent aead → Lsm.hasRoom (lsm.storeIfAbsent aead keys key payload).2 →
      KeepsFirst values (Lsm.storage aead keys) Lsm.entries (lsm.entries.get? bytes).isSome key
        value (registry, lsm)) ∧
    (∀ (table : SqlTable) (handle : Sqlite), handle.closed = false →
      KeepsFirst values (Sqlite.storage keys) Prod.fst (table.find? (.blob bytes)).isSome key value
        (registry, table, handle)) ∧
    (∀ {σ : Type} {link : RedisLink σ} (quiet : link.Quiescent) (state : Redis.State σ),
      state.1.closed = false → quiet.steady state.2 →
      quiet.accepts state.1.options.expireMillis →
      KeepsFirst values (Redis.storage link keys) (fun state => quiet.keyspace state.2)
        ((quiet.keyspace state.2).get? (Bytes.utf8 state.1.options.keyPrefix ++ bytes)).isSome key
        value (registry, state)) ∧
    (∀ {σ : Type} (inner : Storage σ κ Bytes) {schema : Schema} (state : σ) (later : Registry),
      schema ≠ .dyn → ((denying schema.valueCodec inner).load key (later, state)).1 =
        ((denying schema.valueCodec inner).load key (registry, state)).1) ∧
    ∀ {σ : Type} (inner : Storage σ κ Bytes) (state : σ) (added : Schema),
      ((denying dynCodec inner).load key (registry.register added, state)).1 =
        ((denying dynCodec inner).load key (registry, state)).1.map
          (DynValue.recognizedBy (registry.register added)) := by
  refine ⟨?_, ?_, ?_, ?_, ?_, ?_⟩
  · intro memory opened
    exact (Memory.admits opened key payload).keepsFirst encoded back
  · intro aead lsm sound opened consistent room
    exact (Lsm.admits sound opened consistent writable room).keepsFirst encoded back
  · intro table handle opened
    exact (Sqlite.admits opened writable payload).keepsFirst encoded back
  · intro σ link quiet state opened steady accepted
    have serverKey : Redis.serverKey? keys state.1.options key =
        some (Bytes.utf8 state.1.options.keyPrefix ++ bytes) := by
      rw [Redis.serverKey?, writable]
      rfl
    exact (Redis.admits quiet opened steady accepted serverKey payload).keepsFirst encoded back
  · intro σ inner schema state later static
    exact load_static static inner key later registry state
  · exact fun inner state added => load_recognized inner key registry added state

/-- A truth value is offered to every engine.  The first one holds bytes under its key that
nobody can read, and keeps them; the others hold nothing. -/
theorem truth_offered_on_every_engine :
    KeepsFirst Schema.bool.valueCodec Memory.storage Memory.listing true (.text "a") (.bool true)
        (.empty, ⟨Listing.empty.insert (Datum.text "a") [0xc1], false⟩) ∧
      (∃ lsm, Lsm.open? .marking { encryptionKey := some (List.replicate 16 7) } {}
          ⟨.constant 0, .constant ⟨List.replicate 12 0, rfl⟩,
            .constant ⟨List.replicate 32 0, rfl⟩⟩ = .ok lsm ∧
        KeepsFirst Schema.bool.valueCodec (Lsm.storage .marking Schema.text.keyCodec) Lsm.entries
          false (.text "a") (.bool true) (.empty, lsm)) ∧
      KeepsFirst Schema.bool.valueCodec (Sqlite.storage Schema.text.keyCodec) Prod.fst false
        (.text "a") (.bool true)
        (.empty, SqlTable.empty, ⟨.ofSeconds 5, none, .constant 0, false⟩) ∧
      KeepsFirst Schema.bool.valueCodec (Redis.storage RedisLink.onePage Schema.text.keyCodec)
        (fun state => RedisLink.onePageQuiescent.keyspace state.2) false (.text "a") (.bool true)
        (.empty, Redis.connected {}, Tree.empty) := by
  have encoded : (Schema.bool.valueCodec.encode (.bool true) .empty).1 =
      .ok (Envelope.wrap (.bool true) (some "bool")).write := by decide +kernel
  have back : Schema.bool.valueCodec.decode (Envelope.wrap (.bool true) (some "bool")).write
      (Schema.bool.valueCodec.encode (.bool true) .empty).2 = .ok (.bool true) := by
    decide +kernel
  have writable : Schema.text.keyCodec.bytes? (.text "a") = some [161, 97] := by decide +kernel
  have opened : ∃ lsm, Lsm.open? .marking { encryptionKey := some (List.replicate 16 7) } {}
      ⟨.constant 0, .constant ⟨List.replicate 12 0, rfl⟩,
        .constant ⟨List.replicate 32 0, rfl⟩⟩ = .ok lsm ∧ lsm.entries.get? [161, 97] = none ∧
      Lsm.hasRoom (lsm.storeIfAbsent .marking Schema.text.keyCodec (.text "a")
        (Envelope.wrap (.bool true) (some "bool")).write).2 := by
    refine ⟨_, rfl, by decide +kernel, ?_⟩
    unfold Lsm.hasRoom
    decide +kernel
  rcases denying_map_keeps_first encoded back writable with
    ⟨inMemory, logged, tabled, remote, _, _⟩
  refine ⟨?_, ?_, ?_, ?_⟩
  · have kept := inMemory ⟨Listing.empty.insert (Datum.text "a") [0xc1], false⟩ rfl
    have held : ((Listing.empty.insert (Datum.text "a") [(0xc1 : UInt8)]).get?
        (.text "a")).isSome = true := by decide +kernel
    rw [held] at kept
    exact kept
  · rcases opened with ⟨lsm, opens, absent, room⟩
    have represents : Lsm.Represents .marking Schema.text.keyCodec lsm (some .empty) :=
      Lsm.represents_of_open Aead.marking_sound opens
    cases represents with
    | opened isOpen consistent _ _ =>
      have kept := logged lsm Aead.marking_sound isOpen consistent room
      rw [absent] at kept
      exact ⟨lsm, opens, kept⟩
  · exact tabled .empty ⟨.ofSeconds 5, none, .constant 0, false⟩ rfl
  · exact remote RedisLink.onePageQuiescent (Redis.connected {}, Tree.empty) rfl trivial trivial

/-- An engine that holds a text. -/
def holdingText : Memory Datum Bytes :=
  ⟨Listing.empty.insert (.text "a") (Envelope.wrap (.str "x") (some Schema.text.tag)).write, false⟩

/-- A map of truth values finds nothing under the key of a text, and a value that can be
written and read back cannot be written there.  A map of dynamic values finds the text raw,
and typed once another text was refused. -/
theorem refused_values_show :
    (Schema.bool.valueCodec.encode (.bool true) .empty).1 =
        .ok (Envelope.wrap (.bool true) (some "bool")).write ∧
      Schema.bool.valueCodec.decode (Envelope.wrap (.bool true) (some "bool")).write
        (Schema.bool.valueCodec.encode (.bool true) .empty).2 = .ok (.bool true) ∧
      ((denying Schema.bool.valueCodec Memory.storage).load (.text "a")
        (.empty, holdingText)).1 = none ∧
      ((denying Schema.bool.valueCodec Memory.storage).load (.text "a")
        (offer Schema.bool.valueCodec Memory.storage (.text "a") (.bool true)
          (.empty, holdingText))).1 = none ∧
      ((denying dynCodec Memory.storage).load (.text "a") (.empty, holdingText)).1 =
        some (.raw (.str "x") (some Schema.text.tag)) ∧
      ((denying dynCodec Memory.storage).load (.text "a")
        (offer dynCodec Memory.storage (.text "a") (.typed .text (.text "y"))
          (.empty, holdingText))).1 = some (.typed .text (.text "x")) := by
  decide +kernel

end TypedStore
