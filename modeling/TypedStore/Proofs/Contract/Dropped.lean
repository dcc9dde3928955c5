import TypedStore.Proofs.Contract.Gate
import TypedStore.Proofs.Contract.Reached
import TypedStore.Proofs.Contract.Removal
import TypedStore.Proofs.Migration.Verification

/-!
# Writes that are dropped

A value that cannot be encoded is dropped by the typed layer, before its engine hears of it.  A
key that cannot be written is dropped by the engine, before anything is sealed, counted or sent.
Either way the engine is left as it was, to the last row and counter, in whatever state it is.

What may have changed is the registry of the layer, which has come to know the schema of the
value.  Codecs of static schemas never look there, so no later call tells that there was a write:
this is an induction on the calls (`performAll_ignoring`).  Readers of dynamic values do look
there.  They still find every old value, and may recognize data that were raw before.
-/

namespace TypedStore

variable {σ κ ν : Type}

/-- Whether a codec goes by values and payloads alone, whatever the registry knows. -/
structure ValueCodec.IgnoresRegistry (values : ValueCodec ν) : Prop where
  encode : ∀ value first second, (values.encode value first).1 = (values.encode value second).1
  decode : ∀ payload first second, values.decode payload first = values.decode payload second

theorem Schema.valueCodec_ignoresRegistry {schema : Schema} (static : schema ≠ .dyn) :
    schema.valueCodec.IgnoresRegistry where
  encode value first second := by
    change (encodeValue schema value first).1 = (encodeValue schema value second).1
    cases schema with
    | dyn => exact absurd rfl static
    | _ => rfl
  decode payload first second :=
    (decodeValue_eq_interpret static payload first).trans
      (decodeValue_eq_interpret static payload second).symm

namespace Adapter

variable {values : ValueCodec ν} {inner : Storage σ κ Bytes}

/-- The engine hears of a value that could be encoded, and the registry is extended anyway. -/
theorem store_eq (key : κ) (value : ν) (registry : Registry) (state : σ) :
    (storage values inner).store key value (registry, state) =
      ((values.encode value registry).2,
        match (values.encode value registry).1 with
        | .ok payload => inner.store key payload state
        | .error _ => state) := by
  simp only [storage]
  rcases values.encode value registry with ⟨fault | payload, later⟩ <;> rfl

theorem storeIfAbsent_eq (key : κ) (value : ν) (registry : Registry) (state : σ) :
    (storage values inner).storeIfAbsent key value (registry, state) =
      match (values.encode value registry).1 with
      | .ok payload => ((inner.storeIfAbsent key payload state).1,
        (values.encode value registry).2, (inner.storeIfAbsent key payload state).2)
      | .error _ => (false, (values.encode value registry).2, state) := by
  simp only [storage]
  rcases values.encode value registry with ⟨fault | payload, later⟩ <;> rfl

section Ignoring

variable (ignores : values.IgnoresRegistry)
include ignores

theorem nextReadable_ignoring (first second : Registry) (fuel : Nat) (state : σ) :
    nextReadable values inner first fuel state = nextReadable values inner second fuel state := by
  induction fuel generalizing state with
  | zero => rfl
  | succ fuel hypothesis =>
    rw [nextReadable, nextReadable]
    rcases inner.next state with ⟨_ | ⟨key, payload⟩, after⟩
    · rfl
    · dsimp only
      rw [ignores.decode payload first second, hypothesis]

theorem readableOnly_ignoring {α : Type} (first second : Registry) (visit : Visitor κ ν α) :
    readableOnly values first visit = readableOnly values second visit := by
  funext key payload gathered
  rw [readableOnly, readableOnly, ignores.decode payload first second]

/-- A call answers alike under two registries, and leaves the engine alike. -/
theorem perform_ignoring (call : StorageCall κ ν) (first second : Registry) (state : σ) :
    ((storage values inner).perform call (first, state)).1 =
        ((storage values inner).perform call (second, state)).1 ∧
      ((storage values inner).perform call (first, state)).2.2 =
        ((storage values inner).perform call (second, state)).2.2 := by
  cases call with
  | load key =>
    refine ⟨?_, rfl⟩
    change ((inner.load key state).1.bind fun payload =>
      (values.decode payload first).toOption) = _
    simp only [ignores.decode _ first second]
    rfl
  | store key value =>
    refine ⟨rfl, ?_⟩
    rw [Storage.perform, Storage.perform, store_eq, store_eq, ignores.encode value first second]
  | storeIfAbsent key value =>
    rw [Storage.perform, Storage.perform, storeIfAbsent_eq, storeIfAbsent_eq,
      ignores.encode value first second]
    cases (values.encode value second).1 <;> exact ⟨rfl, rfl⟩
  | range visit start =>
    have same := readableOnly_ignoring ignores first second visit
    refine ⟨congrArg (fun visit => (inner.range visit start state).1) same, ?_⟩
    exact congrArg (fun visit => (inner.range visit start state).2) same
  | next =>
    have same : nextReadable values inner first (inner.size state + 1) state =
        nextReadable values inner second (inner.size state + 1) state :=
      nextReadable_ignoring ignores first second _ state
    exact ⟨congrArg (fun taken => taken.1) same, congrArg (fun taken => taken.2) same⟩
  | _ => exact ⟨rfl, rfl⟩

/-- So calls made one after another never tell two registries apart. -/
theorem performAll_ignoring (calls : List (StorageCall κ ν)) (first second : Registry)
    (state : σ) : ((storage values inner).performAll calls (first, state)).1 =
      ((storage values inner).performAll calls (second, state)).1 := by
  induction calls generalizing first second state with
  | nil => rfl
  | cons call rest hypothesis =>
    rcases perform_ignoring ignores call first second state with ⟨answer, later⟩
    rw [Storage.performAll, Storage.performAll]
    dsimp only
    rw [answer]
    exact congrArg (List.cons _) ((hypothesis _ _ _).trans (by rw [later]))

end Ignoring

/-- What becomes of a write that is dropped: the engine keeps its state, nothing is said to be
inserted, and the number of entries is as before.  Where values are read by their schema alone,
every later call answers as it would have done. -/
structure Drops (values : ValueCodec ν) (inner : Storage σ κ Bytes) (key : κ) (value : ν)
    (registry : Registry) (state : σ) : Prop where
  store : (storage values inner).store key value (registry, state) =
    ((values.encode value registry).2, state)
  storeIfAbsent : (storage values inner).storeIfAbsent key value (registry, state) =
    (false, (values.encode value registry).2, state)
  len : ((storage values inner).len
      ((storage values inner).store key value (registry, state))).1 =
    ((storage values inner).len (registry, state)).1
  unnoticed : values.IgnoresRegistry → ∀ calls,
    ((storage values inner).performAll calls
        ((storage values inner).store key value (registry, state))).1 =
      ((storage values inner).performAll calls (registry, state)).1

theorem Drops.of_store {key : κ} {value : ν} {registry : Registry} {state : σ}
    (stored : (storage values inner).store key value (registry, state) =
      ((values.encode value registry).2, state))
    (refused : (storage values inner).storeIfAbsent key value (registry, state) =
      (false, (values.encode value registry).2, state)) :
    Drops values inner key value registry state where
  store := stored
  storeIfAbsent := refused
  len := by
    rw [stored]
    rfl
  unnoticed ignores calls := by
    rw [stored]
    exact performAll_ignoring ignores calls _ _ state

/-- A value that cannot be encoded is dropped before the engine hears of it. -/
theorem drops_of_fault {value : ν} {registry : Registry} {fault : CodecError}
    (unencodable : (values.encode value registry).1 = .error fault) (key : κ) (state : σ) :
    Drops values inner key value registry state := by
  refine .of_store ?_ ?_
  · rw [store_eq, unencodable]
  · rw [storeIfAbsent_eq, unencodable]

end Adapter

/-! ## Keys that cannot be written -/

/-- Whether an engine takes no notice of a key, whatever is stored under it. -/
structure Storage.Ignores (inner : Storage σ κ Bytes) (key : κ) (state : σ) : Prop where
  load : inner.load key state = (none, state)
  store : ∀ payload, inner.store key payload state = state
  storeIfAbsent : ∀ payload, inner.storeIfAbsent key payload state = (false, state)

namespace Storage.Ignores

variable {inner : Storage σ κ Bytes} {key : κ} {state : σ}

theorem drops (ignores : inner.Ignores key state) (values : ValueCodec ν) (value : ν)
    (registry : Registry) : Adapter.Drops values inner key value registry state := by
  refine .of_store ?_ ?_
  · rw [Adapter.store_eq]
    cases (values.encode value registry).1 with
    | error fault => rfl
    | ok payload => exact congrArg (Prod.mk _) (ignores.store payload)
  · rw [Adapter.storeIfAbsent_eq]
    cases (values.encode value registry).1 with
    | error fault => rfl
    | ok payload =>
      dsimp only
      rw [ignores.storeIfAbsent]

theorem load_typed (ignores : inner.Ignores key state) (values : ValueCodec ν)
    (registry : Registry) :
    (Adapter.storage values inner).load key (registry, state) = (none, registry, state) := by
  change ((inner.load key state).1.bind fun payload => (values.decode payload registry).toOption,
    registry, (inner.load key state).2) = _
  rw [ignores.load]
  rfl

end Storage.Ignores

section Unwritable

variable {keys : KeyCodec κ} {key : κ} (unwritable : keys.bytes? key = none)
include unwritable

theorem Lsm.ignores (aead : Aead) (lsm : Lsm) : (Lsm.storage aead keys).Ignores key lsm where
  load := by
    change (lsm.load aead keys key, lsm) = _
    rw [Lsm.load, unwritable]
    exact congrArg (Prod.mk · lsm) (ite_self none)
  store payload := by
    change lsm.store aead keys key payload = lsm
    rw [Lsm.store, unwritable]
    exact ite_self lsm
  storeIfAbsent payload := by
    change lsm.storeIfAbsent aead keys key payload = _
    rw [Lsm.storeIfAbsent, unwritable]
    exact ite_self (false, lsm)

theorem Sqlite.ignores (state : Sqlite.State) : (Sqlite.storage keys).Ignores key state where
  load := by
    change (Sqlite.load keys key state, state) = _
    rcases state with ⟨table, handle⟩
    rw [Sqlite.load, Sqlite.cell?, unwritable]
    exact congrArg (Prod.mk · (table, handle)) (ite_self none)
  store payload := Sqlite.store_of_unwritable unwritable payload
  storeIfAbsent payload := by
    change Sqlite.storeIfAbsent keys key payload state = _
    rcases state with ⟨table, handle⟩
    rw [Sqlite.storeIfAbsent, Sqlite.cell?, unwritable]
    exact ite_self (false, table, handle)

theorem Redis.ignores (link : RedisLink σ) (state : Redis.State σ) :
    (Redis.storage link keys).Ignores key state where
  load := by
    change Redis.load link keys key state = _
    rw [Redis.load, Redis.serverKey?, unwritable]
    exact ite_self (none, state)
  store payload := Redis.store_of_unwritable unwritable payload
  storeIfAbsent payload := by
    change Redis.storeIfAbsent link keys key payload state = _
    rw [Redis.storeIfAbsent, Redis.serverKey?, unwritable]
    exact ite_self (false, state)

end Unwritable

/-! ## Dynamic values -/

theorem DynValue.recognizedBy_decode (registry : Registry) (name : String) (data : Wire) :
    (registry.decode name data).recognizedBy registry = registry.decode name data := by
  rcases registry.decode_cases name data with raw | ⟨schema, datum, _, _, typed⟩
  · rw [raw]
    exact raw
  · rw [typed]
    rfl

/-- Encoding a dynamic value adds its schema at most, and readers find every old value. -/
theorem load_registerIn (inner : Storage σ κ Bytes) (key : κ) (dropped : DynValue)
    (registry : Registry) (state : σ) :
    ((Adapter.storage dynCodec inner).load key (dropped.registerIn registry, state)).1 =
      ((Adapter.storage dynCodec inner).load key (registry, state)).1.map
        (DynValue.recognizedBy (dropped.registerIn registry)) := by
  cases dropped with
  | typed schema datum => exact load_recognized inner key registry schema state
  | raw data name =>
    have itself : ∀ payload, (decodeDyn payload registry).toOption =
        (decodeDyn payload registry).toOption.map (DynValue.recognizedBy registry) := by
      intro payload
      rw [decodeDyn]
      rcases Envelope.open? payload with fault | ⟨data, name | name⟩
      · rfl
      · rfl
      · exact congrArg some (DynValue.recognizedBy_decode registry name data).symm
    change ((inner.load key state).1.bind fun payload => (decodeDyn payload registry).toOption) =
      ((inner.load key state).1.bind fun payload => (decodeDyn payload registry).toOption).map _
    cases (inner.load key state).1 with
    | none => rfl
    | some payload => exact itself payload

/-! ## Failed encodings -/

/-- Failed encodings change nothing.  A value that cannot be encoded is dropped under every key,
over every engine and in every state.  On the engines that write keys as bytes, whatever their
state, a key that cannot be written is not found, and everything is dropped that is stored under
it.  Static schemas never look at the registry, and readers of dynamic values find what they found
before, recognized if need be.

A list of keys removes exactly the entries of those that can be written, in whatever order and
however often they are listed.  The count of the log-structured engine goes down by the number
of entries that went.  The server must answer; but nothing is sent for a key that cannot be
written, even if it does not. -/
theorem failed_encodings_change_nothing (values : ValueCodec ν) (keys : KeyCodec κ) :
    (∀ (value : ν) (registry : Registry) (fault : CodecError),
      (values.encode value registry).1 = .error fault →
      ∀ {σ : Type} (inner : Storage σ κ Bytes) (key : κ) (state : σ),
        Adapter.Drops values inner key value registry state) ∧
    (∀ key : κ, keys.bytes? key = none → ∀ (value : ν) (registry : Registry),
      (∀ (aead : Aead) (lsm : Lsm),
        Adapter.Drops values (Lsm.storage aead keys) key value registry lsm ∧
        (Adapter.storage values (Lsm.storage aead keys)).load key (registry, lsm) =
          (none, registry, lsm)) ∧
      (∀ state : Sqlite.State,
        Adapter.Drops values (Sqlite.storage keys) key value registry state ∧
        (Adapter.storage values (Sqlite.storage keys)).load key (registry, state) =
          (none, registry, state)) ∧
      ∀ {σ : Type} (link : RedisLink σ) (state : Redis.State σ),
        Adapter.Drops values (Redis.storage link keys) key value registry state ∧
        (Adapter.storage values (Redis.storage link keys)).load key (registry, state) =
          (none, registry, state)) ∧
    (∀ schema : Schema, schema ≠ .dyn → schema.valueCodec.IgnoresRegistry) ∧
    (∀ {σ : Type} (inner : Storage σ κ Bytes) (key : κ) (dropped : DynValue) (registry : Registry)
        (state : σ),
      ((Adapter.storage dynCodec inner).load key (dropped.registerIn registry, state)).1 =
        ((Adapter.storage dynCodec inner).load key (registry, state)).1.map
          (DynValue.recognizedBy (dropped.registerIn registry))) ∧
    ∀ removed : List κ,
      (∀ (aead : Aead) (lsm : Lsm), lsm.closed = false →
        (Lsm.storage aead keys).Removes (fun lsm => lsm.entries.entries) keys.bytes? removed lsm ∧
        lsm.count - (lsm.delete keys removed).count =
          lsm.entries.size - (lsm.delete keys removed).entries.size) ∧
      (∀ (table : SqlTable) (handle : Sqlite), handle.closed = false →
        (Sqlite.storage keys).Removes (fun state => state.1.rows) (Sqlite.cell? keys) removed
          (table, handle)) ∧
      (∀ {σ : Type} {link : RedisLink σ} (quiet : link.Quiescent) (state : Redis.State σ),
        state.1.closed = false → quiet.steady state.2 →
        (Redis.storage link keys).Removes (fun state => (quiet.keyspace state.2).entries)
          (Redis.serverKey? keys state.1.options) removed state) ∧
      ∀ {σ : Type} (link : RedisLink σ) (state : Redis.State σ),
        Redis.delete link keys removed state =
          Redis.delete link keys (removed.filter fun key => (keys.bytes? key).isSome) state := by
  refine ⟨?_, ?_, ?_, ?_, fun removed => ⟨?_, ?_, ?_, ?_⟩⟩
  · exact fun value registry fault unencodable _ inner key state =>
      Adapter.drops_of_fault unencodable key state
  · intro key unwritable value registry
    refine ⟨fun aead lsm => ?_, fun state => ?_, fun link state => ?_⟩
    · have ignored := Lsm.ignores unwritable aead lsm
      exact ⟨ignored.drops values value registry, ignored.load_typed values registry⟩
    · have ignored := Sqlite.ignores unwritable state
      exact ⟨ignored.drops values value registry, ignored.load_typed values registry⟩
    · have ignored := Redis.ignores unwritable link state
      exact ⟨ignored.drops values value registry, ignored.load_typed values registry⟩
  · exact fun schema static => schema.valueCodec_ignoresRegistry static
  · exact fun inner key dropped registry state => load_registerIn inner key dropped registry state
  · intro aead lsm opened
    refine ⟨Lsm.removes opened removed, ?_⟩
    rw [lsm.delete_eq opened]
    exact Int.sub_sub_self _ _
  · exact fun table handle opened => Sqlite.removes opened removed
  · exact fun quiet state opened steady => Redis.removes opened steady removed
  · exact fun link state => Redis.delete_eq_delete_writable removed state

/-- Keys that cannot be written when they are negative. -/
def codeKeys : KeyCodec Datum := (Schema.guarded "Code").keyCodec

/-- A key of the guarded schema. -/
def code (value : WireInt) : Datum := .guarded value

/-- A handle with two entries. -/
def twoCodes : Lsm :=
  ⟨(Tree.empty.insert [5] Migration.oldPayload).insert [7] Migration.oldPayload, .plain .empty,
    false, 2, false⟩

/-- A value without a wire form is offered under a key that is present, and then under one that
cannot be written.  The old text is still read.  Of four keys, one is negative, one absent and one
listed twice, and one entry goes. -/
theorem negative_codes_change_nothing :
    (dynCodec.encode Migration.unwritable .empty).1 =
        .error (.serialization (WriteFault.converting WriteFault.refused.text)) ∧
      codeKeys.bytes? (code ⟨-3, by decide, by decide⟩) = none ∧
      Adapter.Drops dynCodec (Lsm.storage .marking codeKeys) (code ⟨5, by decide, by decide⟩)
        Migration.unwritable .empty twoCodes ∧
      Adapter.Drops dynCodec (Lsm.storage .marking codeKeys) (code ⟨-3, by decide, by decide⟩)
        (.raw .nil none) .empty twoCodes ∧
      ((Adapter.storage dynCodec (Lsm.storage .marking codeKeys)).load
        (code ⟨5, by decide, by decide⟩) (Migration.unwritable.registerIn .empty, twoCodes)).1 =
          some (.raw (.str "old") (some Schema.text.tag)) ∧
      (twoCodes.delete codeKeys [code ⟨5, by decide, by decide⟩, code ⟨-3, by decide, by decide⟩,
        code ⟨5, by decide, by decide⟩, code ⟨9, by decide, by decide⟩]).entries.entries =
          [([7], Migration.oldPayload)] := by
  have fault : (dynCodec.encode Migration.unwritable .empty).1 =
      .error (.serialization (WriteFault.converting WriteFault.refused.text)) := by decide +kernel
  have unwritable : codeKeys.bytes? (code ⟨-3, by decide, by decide⟩) = none := by decide +kernel
  rcases failed_encodings_change_nothing dynCodec codeKeys with
    ⟨values, keys, _, dynamic, removal⟩
  refine ⟨fault, unwritable, values _ _ _ fault _ _ _, ((keys _ unwritable _ _).1 _ _).1, ?_, ?_⟩
  · rw [dynamic]
    decide +kernel
  · refine ((removal _).1 .marking twoCodes rfl).1.rows.trans ?_
    decide +kernel

end TypedStore
