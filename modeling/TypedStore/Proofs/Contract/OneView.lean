import TypedStore.Proofs.Contract.Reached
import TypedStore.Proofs.Contract.Values

/-!
# One view for all readers

A map can be read in several ways, and each goes through code of its own: a key is looked up
by its bytes, a walk goes through everything and reads keys and payloads, and keys and their
number are listed without a look at the payloads.  Still they show one view.  An entry that
cannot be read is found neither by looking it up nor by walking, and it does not end the
walk; it is listed among the keys, and counted.

This holds of every state that an engine reaches through its own handle, whatever bytes were
given to it as payloads.  Which payloads can be read is up to the codec of the map, and any
codec will do.
-/

namespace TypedStore

variable {σ κ ν : Type} [DecidableEq κ]

/-- What readers of a map see of a state whose engine holds some payloads. -/
structure Adapter.ShowsOneView (values : ValueCodec ν) (inner : Storage σ κ Bytes)
    (known : κ → Prop) (registry : Registry) (state : σ) (contents : Listing κ Bytes) : Prop where
  /-- A visitor is called with the entries that can be read, in the order of the engine, up to
  and with the first one that it answers with false. -/
  called : ∀ {α : Type} (visit : Visitor κ ν α) (start : α),
    ((Adapter.storage values inner).range visit.recorded (start, []) (registry, state)).1 =
      (((Adapter.storage values inner).range visit start (registry, state)).1,
        visit.called (readable values inner registry state) start)
  /-- A visitor that never stops is called with every entry that can be loaded, once. -/
  visited : ∀ {α : Type} (visit : Visitor κ ν α) (start : α),
    (∀ key value gathered, (visit key value gathered).2 = true) →
    (((Adapter.storage values inner).range visit.recorded (start, [])
      (registry, state)).1.2.map Prod.fst).Nodup ∧
    ∀ key value, (key, value) ∈ ((Adapter.storage values inner).range visit.recorded (start, [])
        (registry, state)).1.2 ↔
      known key ∧ ((Adapter.storage values inner).load key (registry, state)).1 = some value
  /-- Every key is listed once, whether or not its payload can be read. -/
  keys : ((Adapter.storage values inner).keys (registry, state)).1.Perm contents.keys
  len : ((Adapter.storage values inner).len (registry, state)).1 =
    ((Adapter.storage values inner).keys (registry, state)).1.length

/-- Whether readers of a map see one view of the payloads that its engine holds. -/
def Adapter.HoldsOneView (values : ValueCodec ν) (inner : Storage σ κ Bytes) (known : κ → Prop)
    (holds : σ → Listing κ Bytes → Prop) (registry : Registry) (state : σ) : Prop :=
  ∃ contents, holds state contents ∧
    Adapter.ShowsOneView values inner known registry state contents

/-- An engine that exposes its payloads and counts them shows one view. -/
theorem Storage.Exposes.holdsOneView {inner : Storage σ κ Bytes} {known : κ → Prop}
    {reads : σ → Bytes → Option Bytes} {holds : σ → Listing κ Bytes → Prop}
    (inside : inner.Exposes known reads holds) (walks : inner.WalksEntries)
    (values : ValueCodec ν) (registry : Registry) {state : σ} {contents : Listing κ Bytes}
    (held : holds state contents) (counted : (inner.len state).1 = contents.entries.length) :
    Adapter.HoldsOneView values inner known holds registry state := by
  have shows : (Adapter.storage values inner).Exposes known (Adapter.readsThrough values reads)
      fun state => holds state.2 := Adapter.exposes inside walks
  have heldTyped : (fun state : Registry × σ => holds state.2) (registry, state) contents := held
  have order := shows.entries heldTyped
  rw [Adapter.entries_eq walks] at order
  have called : ∀ {α : Type} (visit : Visitor κ ν α) (start : α),
      ((Adapter.storage values inner).range visit.recorded (start, []) (registry, state)).1 =
        (((Adapter.storage values inner).range visit start (registry, state)).1,
          visit.called (Adapter.readable values inner registry state) start) := by
    intro α visit start
    rw [Adapter.range_eq_walk walks, Adapter.range_eq_walk walks]
    exact visit.walk_recorded _ [] start
  refine ⟨contents, held, called, ?_, inside.keys held, ?_⟩
  · intro α visit start goesOn
    rw [called, Visitor.called_of_goesOn goesOn]
    refine ⟨(order.map Prod.fst).nodup_iff.mpr (Listing.distinct _), ?_⟩
    intro key value
    rw [← shows.mem_filterMap_iff heldTyped]
    exact order.mem_iff
  · change (inner.len state).1 = (inner.keys state).1.length
    rw [counted, (inside.keys held).length_eq, Listing.keys, List.length_map]

/-- In every state that an engine reaches from a fresh one by calls through its own handle,
the readers of a map over it see one view, whatever payloads there are and whatever the map
takes them for.  The remote engine is alone behind its prefix, on a server that answers. -/
theorem read_paths_show_one_view (values : ValueCodec ν) (codec : KeyCodec κ)
    (registry : Registry) (calls : List (StorageCall κ Bytes))
    (faithful : ∀ call ∈ calls, call.Within codec.Faithful) :
    (∀ anyCalls : List (StorageCall κ Bytes),
      Adapter.HoldsOneView values Memory.storage (fun _ => True) Memory.Contains registry
        (Memory.storage.performAll anyCalls .empty).2) ∧
    (∀ {aead : Aead} {options : LsmOptions} {compression : Bool} {outside : Surroundings}
      {lsm : Lsm}, Lsm.open? aead options { compression } outside = .ok lsm →
      Adapter.HoldsOneView values (Lsm.storage aead codec) codec.Faithful (Lsm.Contains codec)
        registry ((Lsm.storage aead codec).performAll calls lsm).2) ∧
    (∀ {options : SqliteOptions} {clock : Source Nat} {handle : Sqlite},
      Sqlite.open? options clock = .ok handle →
      Adapter.HoldsOneView values (Sqlite.storage codec) codec.Faithful (Sqlite.Contains codec)
        registry ((Sqlite.storage codec).performAll calls (.empty, handle)).2) ∧
    ∀ {σ : Type} {link : RedisLink σ} (quiet : link.Quiescent) (options : RedisOptions)
      (server : σ), quiet.steady server → quiet.accepts options.expireMillis →
      (∀ serverKey, ((quiet.keyspace server).get? serverKey).isSome = true →
        Redis.ownedKey? codec options serverKey = none) →
      Adapter.HoldsOneView values (Redis.storage link codec) codec.Faithful
        (Redis.Contains quiet codec) registry
        ((Redis.storage link codec).performAll calls (Redis.connected options, server)).2 := by
  refine ⟨?_, ?_, ?_, ?_⟩
  · intro anyCalls
    have first : ∃ contents, (Memory.empty : Memory κ Bytes).Contains contents := ⟨.empty, rfl⟩
    rcases Storage.performAll_induction (fun _ => True)
      (fun memory : Memory κ Bytes => ∃ contents, memory.Contains contents)
      (fun call _ _ held => Memory.exists_contains_after held call)
      (fun call (_ : call ∈ anyCalls) => call.within_anything) first with ⟨contents, held⟩
    refine Memory.exposes.holdsOneView Memory.walksEntries values registry held ?_
    rw [held]
    rfl
  · intro aead options compression outside lsm opened
    rcases Storage.performAll_induction codec.Faithful (Lsm.Keeps codec)
      (fun call _ within keeps => keeps.after within) faithful (Lsm.keeps_of_open codec opened)
      with ⟨counted, contents, held⟩
    refine Lsm.exposes.holdsOneView Lsm.walksEntries values registry held ?_
    change Lsm.len _ = _
    rw [counted.len_eq, held.opened]
    exact held.mirrors.length_eq
  · intro options clock handle opened
    rcases Storage.performAll_induction codec.Faithful
      (fun state => ∃ contents, Sqlite.Represents codec state (some contents))
      (fun call _ within represented => Sqlite.exists_represents_after represented within) faithful
      ⟨.empty, Sqlite.represents_of_open opened⟩ with ⟨contents, represents⟩
    have held : Sqlite.Contains codec _ contents := represents.contains
    exact Sqlite.exposes.holdsOneView Sqlite.walksEntries values registry held
      (Sqlite.represents_len represents).1
  · intro σ link quiet options server steady accepted foreign
    rcases Storage.performAll_induction codec.Faithful
      (fun state => ∃ contents, Redis.Contains quiet codec state contents)
      (fun call _ within held => Redis.exists_contains_after held within) faithful
      ⟨.empty, Redis.represents_connected quiet steady accepted foreign⟩ with ⟨contents, held⟩
    exact Redis.exposes.holdsOneView Redis.walksEntries values registry held
      ((Redis.refines quiet).len held).1

/-- Store a payload that nobody can read, and then a truth value. -/
def spoiltCalls : List (StorageCall Datum Bytes) :=
  [.store (.text "a") [0xc1], .store (.text "b") (Envelope.wrap (.bool true) (some "bool")).write]

/-- These calls on every engine; the log-structured one seals the payloads.  In memory, both
keys are listed, and only the truth value is visited. -/
theorem spoilt_calls_show_one_view :
    Adapter.HoldsOneView Schema.bool.valueCodec Memory.storage (fun _ => True) Memory.Contains
        .empty (Memory.storage.performAll spoiltCalls .empty).2 ∧
      ((Adapter.storage Schema.bool.valueCodec Memory.storage).keys
        (.empty, (Memory.storage.performAll spoiltCalls .empty).2)).1 = [.text "a", .text "b"] ∧
      ((Adapter.storage Schema.bool.valueCodec Memory.storage).entries
        (.empty, (Memory.storage.performAll spoiltCalls .empty).2)).1 =
          [(.text "b", .bool true)] ∧
      (∃ lsm, Lsm.open? .marking { encryptionKey := some (List.replicate 16 7) } {}
          ⟨.constant 0, .constant ⟨List.replicate 12 0, rfl⟩,
            .constant ⟨List.replicate 32 0, rfl⟩⟩ = .ok lsm ∧
        Adapter.HoldsOneView Schema.bool.valueCodec (Lsm.storage .marking Schema.text.keyCodec)
          Schema.text.keyCodec.Faithful (Lsm.Contains Schema.text.keyCodec) .empty
          ((Lsm.storage .marking Schema.text.keyCodec).performAll spoiltCalls lsm).2) ∧
      (∃ handle, Sqlite.open? {} (.constant 0) = .ok handle ∧
        Adapter.HoldsOneView Schema.bool.valueCodec (Sqlite.storage Schema.text.keyCodec)
          Schema.text.keyCodec.Faithful (Sqlite.Contains Schema.text.keyCodec) .empty
          ((Sqlite.storage Schema.text.keyCodec).performAll spoiltCalls (.empty, handle)).2) ∧
      Adapter.HoldsOneView Schema.bool.valueCodec
        (Redis.storage RedisLink.onePage Schema.text.keyCodec) Schema.text.keyCodec.Faithful
        (Redis.Contains RedisLink.onePageQuiescent Schema.text.keyCodec) .empty
        ((Redis.storage RedisLink.onePage Schema.text.keyCodec).performAll spoiltCalls
          (Redis.connected {}, .empty)).2 := by
  have first : Schema.text.keyCodec.Faithful (.text "a") := by
    refine Schema.keyCodec_faithful rfl rfl ?_ (by decide) rfl
    intro data written
    cases written
    decide
  have second : Schema.text.keyCodec.Faithful (.text "b") := by
    refine Schema.keyCodec_faithful rfl rfl ?_ (by decide) rfl
    intro data written
    cases written
    decide
  have faithful : ∀ call ∈ spoiltCalls, call.Within Schema.text.keyCodec.Faithful := by
    intro call member
    rcases List.mem_cons.mp member with rfl | rest
    · exact first
    · rw [List.mem_singleton.mp rest]
      exact second
  have sealed : ∃ lsm, Lsm.open? .marking { encryptionKey := some (List.replicate 16 7) } {}
      ⟨.constant 0, .constant ⟨List.replicate 12 0, rfl⟩,
        .constant ⟨List.replicate 32 0, rfl⟩⟩ = .ok lsm := ⟨_, rfl⟩
  have foreign : ∀ serverKey, (Tree.empty.get? serverKey).isSome = true →
      Redis.ownedKey? Schema.text.keyCodec {} serverKey = none := by
    intro serverKey present
    cases present
  rcases sealed with ⟨lsm, opened⟩
  rcases read_paths_show_one_view Schema.bool.valueCodec Schema.text.keyCodec .empty spoiltCalls
    faithful with ⟨inMemory, logged, tabled, remote⟩
  refine ⟨inMemory spoiltCalls, by decide +kernel, by decide +kernel, ⟨lsm, opened, logged opened⟩,
    ⟨_, Sqlite.open?_default _, tabled (Sqlite.open?_default _)⟩, ?_⟩
  exact remote RedisLink.onePageQuiescent {} .empty trivial trivial foreign

end TypedStore
