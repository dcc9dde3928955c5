import TypedStore.Proofs.Contract.Lsm
import TypedStore.Proofs.Contract.Memory
import TypedStore.Proofs.Contract.Redis
import TypedStore.Proofs.Contract.Sqlite
import TypedStore.Proofs.Contract.Values

/-!
# Every engine is one finite map

Programs that use maps cannot tell the engines apart, but for the orders that no
engine promises.  Calls may go through maps that allow overwriting and maps that
deny it, in any mix, as long as they share one engine; whatever the calls are,
the answers are those of one finite map that starts empty.

The engine of native values asks for nothing.  The others keep payloads under
encoded keys, so keys and values have to come back from their codecs.  Two of
them ask for something more, and neither is about the calls: a sealing
log-structured engine must not run out of numbers for data keys, and the server
of the remote engine must be quiescent and accept the expiry, with no keys behind
the prefix at first.
-/

namespace TypedStore

variable {κ ν : Type} [DecidableEq κ]

/-- Whether the answers to calls, made one after another on a fresh engine, are
those of one finite map. -/
def Storage.ActsAsMap {σ : Type} (storage : Storage σ κ ν) (calls : List (MapCall κ ν))
    (fresh : σ) : Prop :=
  MapState.Explains (some .empty) (storage.run calls fresh).1

/-- Values in memory. -/
theorem Memory.actsAsMap (calls : List (MapCall κ ν)) :
    (Memory.storage : Storage (Memory κ ν) κ ν).ActsAsMap calls .empty :=
  Memory.refines.run (Memory.storage.rooms_of_forall fun _ => trivial) calls rfl
    (fun call _ => call.op.within_anything) trivial

/-! ## Payloads under encoded keys -/

section Encoded

variable {keys : KeyCodec κ} {values : ValueCodec ν} {valid : Registry → Prop}
  {storable : ν → Prop} {registry : Registry} {calls : List (MapCall κ ν)}

/-- The typed layer over a byte engine that refines a finite map. -/
theorem Adapter.actsAsMap {σ : Type} {inner : Storage σ κ Bytes} {known : κ → Prop}
    {safe : σ → Prop} {represents : σ → MapState κ Bytes → Prop}
    (inside : inner.Refines known (fun _ => True) safe represents) (rooms : inner.Rooms safe)
    (preserves : values.Preserves valid storable) (isValid : valid registry)
    (within : ∀ call ∈ calls, call.op.Within known storable) {fresh : σ}
    (represented : represents fresh (some .empty))
    (room : safe ((Adapter.storage values inner).run calls (registry, fresh)).2.2) :
    (Adapter.storage values inner).ActsAsMap calls (registry, fresh) := by
  refine (Adapter.refines inside preserves).run (Adapter.rooms rooms) calls ?_ within room
  exact ⟨isValid, some .empty, represented, Option.Rel.some Mirrors.empty⟩

/-- Whatever the engine, calls made one after another through maps that share it
are answered as one finite map would. -/
theorem engines_act_as_one_map (preserves : values.Preserves valid storable)
    (registry : Registry) (isValid : valid registry) (calls : List (MapCall κ ν))
    (within : ∀ call ∈ calls, call.op.Within keys.Restores storable) :
    (∀ anyCalls : List (MapCall κ ν),
      (Memory.storage : Storage (Memory κ ν) κ ν).ActsAsMap anyCalls .empty) ∧
    (Adapter.storage values Memory.storage).ActsAsMap calls (registry, .empty) ∧
    (∀ {aead : Aead} {options : LsmOptions} {compression : Bool} {outside : Surroundings}
      {lsm : Lsm}, aead.Sound → Lsm.open? aead options { compression } outside = .ok lsm →
      Lsm.hasRoom ((Adapter.storage values (Lsm.storage aead keys)).run calls (registry, lsm)).2.2 →
      (Adapter.storage values (Lsm.storage aead keys)).ActsAsMap calls (registry, lsm)) ∧
    (∀ {options : SqliteOptions} {clock : Source Nat} {handle : Sqlite},
      Sqlite.open? options clock = .ok handle →
      (Adapter.storage values (Sqlite.storage keys)).ActsAsMap calls
        (registry, SqlTable.empty, handle)) ∧
    ∀ {σ : Type} {link : RedisLink σ} (quiet : link.Quiescent) (options : RedisOptions)
      (server : σ), quiet.steady server → quiet.accepts options.expireMillis →
      (∀ serverKey, ((quiet.keyspace server).get? serverKey).isSome = true →
        Redis.ownedKey? keys options serverKey = none) →
      (Adapter.storage values (Redis.storage link keys)).ActsAsMap calls
        (registry, Redis.connected options, server) := by
  refine ⟨Memory.actsAsMap, ?_, ?_, ?_, ?_⟩
  · refine Adapter.actsAsMap Memory.refines (Memory.storage.rooms_of_forall fun _ => trivial)
      preserves isValid ?_ rfl trivial
    intro call member
    exact (within call member).mono (fun _ _ => trivial) fun _ storable => storable
  · intro aead options compression outside lsm sound opened room
    exact Adapter.actsAsMap (Lsm.refines sound) Lsm.rooms preserves isValid within
      (Lsm.represents_of_open sound opened) room
  · intro options clock handle opened
    exact Adapter.actsAsMap Sqlite.refines ((Sqlite.storage keys).rooms_of_forall fun _ => trivial)
      preserves isValid within (Sqlite.represents_of_open opened) trivial
  · intro σ link quiet options server steady accepted foreign
    exact Adapter.actsAsMap (Redis.refines quiet)
      ((Redis.storage link keys).rooms_of_forall fun _ => trivial) preserves isValid within
      (Redis.represents_connected quiet steady accepted foreign) trivial

end Encoded

/-- Store a value and take it out again. -/
def storeAndTake : List (MapCall Datum Datum) :=
  [⟨false, .store (.text "a") (.bool true)⟩, ⟨true, .next⟩]

/-- These calls on every engine; the log-structured one seals the value. -/
theorem storeAndTake_on_every_engine :
    (Memory.storage : Storage (Memory Datum Datum) Datum Datum).ActsAsMap storeAndTake .empty ∧
      (Adapter.storage Schema.bool.valueCodec Memory.storage).ActsAsMap storeAndTake
        (.empty, .empty) ∧
      (∃ lsm, Lsm.open? .marking { encryptionKey := some (List.replicate 16 7) } {}
          ⟨.constant 0, .constant ⟨List.replicate 12 0, rfl⟩,
            .constant ⟨List.replicate 32 0, rfl⟩⟩ = .ok lsm ∧
        (Adapter.storage Schema.bool.valueCodec
          (Lsm.storage .marking Schema.text.keyCodec)).ActsAsMap storeAndTake (.empty, lsm)) ∧
      (∃ handle, Sqlite.open? {} (.constant 0) = .ok handle ∧
        (Adapter.storage Schema.bool.valueCodec (Sqlite.storage Schema.text.keyCodec)).ActsAsMap
          storeAndTake (.empty, SqlTable.empty, handle)) ∧
      (Adapter.storage Schema.bool.valueCodec
        (Redis.storage RedisLink.onePage Schema.text.keyCodec)).ActsAsMap storeAndTake
          (.empty, Redis.connected {}, Tree.empty) := by
  have known : Schema.text.keyCodec.Restores (.text "a") :=
    ⟨[161, 97], by decide +kernel, by decide +kernel⟩
  have kept : Schema.bool.Keeps (.bool true) :=
    ⟨.bool true, ⟨rfl, rfl, rfl, by decide, by decide⟩, by decide, by decide⟩
  have within : ∀ call ∈ storeAndTake,
      call.op.Within Schema.text.keyCodec.Restores Schema.bool.Keeps := by
    intro call member
    rcases List.mem_cons.mp member with rfl | rest
    · exact ⟨known, kept⟩
    · rw [List.mem_singleton.mp rest]
      trivial
  have sealed : ∃ lsm, Lsm.open? .marking { encryptionKey := some (List.replicate 16 7) } {}
      ⟨.constant 0, .constant ⟨List.replicate 12 0, rfl⟩,
        .constant ⟨List.replicate 32 0, rfl⟩⟩ = .ok lsm ∧
      Lsm.hasRoom ((Adapter.storage Schema.bool.valueCodec
        (Lsm.storage .marking Schema.text.keyCodec)).run storeAndTake
          (Registry.empty, lsm)).2.2 := by
    refine ⟨_, rfl, ?_⟩
    unfold Lsm.hasRoom
    decide +kernel
  have table : Sqlite.open? {} (.constant 0) =
      .ok { countCache := .ofSeconds 5, cached := none, clock := .constant 0, closed := false } := by
    have good : SqliteOptions.check {} = .ok () := by decide +kernel
    have executable : SqliteOptions.isExecutable {} = true := by decide +kernel
    rw [Sqlite.open?, good, executable]
    rfl
  have foreign : ∀ serverKey, (Tree.empty.get? serverKey).isSome = true →
      Redis.ownedKey? Schema.text.keyCodec {} serverKey = none := by
    intro serverKey present
    cases present
  rcases sealed with ⟨lsm, opened, room⟩
  rcases engines_act_as_one_map Schema.bool.valueCodec_preserves .empty trivial storeAndTake within
    with ⟨inMemory, hashed, logged, tabled, remote⟩
  refine ⟨inMemory _, hashed, ⟨lsm, opened, ?_⟩, ⟨_, table, ?_⟩, ?_⟩
  · exact logged Aead.marking_sound opened room
  · exact tabled table
  · exact remote RedisLink.onePageQuiescent {} .empty trivial trivial foreign

end TypedStore
