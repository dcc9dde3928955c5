import TypedStore.Proofs.Contract.Holdings
import TypedStore.Proofs.Lsm.Counts

/-!
# What engines hold after calls

An engine that is used through its own handle holds payloads under keys of the map at every
moment, and its handle knows how many.  The keys given to it have to come back if they can be
written.  One that cannot be written is ignored by every call.  Payloads may be any bytes,
and sealing them may fail.
-/

namespace TypedStore

variable {κ : Type} [DecidableEq κ]

namespace Memory

theorem exists_contains_after {memory : Memory κ Bytes}
    (held : ∃ contents, memory.Contains contents) (call : StorageCall κ Bytes) :
    ∃ contents, Contains (Memory.storage.after call memory) contents := by
  rcases held with ⟨contents, rfl⟩
  cases call with
  | storeIfAbsent key value =>
    change ∃ contents', (Memory.storeIfAbsent key value ⟨contents, false⟩).2.Contains contents'
    rw [Memory.storeIfAbsent, if_neg Bool.false_ne_true]
    split <;> exact ⟨_, rfl⟩
  | _ => exact ⟨_, rfl⟩

end Memory

variable {codec : KeyCodec κ}

/-! ## The log-structured engine -/

namespace Lsm

variable {aead : Aead} {lsm : Lsm} {contents : Listing κ Bytes}

/-- Writing bytes under the bytes of a key, whatever becomes of the protection. -/
theorem Contains.insertStored (held : lsm.Contains codec contents) (protection : Protection)
    {key : κ} {bytes : Bytes} (spelled : codec.Spells bytes key) (stored : Bytes) :
    Contains codec (({ lsm with protection } : Lsm).insertStored bytes stored)
      (contents.insert key stored) :=
  ⟨held.opened, held.mirrors.insert KeyCodec.biUnique_spells spelled rfl
    (lsm.entries.entries_insert_perm bytes stored)⟩

theorem Contains.exists_store (held : lsm.Contains codec contents) (aead : Aead) {key : κ}
    (faithful : codec.Faithful key) (value : Bytes) :
    ∃ later, Contains codec (lsm.store aead codec key value) later := by
  rw [Lsm.store, if_neg held.notClosed]
  rcases faithful.spelled_or with ⟨bytes, spelled⟩ | ⟨unwritable, _⟩
  · rw [spelled.bytes?]
    dsimp only
    rcases lsm.protection.lock aead value with ⟨fault | stored, protection⟩
    -- A new data key may be there although nothing was sealed with it.
    · exact ⟨contents, held.opened, held.mirrors⟩
    · exact ⟨_, held.insertStored protection spelled stored⟩
  · rw [unwritable]
    exact ⟨contents, held⟩

theorem Contains.exists_storeIfAbsent (held : lsm.Contains codec contents) (aead : Aead) {key : κ}
    (faithful : codec.Faithful key) (value : Bytes) :
    ∃ later, Contains codec (lsm.storeIfAbsent aead codec key value).2 later := by
  rw [Lsm.storeIfAbsent, if_neg held.notClosed]
  rcases faithful.spelled_or with ⟨bytes, spelled⟩ | ⟨unwritable, _⟩
  · rw [spelled.bytes?]
    dsimp only
    rcases lsm.protection.lock aead value with ⟨fault | stored, protection⟩
    · exact ⟨contents, held.opened, held.mirrors⟩
    · dsimp only
      split
      · exact ⟨contents, held.opened, held.mirrors⟩
      · exact ⟨_, held.insertStored protection spelled stored⟩
  · rw [unwritable]
    exact ⟨contents, held⟩

/-- Whether a handle keeps payloads and has counted them. -/
def Keeps (codec : KeyCodec κ) (lsm : Lsm) : Prop :=
  lsm.Counted ∧ ∃ contents, lsm.Contains codec contents

theorem Keeps.after (keeps : lsm.Keeps codec) {call : StorageCall κ Bytes}
    (within : call.Within codec.Faithful) :
    Keeps codec ((Lsm.storage aead codec).after call lsm) := by
  rcases keeps with ⟨counted, contents, held⟩
  refine ⟨counted.after call, ?_⟩
  cases call with
  | store key value => exact held.exists_store aead within value
  | storeIfAbsent key value => exact held.exists_storeIfAbsent aead within value
  | delete removed =>
    rcases delete_spec codec held.opened counted removed with ⟨entries, _, _, opened⟩
    refine ⟨contents.eraseAll removed, opened, ?_⟩
    change Mirrors codec.Spells Eq (lsm.delete codec removed).entries.entries _
    rw [entries]
    exact mirrors_foldl_erase held.mirrors within
  | next =>
    rcases held.next aead with ⟨left, _, heldLeft⟩
    exact ⟨left, heldLeft⟩
  | clear =>
    refine ⟨.empty, ?_⟩
    change Contains codec lsm.clear .empty
    rw [Lsm.clear, if_neg held.notClosed]
    exact ⟨held.opened, Mirrors.empty⟩
  | _ => exact ⟨contents, held⟩

omit [DecidableEq κ] in
theorem keeps_of_open (codec : KeyCodec κ) {options : LsmOptions} {compression : Bool}
    {outside : Surroundings} (opened : open? aead options { compression } outside = .ok lsm) :
    lsm.Keeps codec := by
  refine ⟨.of_open opened, .empty, ?_⟩
  rcases open?_eq_ok_iff.mp opened with ⟨_, _, protection, _, rfl⟩
  exact ⟨rfl, Mirrors.empty⟩

end Lsm

/-! ## Engines that stand for the map of their payloads -/

/-- Taking an entry leaves a map. -/
theorem Storage.Refines.exists_next {σ ν : Type} {storage : Storage σ κ ν} {known : κ → Prop}
    {storable : ν → Prop} {safe : σ → Prop} {represents : σ → MapState κ ν → Prop}
    (refines : storage.Refines known storable safe represents) {state : σ}
    {contents : Listing κ ν} (represented : represents state (some contents)) :
    ∃ later, represents (storage.next state).2 (some later) := by
  cases taken : (storage.next state).1 with
  | none => exact ⟨contents, (refines.next_none represented taken).2⟩
  | some entry => exact ⟨_, (refines.next_some represented taken).2⟩

namespace Sqlite

variable {state : State} {key : κ}

omit [DecidableEq κ] in
theorem store_of_unwritable (unwritable : codec.bytes? key = none) (value : Bytes) :
    store codec key value state = state := by
  rcases state with ⟨table, handle⟩
  simp only [store, cell?, unwritable, Option.map_none, ite_self]

omit [DecidableEq κ] in
theorem storeIfAbsent_of_unwritable (unwritable : codec.bytes? key = none) (value : Bytes) :
    (storeIfAbsent codec key value state).2 = state := by
  rcases state with ⟨table, handle⟩
  simp only [storeIfAbsent, cell?, unwritable, Option.map_none, ite_self]

theorem exists_represents_after (represented : ∃ contents, Represents codec state (some contents))
    {call : StorageCall κ Bytes} (within : call.Within codec.Faithful) :
    ∃ contents, Represents codec ((Sqlite.storage codec).after call state) (some contents) := by
  rcases represented with ⟨contents, represents⟩
  cases call with
  | store key value =>
    rcases within.spelled_or with known | ⟨unwritable, _⟩
    · exact ⟨_, represents_store represents known value⟩
    · refine ⟨contents, ?_⟩
      change Represents codec (store codec key value state) _
      rw [store_of_unwritable unwritable]
      exact represents
  | storeIfAbsent key value =>
    rcases within.spelled_or with known | ⟨unwritable, _⟩
    · exact ⟨_, represents_storeIfAbsent represents known value⟩
    · refine ⟨contents, ?_⟩
      change Represents codec (storeIfAbsent codec key value state).2 _
      rw [storeIfAbsent_of_unwritable unwritable]
      exact represents
  | delete removed => exact ⟨_, represents_delete represents within⟩
  | next => exact refines.exists_next represents
  | len => exact ⟨contents, (represents_len represents).2⟩
  | clear => exact ⟨_, refines.clear represents⟩
  | _ => exact ⟨contents, represents⟩

end Sqlite

namespace Redis

variable {σ : Type} {link : RedisLink σ} {quiet : link.Quiescent} {state : State σ} {key : κ}

omit [DecidableEq κ] in
theorem store_of_unwritable (unwritable : codec.bytes? key = none) (value : Bytes) :
    store link codec key value state = state := by
  simp only [store, serverKey?, unwritable, Option.map_none, ite_self]

omit [DecidableEq κ] in
theorem storeIfAbsent_of_unwritable (unwritable : codec.bytes? key = none) (value : Bytes) :
    (storeIfAbsent link codec key value state).2 = state := by
  simp only [storeIfAbsent, serverKey?, unwritable, Option.map_none]
  split <;> rfl

theorem exists_contains_after (held : ∃ contents, Contains quiet codec state contents)
    {call : StorageCall κ Bytes} (within : call.Within codec.Faithful) :
    ∃ contents, Contains quiet codec ((Redis.storage link codec).after call state) contents := by
  rcases held with ⟨contents, held⟩
  cases call with
  | load key => exact ⟨contents, (load_spec held within).2⟩
  | store key value =>
    rcases within.spelled_or with known | ⟨unwritable, _⟩
    · exact ⟨_, represents_store held known value⟩
    · refine ⟨contents, ?_⟩
      change Contains quiet codec (store link codec key value state) _
      rw [store_of_unwritable unwritable]
      exact held
  | storeIfAbsent key value =>
    rcases within.spelled_or with known | ⟨unwritable, _⟩
    · exact ⟨_, represents_storeIfAbsent held known value⟩
    · refine ⟨contents, ?_⟩
      change Contains quiet codec (storeIfAbsent link codec key value state).2 _
      rw [storeIfAbsent_of_unwritable unwritable]
      exact held
  | delete removed => exact ⟨_, represents_delete held within⟩
  | range visit start => exact ⟨contents, ((refines quiet).range visit start held).2⟩
  | next => exact (refines quiet).exists_next held
  | keys => exact ⟨contents, (keys_spec held).2⟩
  | len => exact ⟨contents, ((refines quiet).len held).2⟩
  | clear => exact ⟨.empty, represents_clear held⟩

end Redis
end TypedStore
