import TypedStore.Lsm
import TypedStore.Proofs.Cipher.Keyring
import TypedStore.Proofs.Cipher.Numbering
import TypedStore.Proofs.Redis.Attempts
import TypedStore.Proofs.Sqlite.Rows
import TypedStore.Proofs.Storage.Invention
import TypedStore.Sqlite

/-!
# Byte engines invent nothing

The byte engines obey the law of `Storage.InventsNothing` in every state, whatever
was done to it before and whatever fails.

What a state holds is said apart from what it shows.  A table and a server hold what
stands under the key, also while the handle is closed or its connections break.  A
log-structured engine may store sealed bytes with a number that no data key of its ring
has yet, and make a data key at any write.  So it holds what the data key with that
number would open, whichever it will be.  This needs numbers that are not given away
twice, and `Lsm.lasting` writes only while there are any.
-/

namespace TypedStore

variable {κ : Type} {codec : KeyCodec κ}

/-! ## The table -/

namespace Sqlite

/-- Whether the row of a key holds these bytes. -/
def Holds (codec : KeyCodec κ) (state : State) (key : κ) (found : Bytes) : Prop :=
  ∃ cell row, cell? codec key = some cell ∧ state.1.find? cell = some row ∧
    row.2.bytes? = some found

theorem cell?_ne_null {key : κ} {cell : SqlValue} (written : cell? codec key = some cell) :
    cell ≠ .null := by
  rcases Option.map_eq_some_iff.mp written with ⟨bytes, _, rfl⟩
  exact SqlValue.noConfusion

/-- After a row is written its key holds nothing else. -/
theorem eq_of_holds_upsert {table : SqlTable} {handle : Sqlite} {key : κ} {cell : SqlValue}
    {value found : Bytes} (written : cell? codec key = some cell)
    (held : Holds codec (table.upsert cell (.blob value), handle) key found) : found = value := by
  rcases held with ⟨other, row, same, looked, read⟩
  rw [written] at same
  cases same
  rw [table.find?_upsert (cell?_ne_null written)] at looked
  cases looked
  exact (Option.some.inj read).symm

theorem inventsNothing : (storage codec).InventsNothing (Holds codec) where
  load := by
    rintro ⟨table, handle⟩ key found loaded
    change load codec key (table, handle) = some found at loaded
    rw [load] at loaded
    split at loaded
    · cases loaded
    · rcases Option.bind_eq_some_iff.mp loaded with ⟨cell, written, later⟩
      rcases Option.bind_eq_some_iff.mp later with ⟨row, looked, read⟩
      exact ⟨cell, row, written, looked, read⟩
  store := by
    rintro ⟨table, handle⟩ key value found held
    change Holds codec (store codec key value (table, handle)) key found at held
    rw [store] at held
    split at held
    · exact .inr held
    · split at held
      · exact .inr held
      · next cell written => exact .inl (eq_of_holds_upsert written held)
  storeIfAbsent := by
    rintro ⟨table, handle⟩ key value found held
    change Holds codec (storeIfAbsent codec key value (table, handle)).2 key found at held
    rw [storeIfAbsent] at held
    split at held
    · exact .inr held
    · split at held
      · exact .inr held
      · next cell written =>
        split at held
        · exact .inr held
        · exact .inl (eq_of_holds_upsert written held)

end Sqlite

/-! ## The log-structured engine -/

namespace Vault

variable {aead : Aead} {later earlier : Vault} {stored found : Bytes}

/-- Whether the number for the next data key is taken. -/
def isExhausted (vault : Vault) : Bool :=
  (vault.keys.get? vault.nextId).isSome

/-- Whether sealed bytes open to these under the data key with their number, or would if
the ring has none and it were to be some data key. -/
def MayOpen (aead : Aead) (vault : Vault) (stored found : Bytes) : Prop :=
  ∃ (id : UInt32) (rest : Bytes) (key : DataKey), stored = idBytes id ++ rest ∧
    unlock aead key.val rest = .ok found ∧
    ∀ held, vault.keys.get? id = some held → held = key

theorem mayOpen_of_decrypt {vault : Vault} (opened : vault.decrypt aead stored = .ok found) :
    vault.MayOpen aead stored found := by
  rcases Nat.lt_or_ge stored.length (keyIdLength + nonceLength) with short | enough
  · rcases exists_fault_of_short vault short with ⟨fault, failed⟩
    rw [failed] at opened
    cases opened
  · rcases exists_eq_idBytes_append (Nat.le_of_add_right_le enough) with ⟨id, rest, rfl⟩
    rw [decrypt_idBytes] at opened
    cases held : vault.keys.get? id with
    | none =>
      rw [held] at opened
      cases opened
    | some key =>
      rw [held] at opened
      exact ⟨id, rest, key, rfl, opened, fun other same => Option.some.inj (same.symm.trans held)⟩

/-- More data keys leave fewer ways to open. -/
theorem MayOpen.of_extends (extended : later.Extends earlier)
    (opens : later.MayOpen aead stored found) : earlier.MayOpen aead stored found := by
  rcases opens with ⟨id, rest, key, same, unlocked, only⟩
  exact ⟨id, rest, key, same, unlocked, fun held there => only held (extended id held there)⟩

theorem Step.extends (step : Step aead earlier later) (left : earlier.isExhausted = false) :
    later.Extends earlier := by
  intro id key held
  cases step with
  | kept outside => exact held
  | rotated read outside =>
    have free : id ≠ earlier.nextId := by
      rintro rfl
      rw [isExhausted, held] at left
      cases left
    change (earlier.keys.insert earlier.nextId read.dataKeys.current).get? id = some key
    rw [Listing.get?_insert, if_neg free]
    exact held

theorem keys_lockActive (plain : Bytes) (vault : Vault) :
    (vault.lockActive aead plain).2.keys = vault.keys := by
  rw [lockActive]
  cases vault.keys.get? vault.active <;> rfl

theorem extends_encrypt {vault : Vault} (left : vault.isExhausted = false) (plain : Bytes) :
    (vault.encrypt aead plain).2.Extends vault := by
  rcases vault.exists_step_encrypt aead plain with ⟨ready, step, same⟩
  intro id key held
  rw [same, keys_lockActive]
  exact step.extends left id key held

/-- What is sealed opens to nothing else: its number is in the ring, with the data key
that it was sealed under. -/
theorem eq_of_mayOpen_encrypt (sound : aead.Sound) {vault : Vault} {plain : Bytes}
    (encrypted : (vault.encrypt aead plain).1 = .ok stored)
    (opens : (vault.encrypt aead plain).2.MayOpen aead stored found) : found = plain := by
  rcases vault.exists_step_encrypt aead plain with ⟨ready, _, same⟩
  rcases opens with ⟨id, rest, key, rfl, unlocked, only⟩
  rw [same, keys_lockActive] at only
  rw [same, lockActive] at encrypted
  cases active : ready.keys.get? ready.active with
  | none =>
    rw [active] at encrypted
    cases encrypted
  | some held =>
    rw [active] at encrypted
    have length : ∀ id : UInt32, (idBytes id).length = keyIdLength :=
      fun id => Bytes.length_ofNat _ _
    have parts := List.append_inj (Except.ok.inj encrypted)
      ((length ready.active).trans (length id).symm)
    rw [← idBytes_injective parts.1] at only
    rw [← parts.2, ← only held active, unlock_lock sound] at unlocked
    exact (Except.ok.inj unlocked).symm

end Vault

namespace Lsm

variable {aead : Aead}

/-- Whether a handle that seals values has no number left for a data key. -/
def Protection.isExhausted : Protection → Bool
  | .plain _ => false
  | .sealed vault => vault.isExhausted

/-- The engine, writing only while there are numbers for data keys. -/
def lasting (aead : Aead) (codec : KeyCodec κ) : Storage Lsm κ Bytes :=
  (storage aead codec).dropping fun lsm _ _ => lsm.protection.isExhausted

/-- Whether stored bytes are these bytes, or may open to them if values are sealed. -/
def Protection.MayOpen (aead : Aead) (stored found : Bytes) : Protection → Prop
  | .plain _ => stored = found
  | .sealed vault => vault.MayOpen aead stored found

theorem Protection.mayOpen_of_unlock {protection : Protection} {stored found : Bytes}
    (unlocked : protection.unlock aead stored = .ok found) :
    protection.MayOpen aead stored found := by
  cases protection with
  | plain records => exact Except.ok.inj unlocked
  | «sealed» vault => exact Vault.mayOpen_of_decrypt unlocked

/-- Locking a value lets nothing open that could not before. -/
theorem Protection.mayOpen_of_lock {protection later : Protection} {value stored found : Bytes}
    {result : Except CipherFault Bytes} (left : protection.isExhausted = false)
    (locked : protection.lock aead value = (result, later))
    (opens : later.MayOpen aead stored found) : protection.MayOpen aead stored found := by
  cases protection with
  | plain records =>
    cases locked
    exact opens
  | «sealed» vault =>
    cases locked
    exact Vault.MayOpen.of_extends (Vault.extends_encrypt left value) opens

/-- What is locked opens to nothing but the value. -/
theorem Protection.eq_of_mayOpen (sound : aead.Sound) {protection later : Protection}
    {value stored found : Bytes} (locked : protection.lock aead value = (.ok stored, later))
    (opens : later.MayOpen aead stored found) : found = value := by
  have made : (protection.lock aead value).1 = .ok stored := congrArg Prod.fst locked
  have left : (protection.lock aead value).2 = later := congrArg Prod.snd locked
  rw [← left] at opens
  cases protection with
  | plain records => exact opens.symm.trans (Except.ok.inj made).symm
  | «sealed» vault => exact Vault.eq_of_mayOpen_encrypt sound made opens

/-- Whether the entry of a key holds these bytes. -/
def Holds (aead : Aead) (codec : KeyCodec κ) (lsm : Lsm) (key : κ) (found : Bytes) : Prop :=
  ∃ bytes stored, codec.bytes? key = some bytes ∧ lsm.entries.get? bytes = some stored ∧
    lsm.protection.MayOpen aead stored found

variable {lsm : Lsm} {key : κ} {value found : Bytes} {later : Protection}

/-- A new protection alone adds nothing to what is held. -/
theorem holds_of_lock {result : Except CipherFault Bytes}
    (left : lsm.protection.isExhausted = false)
    (locked : lsm.protection.lock aead value = (result, later))
    (held : Holds aead codec { lsm with protection := later } key found) :
    Holds aead codec lsm key found := by
  rcases held with ⟨bytes, stored, spelled, looked, opens⟩
  exact ⟨bytes, stored, spelled, looked, Protection.mayOpen_of_lock left locked opens⟩

/-- After an entry is written its key holds nothing else. -/
theorem eq_of_holds_insertStored (sound : aead.Sound) {bytes stored : Bytes}
    (spelled : codec.bytes? key = some bytes)
    (locked : lsm.protection.lock aead value = (.ok stored, later))
    (held : Holds aead codec ({ lsm with protection := later }.insertStored bytes stored) key
      found) : found = value := by
  rcases held with ⟨other, entry, same, looked, opens⟩
  rw [spelled] at same
  cases same
  change (lsm.entries.insert bytes stored).get? bytes = some entry at looked
  rw [Tree.get?_insert, if_pos rfl] at looked
  cases looked
  exact Protection.eq_of_mayOpen sound locked opens

/-- While numbers are left a write adds nothing but its value. -/
theorem eq_or_holds_of_store (sound : aead.Sound) (left : lsm.protection.isExhausted = false)
    (held : Holds aead codec (lsm.store aead codec key value) key found) :
    found = value ∨ Holds aead codec lsm key found := by
  rw [store] at held
  split at held
  · exact .inr held
  · split at held
    · exact .inr held
    · next bytes spelled =>
      split at held
      · next locked => exact .inl (eq_of_holds_insertStored sound spelled locked held)
      · next locked => exact .inr (holds_of_lock left locked held)

theorem eq_or_holds_of_storeIfAbsent (sound : aead.Sound)
    (left : lsm.protection.isExhausted = false)
    (held : Holds aead codec (lsm.storeIfAbsent aead codec key value).2 key found) :
    found = value ∨ Holds aead codec lsm key found := by
  rw [storeIfAbsent] at held
  split at held
  · exact .inr held
  · split at held
    · exact .inr held
    · next bytes spelled =>
      split at held
      · next locked =>
        split at held
        · exact .inr (holds_of_lock left locked held)
        · exact .inl (eq_of_holds_insertStored sound spelled locked held)
      · next locked => exact .inr (holds_of_lock left locked held)

theorem inventsNothing (sound : aead.Sound) :
    (lasting aead codec).InventsNothing (Holds aead codec) where
  load := by
    intro lsm key found loaded
    change lsm.load aead codec key = some found at loaded
    rw [load] at loaded
    split at loaded
    · cases loaded
    · rcases Option.bind_eq_some_iff.mp loaded with ⟨bytes, spelled, later⟩
      rcases Option.bind_eq_some_iff.mp later with ⟨stored, looked, opened⟩
      exact ⟨bytes, stored, spelled, looked,
        Protection.mayOpen_of_unlock (eq_ok_of_toOption opened)⟩
  store := by
    intro lsm key value found held
    simp only [lasting, Storage.dropping] at held
    split at held
    · exact .inr held
    · next left => exact eq_or_holds_of_store sound (eq_false_of_ne_true left) held
  storeIfAbsent := by
    intro lsm key value found held
    simp only [lasting, Storage.dropping] at held
    split at held
    · exact .inr held
    · next left =>
      exact eq_or_holds_of_storeIfAbsent sound (eq_false_of_ne_true left) held

end Lsm

/-! ## The remote engine -/

namespace Redis

/-- Whether the key of the server holds these bytes. -/
def Holds (codec : KeyCodec κ) (state : State FaultyServer) (key : κ) (found : Bytes) : Prop :=
  ∃ serverKey, serverKey? codec state.1.options key = some serverKey ∧
    state.2.keyspace.get? serverKey = some found

/-- Whether a keyspace is the one before a command or the one after it. -/
def Around (command : RedisCommand) (before after : Tree) : Prop :=
  after = before ∨ after = command.effect before

theorem around_leftBy (command : RedisCommand) (lost : List (RedisCommand × AttemptFate))
    (keyspace : Tree) : Around command keyspace (leftBy command lost keyspace) := by
  rw [leftBy]
  split
  · exact .inr rfl
  · exact .inl rfl

/-- What is known however the attempts to run a command end.  The handle keeps its
settings, and the command has taken effect or not.  An answer is that of the command
before it takes effect or after. -/
structure Ends (paging : Paging) (command : RedisCommand) (state : State FaultyServer)
    (ended : Except StoreError RedisReply × State FaultyServer) : Prop where
  options : ended.2.1.options = state.1.options
  around : Around command state.2.keyspace ended.2.2.keyspace
  answers : ∀ reply, ended.1 = .ok reply → ∃ server keyspace,
    Around command state.2.keyspace keyspace ∧
      reply = (command.apply (FaultyServer.scan paging server) keyspace).1

variable {paging : Paging} {command : RedisCommand} {state : State FaultyServer}

theorem executeWithin_ends (paging : Paging) (command : RedisCommand) (retries : Nat)
    (state : State FaultyServer) : Ends paging command state
      (executeWithin (FaultyServer.link paging) command retries state) := by
  rcases executeWithin_concludes paging command retries state with ⟨lost, concludes⟩
  have around := around_leftBy command lost state.2.keyspace
  rcases concludes.outcome with
    ⟨tries, keyspace, server, answered⟩ | ⟨tries, _, keyspace, fault, failed⟩
  · refine ⟨tries.options, .inr keyspace, ?_⟩
    intro reply same
    rw [answered] at same
    exact ⟨server, _, around, (Except.ok.inj same).symm⟩
  · refine ⟨tries.options, ?_, ?_⟩
    · rw [keyspace]
      exact around
    · intro reply same
      rw [failed] at same
      cases same

theorem set_snd {σ : Type} (link : RedisLink σ) (key value : Bytes) (onlyIfAbsent : Bool)
    (state : State σ) : (set link key value onlyIfAbsent state).2 =
      (execute link (.set key value onlyIfAbsent state.1.options.expireMillis) state).2 := by
  rw [set]
  cases execute link (.set key value onlyIfAbsent state.1.options.expireMillis) state with
  | mk result after => cases result <;> rfl

/-- After a value is sent its key holds that value, or what it held before. -/
theorem eq_or_holds_of_set {serverKey : Bytes} {key : κ} {value found : Bytes}
    {onlyIfAbsent : Bool} (spelled : serverKey? codec state.1.options key = some serverKey)
    (held : Holds codec (set (FaultyServer.link paging) serverKey value onlyIfAbsent state).2 key
      found) : found = value ∨ Holds codec state key found := by
  rw [set_snd] at held
  have ends := executeWithin_ends paging
    (.set serverKey value onlyIfAbsent state.1.options.expireMillis)
    state.1.options.maxRetries.toNat state
  rcases held with ⟨other, same, looked⟩
  rw [execute, ends.options, spelled] at same
  cases same
  rw [execute] at looked
  rcases ends.around with unchanged | effect
  · rw [unchanged] at looked
    exact .inr ⟨serverKey, spelled, looked⟩
  · rw [effect, RedisCommand.effect_set] at looked
    split at looked
    · exact .inr ⟨serverKey, spelled, looked⟩
    · rw [Tree.get?_insert, if_pos rfl] at looked
      exact .inl (Option.some.inj looked).symm

/-- Whatever fails, and however scans are answered. -/
theorem inventsNothing (paging : Paging) :
    (storage (FaultyServer.link paging) codec).InventsNothing (Holds codec) where
  load := by
    intro state key found loaded
    change (load (FaultyServer.link paging) codec key state).1 = some found at loaded
    rw [load] at loaded
    split at loaded
    · cases loaded
    · split at loaded
      · cases loaded
      · next serverKey spelled =>
        split at loaded
        · next answered =>
          cases loaded
          have ends := executeWithin_ends paging (.get serverKey)
            state.1.options.maxRetries.toNat state
          rcases ends.answers _ (congrArg Prod.fst answered) with
            ⟨server, keyspace, around, made⟩
          have unchanged : keyspace = state.2.keyspace :=
            around.elim id fun same => same.trans (RedisCommand.effect_get _ _)
          rw [unchanged, RedisCommand.apply] at made
          refine ⟨serverKey, spelled, ?_⟩
          cases held : state.2.keyspace.get? serverKey with
          | none =>
            rw [held] at made
            cases made
          | some value =>
            rw [held] at made
            cases made
            rfl
        · cases loaded
  store := by
    intro state key value found held
    change Holds codec (store (FaultyServer.link paging) codec key value state) key found at held
    rw [store] at held
    split at held
    · exact .inr held
    · split at held
      · exact .inr held
      · next serverKey spelled => exact eq_or_holds_of_set spelled held
  storeIfAbsent := by
    intro state key value found held
    change Holds codec (storeIfAbsent (FaultyServer.link paging) codec key value state).2 key
      found at held
    rw [storeIfAbsent] at held
    split at held
    · exact .inr held
    · split at held
      · exact .inr held
      · next serverKey spelled =>
        apply eq_or_holds_of_set spelled
        split at held
        · next written =>
          rw [written]
          exact held
        · next written =>
          rw [written]
          exact held

end Redis

/-! ## Any byte engine -/

/-- A byte engine, by the state that it runs on: one of these four, such an engine that
loses some writes, or any other storage that invents nothing. -/
inductive ByteEngine (κ : Type) : Type → Type 1 where
  | memory : ByteEngine κ (Memory κ Bytes)
  | logged {aead : Aead} (sound : aead.Sound) (codec : KeyCodec κ) : ByteEngine κ Lsm
  | table (codec : KeyCodec κ) : ByteEngine κ Sqlite.State
  | remote (paging : Paging) (codec : KeyCodec κ) : ByteEngine κ (Redis.State FaultyServer)
  | lossy {σ : Type} (drops : σ → κ → Bytes → Bool) (engine : ByteEngine κ σ) : ByteEngine κ σ
  | other {σ : Type} (storage : Storage σ κ Bytes) (holds : σ → κ → Bytes → Prop)
    (law : storage.InventsNothing holds) : ByteEngine κ σ

namespace ByteEngine

variable [DecidableEq κ]

/-- The operations of an engine. -/
def storage {σ : Type} : ByteEngine κ σ → Storage σ κ Bytes
  | memory => Memory.storage
  | @logged _ aead _ codec => Lsm.lasting aead codec
  | table codec => Sqlite.storage codec
  | remote paging codec => Redis.storage (FaultyServer.link paging) codec
  | lossy drops engine => engine.storage.dropping drops
  | other storage _ _ => storage

/-- Whether an engine holds these bytes under a key, shown or not. -/
def Holds {σ : Type} : ByteEngine κ σ → σ → κ → Bytes → Prop
  | memory => fun memory key found => memory.listing.get? key = some found
  | @logged _ aead _ codec => Lsm.Holds aead codec
  | table codec => Sqlite.Holds codec
  | remote _ codec => Redis.Holds codec
  | lossy _ engine => engine.Holds
  | other _ holds _ => holds

theorem inventsNothing {σ : Type} (engine : ByteEngine κ σ) :
    engine.storage.InventsNothing engine.Holds := by
  induction engine with
  | memory => exact Memory.inventsNothing
  | logged sound codec => exact Lsm.inventsNothing sound
  | table codec => exact Sqlite.inventsNothing
  | remote paging codec => exact Redis.inventsNothing paging
  | lossy drops engine unlost => exact unlost.dropping drops
  | other storage holds law => exact law

end ByteEngine
end TypedStore
