import TypedStore.Proofs.Cipher.Consistency
import TypedStore.Proofs.Cipher.Gcm
import TypedStore.Proofs.Wire.Counted

/-!
# The data keys of a vault over its whole life

A vault is made where there are no records; after that values are sealed, the age of
the active key is checked, and the vault is opened again from its records, in any
order.  Each of these turns keeps all data keys and makes at most one, whose number
exceeds all others: `Vault.Step` says what a turn does to the vault in memory, and
`Vault.Succeeds` what the turns together guarantee.

The numbers last for `Vault.capacity` data keys, so a life may make one less than
that after the first.  The clock, the supplies and the interval between data keys may
be different after every reopening, and a clock may run backwards; nothing here looks
at a time.
-/

namespace TypedStore

/-- What is done with a vault in one turn. -/
inductive VaultCall where
  | encrypt (plain : Bytes)
  | rotateIfStale
  /-- Close the vault and open its records under the same master key. -/
  | reopen (rotation : Duration) (outside : Surroundings)

namespace Vault

variable {aead : Aead}

/-! ## Numbers in records -/

/-- A number is written in one way only. -/
theorem eq_idBytes_of_parseId {bytes : Bytes} {id : UInt32} (parsed : parseId bytes = .ok id) :
    bytes = idBytes id := by
  rw [parseId] at parsed
  split at parsed
  · next length =>
    have small : Bytes.toNat bytes < 256 ^ keyIdLength := length ▸ Bytes.toNat_lt bytes
    have written : (idBytes id).length = keyIdLength := Bytes.length_ofNat _ _
    apply Bytes.eq_of_toNat (length.trans written.symm)
    rw [← Except.ok.inj parsed, idBytes, Bytes.toNat_ofNat, UInt32.toNat_ofNat_of_lt' small,
      Nat.mod_eq_of_lt small]
  · cases parsed

/-- All bytes that are long enough carry a number. -/
theorem exists_eq_idBytes_append {stored : Bytes} (enough : keyIdLength ≤ stored.length) :
    ∃ id rest, stored = idBytes id ++ rest := by
  have parsed : parseId (stored.take keyIdLength) =
      .ok (UInt32.ofNat (Bytes.toNat (stored.take keyIdLength))) :=
    if_pos (List.length_take_of_le enough)
  have front := eq_idBytes_of_parseId parsed
  have cut : stored.take keyIdLength ++ stored.drop keyIdLength = stored :=
    List.take_append_drop keyIdLength stored
  rw [front] at cut
  exact ⟨_, _, cut.symm⟩

/-! ## What a vault holds -/

/-- Whether the data keys in memory are those in the records, and the active one is the
newest of them. -/
structure KeyringHolds (aead : Aead) (vault : Vault) : Prop where
  /-- The numbers in the records are those in memory. -/
  recorded : (vault.records.entries.map Prod.fst).Perm (vault.keys.keys.map idBytes)
  active : vault.active ∈ vault.keys.keys
  newest : ∀ id ∈ vault.keys.keys, id ≤ vault.active
  /-- A record opens to the data key that is held under its number. -/
  opens : ∀ entry ∈ vault.records.entries, ∃ id time key, entry.1 = idBytes id ∧
    openRecord aead vault.master id entry.2 = .ok (time, key) ∧ vault.keys.get? id = some key

theorem Kept.recorded {vault : Vault} {opened : List (UInt32 × UInt64 × DataKey)}
    (kept : vault.Kept aead opened) :
    (vault.records.entries.map Prod.fst).Perm (vault.keys.keys.map idBytes) := by
  have written : List.Forall₂ (· = ·) (vault.records.entries.map Prod.fst)
      (opened.map fun held => idBytes held.1) := by
    apply List.forall₂_map_left_iff.mpr
    apply List.forall₂_map_right_iff.mpr
    exact kept.records.imp fun entry held opens => eq_idBytes_of_parseId opens.1
  have order := (kept.ring.map Prod.fst).map idBytes
  rw [List.map_map, List.map_map] at order
  rw [List.forall₂_eq_eq_eq] at written
  rw [written]
  exact order

theorem Consistent.keyringHolds {vault : Vault} (consistent : vault.Consistent aead) :
    vault.KeyringHolds aead := by
  rcases consistent with ⟨opened, kept, newestFound⟩
  rcases newest_spec newestFound with ⟨⟨key, listed⟩, greatest⟩
  refine ⟨kept.recorded, List.mem_map.mpr ⟨_, kept.mem_keys listed, rfl⟩, ?_, ?_⟩
  · intro id member
    rcases List.mem_map.mp member with ⟨entry, entryListed, rfl⟩
    rcases List.mem_map.mp (kept.ring.mem_iff.mpr entryListed) with ⟨held, heldListed, rfl⟩
    exact greatest held heldListed
  · intro entry member
    rcases exists_of_forall₂ kept.records member with ⟨⟨id, time, key⟩, heldListed, opens⟩
    exact ⟨id, time, key, eq_idBytes_of_parseId opens.1, opens.2,
      Listing.get?_of_mem (kept.mem_keys heldListed)⟩

/-! ## What does not open -/

/-- Bytes that end before their nonce does open under no data key. -/
theorem exists_fault_of_short (vault : Vault) {stored : Bytes}
    (short : stored.length < keyIdLength + nonceLength) :
    ∃ fault, vault.decrypt aead stored = .error fault := by
  rcases Nat.lt_or_ge stored.length keyIdLength with noNumber | enough
  · refine ⟨.keyIdMissing, ?_⟩
    rw [decrypt, Bytes.take?, if_neg (Nat.not_le.mpr noNumber)]
    rfl
  · rcases exists_eq_idBytes_append enough with ⟨id, rest, rfl⟩
    have number : (idBytes id).length = keyIdLength := Bytes.length_ofNat _ _
    rw [List.length_append, number] at short
    rw [decrypt_idBytes]
    cases vault.keys.get? id with
    | none => exact ⟨.keyUnknown id.toNat, rfl⟩
    | some key =>
      refine ⟨.nonceMissing, ?_⟩
      have noNonce : ¬nonceLength ≤ rest.length := by omega
      dsimp only
      rw [unlock, Bytes.take?, if_neg noNonce]

theorem decrypt_of_unknown (vault : Vault) {id : UInt32} (unknown : id ∉ vault.keys.keys)
    (rest : Bytes) : vault.decrypt aead (idBytes id ++ rest) = .error (.keyUnknown id.toNat) := by
  have absent : vault.keys.get? id = none := Listing.find?_eq_none_iff.mpr unknown
  rw [decrypt_idBytes, absent]

/-! ## One turn -/

/-- Whether a vault differs from an earlier one in what it reads from outside, and by one
new data key at most. -/
inductive Step (aead : Aead) (earlier : Vault) : Vault → Prop
  | kept (outside : Surroundings) : Step aead earlier { earlier with outside }
  | rotated (read outside : Surroundings) :
    Step aead earlier { ({ earlier with outside := read } : Vault).rotate aead with outside }

theorem Step.supplied {later earlier : Vault} (step : Step aead earlier later)
    (outside : Surroundings) : Step aead earlier { later with outside } := by
  cases step with
  | kept _ => exact .kept outside
  | rotated read _ => exact .rotated read outside

theorem Step.rotateIfStale (vault : Vault) (outside : Surroundings) :
    Step aead vault (({ vault with outside } : Vault).rotateIfStale aead) := by
  rw [Vault.rotateIfStale, checkAge]
  cases ({ vault with outside } : Vault).isStaleAt outside.clock.current with
  | false => exact .kept _
  | true => exact .rotated { outside with clock := outside.clock.advance } _

theorem Step.lockActive {ready earlier : Vault} (step : Step aead earlier ready) (plain : Bytes) :
    Step aead earlier (ready.lockActive aead plain).2 := by
  rw [Vault.lockActive]
  cases ready.keys.get? ready.active with
  | none => exact step
  | some key => exact step.supplied _

theorem active_lockActive (vault : Vault) (plain : Bytes) :
    (vault.lockActive aead plain).2.active = vault.active := by
  rw [lockActive]
  cases vault.keys.get? vault.active <;> rfl

/-- A value is sealed under the active key, once the vault is ready for it. -/
theorem exists_step_encrypt (aead : Aead) (vault : Vault) (plain : Bytes) :
    ∃ ready, Step aead vault ready ∧ vault.encrypt aead plain = ready.lockActive aead plain := by
  rw [encrypt, checkAge]
  cases vault.isStaleAt vault.outside.clock.current with
  | false => exact ⟨_, .kept _, rfl⟩
  | true => exact ⟨_, .rotateIfStale vault _, rfl⟩

theorem step_encrypt (vault : Vault) (plain : Bytes) :
    Step aead vault (vault.encrypt aead plain).2 := by
  rcases vault.exists_step_encrypt aead plain with ⟨ready, step, same⟩
  rw [same]
  exact step.lockActive plain

/-! ## What a turn preserves -/

/-- One if another data key is active afterwards, and else zero. -/
def turned (earlier later : Vault) : Nat :=
  if later.active = earlier.active then 0 else 1

/-- What is preserved while as many data keys are made. -/
structure Succeeds (aead : Aead) (later earlier : Vault) (made : Nat) : Prop where
  consistent : later.Consistent aead
  master : later.master = earlier.master
  extended : later.Extends earlier
  /-- A new number exceeds the old ones. -/
  fresh : ∀ id ∈ later.keys.keys, id ∈ earlier.keys.keys ∨ ∀ old ∈ earlier.keys.keys, old < id
  size : later.ringSize = earlier.ringSize + made

theorem Extends.mem_keys {later earlier : Vault} (extended : later.Extends earlier) {id : UInt32}
    (member : id ∈ earlier.keys.keys) : id ∈ later.keys.keys := by
  rcases Option.isSome_iff_exists.mp (Listing.isSome_get?_iff.mpr member) with ⟨key, held⟩
  exact Listing.isSome_get?_iff.mp (Option.isSome_of_eq_some (extended id key held))

theorem Succeeds.refl {vault : Vault} (consistent : vault.Consistent aead) :
    vault.Succeeds aead vault 0 :=
  ⟨consistent, rfl, Extends.refl vault, fun _ member => .inl member, rfl⟩

theorem Succeeds.trans {latest later earlier : Vault} {made more : Nat}
    (second : latest.Succeeds aead later more) (first : later.Succeeds aead earlier made) :
    latest.Succeeds aead earlier (made + more) where
  consistent := second.consistent
  master := second.master.trans first.master
  extended := second.extended.trans first.extended
  fresh id member := by
    rcases second.fresh id member with there | above
    · exact first.fresh id there
    · exact .inr fun old held => above old (first.extended.mem_keys held)
  size := by rw [second.size, first.size, Nat.add_assoc]

/-- The next number is the one after the active key's, whatever numbers are left. -/
theorem Consistent.nextId_eq {vault : Vault} (consistent : vault.Consistent aead) :
    vault.nextId = vault.active + 1 := by
  have holds := consistent.keyringHolds
  have largest : vault.keys.keys.max? = some vault.active :=
    List.max?_eq_some_iff.mpr ⟨holds.active, holds.newest⟩
  rw [nextId, largest]

theorem Consistent.nextId_ne {vault : Vault} (consistent : vault.Consistent aead) :
    vault.nextId ≠ vault.active := by
  rw [consistent.nextId_eq]
  intro same
  have next := congrArg UInt32.toNat same
  have one : (1 : UInt32).toNat = 1 := rfl
  rw [UInt32.toNat_add, one] at next
  omega

/-- A data key that is made is new, and the vault is as it was up to that. -/
theorem Consistent.rotate (sound : aead.Sound) {vault : Vault}
    (consistent : vault.Consistent aead) (room : vault.ringSize < capacity) :
    (vault.rotate aead).Succeeds aead vault 1 := by
  rcases consistent with ⟨opened, kept, _⟩
  have follows := kept.rotate sound room
  have above := (nextId_spec kept.bounded room).1
  have absent : vault.nextId ∉ vault.keys.keys := fun member => UInt32.lt_irrefl _ (above _ member)
  refine ⟨follows.consistent, follows.master, follows.extended, ?_, ?_⟩
  · intro id member
    rcases (Listing.mem_keys_put vault.nextId _ id vault.keys.entries).mp member with new | old
    · exact .inr (new ▸ above)
    · exact .inl old
  · exact ringSize_rotate_of_absent aead absent

theorem Consistent.supplied {vault : Vault} (consistent : vault.Consistent aead)
    (outside : Surroundings) : ({ vault with outside } : Vault).Succeeds aead vault 0 :=
  ⟨(consistent.follows_outside outside).consistent, rfl, Extends.refl vault,
    fun _ member => .inl member, rfl⟩

theorem Step.succeeds (sound : aead.Sound) {later earlier : Vault} (step : Step aead earlier later)
    (consistent : earlier.Consistent aead)
    (room : earlier.ringSize + earlier.turned later ≤ capacity) :
    later.Succeeds aead earlier (earlier.turned later) := by
  cases step with
  | kept outside =>
    rw [turned, if_pos rfl]
    exact consistent.supplied outside
  | rotated read outside =>
    have aged := consistent.supplied read
    have other : ({ earlier with outside := read } : Vault).nextId ≠ earlier.active :=
      aged.consistent.nextId_ne
    have one : earlier.turned
        { ({ earlier with outside := read } : Vault).rotate aead with outside } = 1 := if_neg other
    rw [one] at room ⊢
    have made := aged.consistent.rotate sound room
    exact (made.consistent.supplied outside).trans (made.trans aged)

theorem Consistent.reopened {vault : Vault} (consistent : vault.Consistent aead)
    (fits : Aead.isKeyLength vault.master.length = true) (rotation : Duration)
    (outside : Surroundings) :
    ∃ later, open? aead vault.master rotation vault.records outside = .ok later ∧
      later.Succeeds aead vault (vault.turned later) := by
  rcases consistent.reload rotation outside with
    ⟨later, loads, still, master, _, keys, size, active, _⟩
  refine ⟨later, open?_eq_ok_iff.mpr ⟨fits, loads⟩, still, master, ?_, ?_, ?_⟩
  · intro id key held
    rw [keys id]
    exact held
  · intro id member
    have held := Listing.isSome_get?_iff.mpr member
    rw [keys id] at held
    exact .inl (Listing.isSome_get?_iff.mp held)
  · rw [turned, if_pos active]
    exact size

/-- What is sealed opens again, while numbers last. -/
theorem Consistent.encrypt_within (sound : aead.Sound) {vault : Vault}
    (consistent : vault.Consistent aead) (plain : Bytes)
    (room : vault.ringSize + vault.turned (vault.encrypt aead plain).2 ≤ capacity) :
    ∃ stored, (vault.encrypt aead plain).1 = .ok stored ∧
      (vault.encrypt aead plain).2.decrypt aead stored = .ok plain := by
  rcases vault.exists_step_encrypt aead plain with ⟨ready, step, same⟩
  rw [same, turned, active_lockActive] at room
  rcases (step.succeeds sound consistent room).consistent.lockActive sound plain with
    ⟨stored, sealed, opened, _⟩
  rw [same]
  exact ⟨stored, sealed, opened⟩

/-! ## Any number of turns -/

/-- The vault after one turn. -/
def after (aead : Aead) (vault : Vault) : VaultCall → Except StoreError Vault
  | .encrypt plain => .ok (vault.encrypt aead plain).2
  | .rotateIfStale => .ok (vault.rotateIfStale aead)
  | .reopen rotation outside => open? aead vault.master rotation vault.records outside

/-- The vault after some turns, one after the other. -/
def afterAll (aead : Aead) (vault : Vault) (calls : List VaultCall) : Except StoreError Vault :=
  calls.foldlM (fun vault call => vault.after aead call) vault

/-- The number of turns that make a data key. -/
def rotations (aead : Aead) : Vault → List VaultCall → Nat
  | _, [] => 0
  | vault, call :: rest =>
    match vault.after aead call with
    | .error _ => 0
    | .ok later => vault.turned later + later.rotations aead rest

theorem rotations_le_length (vault : Vault) (calls : List VaultCall) :
    vault.rotations aead calls ≤ calls.length := by
  induction calls generalizing vault with
  | nil => exact Nat.le_refl 0
  | cons call rest hypothesis =>
    rw [rotations, List.length_cons]
    cases vault.after aead call with
    | error fault => exact Nat.zero_le _
    | ok later =>
      have one : vault.turned later ≤ 1 := by
        rw [turned]
        split <;> decide
      have others := hypothesis later
      dsimp only
      omega

theorem rotations_cons {vault later : Vault} {call : VaultCall}
    (same : vault.after aead call = .ok later) (rest : List VaultCall) :
    vault.rotations aead (call :: rest) = vault.turned later + later.rotations aead rest := by
  rw [rotations, same]

/-- A turn succeeds, and nothing is lost by it, while numbers last. -/
theorem Consistent.after (sound : aead.Sound) {vault : Vault}
    (consistent : vault.Consistent aead) (fits : Aead.isKeyLength vault.master.length = true)
    (call : VaultCall)
    (room : ∀ later, vault.after aead call = .ok later →
      vault.ringSize + vault.turned later ≤ capacity) :
    ∃ later, vault.after aead call = .ok later ∧
      later.Succeeds aead vault (vault.turned later) := by
  cases call with
  | encrypt plain =>
    exact ⟨_, rfl, (vault.step_encrypt plain).succeeds sound consistent (room _ rfl)⟩
  | rotateIfStale =>
    have step : Step aead vault (vault.rotateIfStale aead) := .rotateIfStale vault vault.outside
    exact ⟨_, rfl, step.succeeds sound consistent (room _ rfl)⟩
  | reopen rotation outside => exact consistent.reopened fits rotation outside

/-- Induction on the turns: `Succeeds` is preserved by each of them. -/
theorem Consistent.afterAll (sound : aead.Sound) {vault : Vault}
    (consistent : vault.Consistent aead) (fits : Aead.isKeyLength vault.master.length = true)
    {calls : List VaultCall}
    (lasts : vault.ringSize + vault.rotations aead calls ≤ capacity) :
    ∃ later, vault.afterAll aead calls = .ok later ∧
      later.Succeeds aead vault (vault.rotations aead calls) := by
  induction calls generalizing vault with
  | nil => exact ⟨vault, rfl, .refl consistent⟩
  | cons call rest hypothesis =>
    have room : ∀ later, vault.after aead call = .ok later →
        vault.ringSize + vault.turned later ≤ capacity := by
      intro later same
      rw [rotations_cons same] at lasts
      omega
    rcases consistent.after sound fits call room with ⟨later, same, first⟩
    rw [rotations_cons same, ← Nat.add_assoc, ← first.size] at lasts
    rw [← first.master] at fits
    rcases hypothesis first.consistent fits lasts with ⟨latest, others, second⟩
    rw [rotations_cons same]
    refine ⟨latest, ?_, second.trans first⟩
    rw [Vault.afterAll, List.foldlM_cons, same, ok_bind]
    exact others

theorem rotations_append (vault : Vault) (before rest : List VaultCall) :
    vault.rotations aead (before ++ rest) = vault.rotations aead before +
      match vault.afterAll aead before with
      | .error _ => 0
      | .ok between => between.rotations aead rest := by
  induction before generalizing vault with
  | nil => exact (Nat.zero_add _).symm
  | cons call before hypothesis =>
    rw [List.cons_append, rotations, rotations, afterAll, List.foldlM_cons]
    cases vault.after aead call with
    | error fault => rfl
    | ok later =>
      dsimp only
      rw [hypothesis, ok_bind, Nat.add_assoc]
      rfl

theorem afterAll_append (vault : Vault) (before rest : List VaultCall) :
    vault.afterAll aead (before ++ rest) =
      vault.afterAll aead before >>= fun between => between.afterAll aead rest :=
  List.foldlM_append

/-- A life may be looked at from any point between two turns. -/
theorem Consistent.between (sound : aead.Sound) {vault : Vault}
    (consistent : vault.Consistent aead) (fits : Aead.isKeyLength vault.master.length = true)
    {before rest : List VaultCall}
    (lasts : vault.ringSize + vault.rotations aead (before ++ rest) ≤ capacity) :
    ∃ between, vault.afterAll aead before = .ok between ∧
      vault.afterAll aead (before ++ rest) = between.afterAll aead rest ∧
      between.Consistent aead ∧ between.master = vault.master ∧
      between.ringSize + between.rotations aead rest ≤ capacity := by
  rw [rotations_append] at lasts
  have lastsBefore : vault.ringSize + vault.rotations aead before ≤ capacity := by omega
  rcases consistent.afterAll sound fits lastsBefore with ⟨between, ran, succeeds⟩
  rw [ran] at lasts
  refine ⟨between, ran, ?_, succeeds.consistent, succeeds.master, ?_⟩
  · rw [afterAll_append, ran, ok_bind]
  · rw [succeeds.size, Nat.add_assoc]
    exact lasts

/-- What is sealed first opens at the end. -/
theorem Consistent.decrypt_afterAll (sound : aead.Sound) {vault : Vault}
    (consistent : vault.Consistent aead) (fits : Aead.isKeyLength vault.master.length = true)
    {plain : Bytes} {rest : List VaultCall}
    (lasts : vault.ringSize + vault.rotations aead (.encrypt plain :: rest) ≤ capacity) :
    ∃ stored later, (vault.encrypt aead plain).1 = .ok stored ∧
      vault.afterAll aead (.encrypt plain :: rest) = .ok later ∧
      later.decrypt aead stored = .ok plain := by
  have turn : vault.after aead (.encrypt plain) = .ok (vault.encrypt aead plain).2 := rfl
  rw [rotations_cons turn, ← Nat.add_assoc] at lasts
  have room := Nat.le_trans (Nat.le_add_right _ _) lasts
  rcases consistent.encrypt_within sound plain room with ⟨stored, sealed, opened⟩
  have first := (vault.step_encrypt plain).succeeds sound consistent room
  rw [← first.size] at lasts
  rw [← first.master] at fits
  rcases first.consistent.afterAll sound fits lasts with ⟨later, ran, since⟩
  exact ⟨stored, later, sealed, ran, since.extended.decrypt opened⟩

/-- What a vault has of the states that it went through. -/
structure Retains (aead : Aead) (first : Vault) (calls : List VaultCall) (vault : Vault) :
    Prop where
  /-- Data keys are kept, and those made later have greater numbers. -/
  keys : ∀ before rest, calls = before ++ rest →
    ∃ earlier, first.afterAll aead before = .ok earlier ∧ vault.Extends earlier ∧
      ∀ id ∈ vault.keys.keys, id ∈ earlier.keys.keys ∨ ∀ old ∈ earlier.keys.keys, old < id
  /-- All values were sealed, and all of them open. -/
  values : ∀ before plain rest, calls = before ++ .encrypt plain :: rest →
    ∃ earlier stored, first.afterAll aead before = .ok earlier ∧
      (earlier.encrypt aead plain).1 = .ok stored ∧ vault.decrypt aead stored = .ok plain

theorem Consistent.retains (sound : aead.Sound) {first vault : Vault}
    (consistent : first.Consistent aead) (fits : Aead.isKeyLength first.master.length = true)
    {calls : List VaultCall}
    (lasts : first.ringSize + first.rotations aead calls ≤ capacity)
    (ran : first.afterAll aead calls = .ok vault) : Retains aead first calls vault := by
  constructor
  · rintro before rest rfl
    rcases consistent.between sound fits lasts with
      ⟨earlier, ranBefore, ranRest, still, master, room⟩
    rw [← master] at fits
    rcases still.afterAll sound fits room with ⟨later, reached, succeeds⟩
    rw [ran, reached] at ranRest
    cases ranRest
    exact ⟨earlier, ranBefore, succeeds.extended, succeeds.fresh⟩
  · rintro before plain rest rfl
    rcases consistent.between sound fits lasts with
      ⟨earlier, ranBefore, ranRest, still, master, room⟩
    rw [← master] at fits
    rcases still.decrypt_afterAll sound fits room with ⟨stored, later, sealed, reached, opened⟩
    rw [ran, reached] at ranRest
    cases ranRest
    exact ⟨earlier, stored, ranBefore, sealed, opened⟩

/-! ## Whole lives -/

theorem ringSize_of_load?_empty {master : Bytes} {rotation : Duration} {outside : Surroundings}
    {first : Vault} (loads : load? aead master rotation .empty outside = .ok first) :
    first.ringSize = 1 := by
  cases loads
  rfl

/-- A vault with a master key that AES knows can be made and used in any way.  While it has
made fewer than `2 ^ 32 - 1` data keys after the first, it holds one for each, as its
records do, the active one is the newest, and it has lost nothing of what it was.  What
begins with another number or ends too early does not open. -/
theorem calls_keep_keyring (sound : aead.Sound) (master : Bytes)
    (fits : Aead.isKeyLength master.length = true) (rotation : Duration)
    (outside : Surroundings) (calls : List VaultCall) :
    ∃ first, open? aead master rotation .empty outside = .ok first ∧
      (first.rotations aead calls < capacity →
        ∃ vault, first.afterAll aead calls = .ok vault ∧
          vault.master = master ∧ vault.KeyringHolds aead ∧
          vault.keys.keys.length = first.rotations aead calls + 1 ∧
          Retains aead first calls vault ∧
          (∀ stored : Bytes, stored.length < keyIdLength + nonceLength →
            ∃ fault, vault.decrypt aead stored = .error fault) ∧
          ∀ id, id ∉ vault.keys.keys → ∀ rest,
            vault.decrypt aead (idBytes id ++ rest) = .error (.keyUnknown id.toNat)) := by
  rcases load?_empty sound master rotation outside with ⟨first, loads, consistent, given, _⟩
  refine ⟨first, open?_eq_ok_iff.mpr ⟨fits, loads⟩, ?_⟩
  intro few
  have one := ringSize_of_load?_empty loads
  have lasts : first.ringSize + first.rotations aead calls ≤ capacity := by omega
  rw [← given] at fits
  rcases consistent.afterAll sound fits lasts with ⟨vault, ran, succeeds⟩
  refine ⟨vault, ran, succeeds.master.trans given, succeeds.consistent.keyringHolds, ?_,
    consistent.retains sound fits lasts ran, fun stored => vault.exists_fault_of_short,
    fun id => vault.decrypt_of_unknown⟩
  have size := succeeds.size
  rw [one, Nat.add_comm] at size
  rw [Listing.keys, List.length_map]
  exact size

/-- A clock that runs backwards, and supplies that give the same bytes again and again. -/
def backwards : Surroundings :=
  ⟨⟨fun place => UInt64.ofNat (1000 - place), 0⟩, .constant ⟨List.replicate nonceLength 1, rfl⟩,
    .constant ⟨List.replicate 32 2, rfl⟩⟩

/-- The data key may change at every turn, and then for an hour it may not. -/
def shortLife : List VaultCall :=
  [.encrypt [1, 2, 3], .rotateIfStale, .reopen (.ofSeconds 3600) backwards, .encrypt []]

/-- Under the mode that is used the first value opens at the end. -/
theorem shortLife_keeps_value :
    ∃ first vault stored,
      open? Gcm.aead (List.replicate 32 7) (.ofSeconds 0) .empty backwards = .ok first ∧
      first.rotations Gcm.aead shortLife < capacity ∧
      first.afterAll Gcm.aead shortLife = .ok vault ∧ vault.KeyringHolds Gcm.aead ∧
      (first.encrypt Gcm.aead [1, 2, 3]).1 = .ok stored ∧
      vault.decrypt Gcm.aead stored = .ok [1, 2, 3] := by
  rcases calls_keep_keyring Gcm.aead_sound (List.replicate 32 7) rfl (.ofSeconds 0) backwards
    shortLife with ⟨first, opens, lives⟩
  have few : first.rotations Gcm.aead shortLife < capacity :=
    Nat.lt_of_le_of_lt (first.rotations_le_length shortLife) (by decide)
  rcases lives few with ⟨vault, ran, _, holds, _, retains, _⟩
  rcases retains.values [] [1, 2, 3] shortLife.tail rfl with
    ⟨earlier, stored, start, sealed, opened⟩
  cases start
  exact ⟨first, vault, stored, opens, few, ran, holds, sealed, opened⟩

end Vault
end TypedStore
