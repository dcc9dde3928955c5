import TypedStore.Proofs.Cipher.Ring

/-!
# Vaults stay consistent

`Vault.Kept` says what the records of a vault hold: the data keys of its ring,
with their times.  `Vault.Consistent` adds that the active key is the newest.
Opening a vault makes it so, and everything a vault does keeps it so: looking
at the clock, sealing a value, and making a data key while numbers are left.

`Vault.Follows` is what one step of a vault guarantees to those who use it
afterwards.  What was sealed before opens after, and the records a later vault
would be opened from are in order.
-/

namespace TypedStore
namespace Vault

variable {aead : Aead}

/-- The number of data keys. -/
def ringSize (vault : Vault) : Nat :=
  vault.keys.entries.length

/-- With fewer data keys than this the next number does not overflow. -/
def capacity : Nat := 0xffffffff

/-- The records hold the ring, and its numbers are small. -/
structure Kept (aead : Aead) (vault : Vault) (opened : List (UInt32 × UInt64 × DataKey)) :
    Prop where
  records : List.Forall₂ (Opens aead vault.master) vault.records.entries opened
  ring : (opened.map fun held => (held.1, held.2.2)).Perm vault.keys.entries
  bounded : ∀ id ∈ vault.keys.keys, id.toNat ≤ vault.ringSize

/-- The records hold the ring, and the active key is the newest. -/
def Consistent (aead : Aead) (vault : Vault) : Prop :=
  ∃ opened, vault.Kept aead opened ∧ newest opened = some (vault.active, vault.createdAt)

/-- What one vault guarantees if it comes from another. -/
structure Follows (aead : Aead) (later earlier : Vault) : Prop where
  consistent : later.Consistent aead
  extended : later.Extends earlier
  master : later.master = earlier.master
  rotation : later.rotation = earlier.rotation

theorem Follows.trans {latest later earlier : Vault} (second : latest.Follows aead later)
    (first : later.Follows aead earlier) : latest.Follows aead earlier where
  consistent := second.consistent
  extended := second.extended.trans first.extended
  master := second.master.trans first.master
  rotation := second.rotation.trans first.rotation

theorem Kept.distinct {vault : Vault} {opened : List (UInt32 × UInt64 × DataKey)}
    (kept : vault.Kept aead opened) : (opened.map Prod.fst).Nodup := by
  have keys : (opened.map Prod.fst).Perm vault.keys.keys := by
    have mapped := kept.ring.map Prod.fst
    rw [List.map_map] at mapped
    exact mapped
  exact keys.nodup_iff.mpr vault.keys.distinct

theorem Kept.mem_keys {vault : Vault} {opened : List (UInt32 × UInt64 × DataKey)}
    (kept : vault.Kept aead opened) {held : UInt32 × UInt64 × DataKey} (member : held ∈ opened) :
    (held.1, held.2.2) ∈ vault.keys.entries :=
  kept.ring.mem_iff.mp (List.mem_map.mpr ⟨held, member, rfl⟩)

theorem Consistent.active_held {vault : Vault} (consistent : vault.Consistent aead) :
    ∃ key, vault.keys.get? vault.active = some key := by
  rcases consistent with ⟨opened, kept, newestFound⟩
  rcases (newest_spec newestFound).1 with ⟨key, listed⟩
  exact ⟨key, Listing.get?_of_mem (kept.mem_keys listed)⟩

/-- What comes from outside does not matter to the ring and its records. -/
theorem Consistent.follows_outside {vault : Vault} (consistent : vault.Consistent aead)
    (outside : Surroundings) : ({ vault with outside } : Vault).Follows aead vault := by
  rcases consistent with ⟨opened, kept, newestFound⟩
  exact ⟨⟨opened, ⟨kept.records, kept.ring, kept.bounded⟩, newestFound⟩, fun _ _ held => held,
    rfl, rfl⟩

/-! ## Making a data key -/

/-- The next number is new as long as numbers are left. -/
theorem nextId_spec {vault : Vault} {most : Nat}
    (bounded : ∀ id ∈ vault.keys.keys, id.toNat ≤ most) (room : most < capacity) :
    (∀ id ∈ vault.keys.keys, id < vault.nextId) ∧ vault.nextId.toNat ≤ most + 1 := by
  rw [nextId]
  cases found : vault.keys.keys.max? with
  | none =>
    have empty : vault.keys.keys = [] := List.max?_eq_none_iff.mp found
    refine ⟨?_, Nat.le_add_left 1 _⟩
    intro id member
    rw [empty] at member
    cases member
  | some largest =>
    rcases List.max?_eq_some_iff.mp found with ⟨listed, greatest⟩
    have small : largest.toNat ≤ most := bounded largest listed
    have room : most < 0xffffffff := room
    have one : (1 : UInt32).toNat = 1 := rfl
    have next : (largest + 1).toNat = largest.toNat + 1 := by
      rw [UInt32.toNat_add, one]
      omega
    dsimp only
    rw [next]
    refine ⟨?_, by omega⟩
    intro id member
    have below := UInt32.le_iff_toNat_le.mp (greatest id member)
    rw [UInt32.lt_iff_toNat_lt, next]
    omega

theorem ringSize_rotate_of_absent (aead : Aead) {vault : Vault}
    (absent : vault.nextId ∉ vault.keys.keys) :
    (vault.rotate aead).ringSize = vault.ringSize + 1 := by
  have order := vault.keys.entries_insert_perm vault.nextId vault.outside.dataKeys.current
  rw [Listing.filter_of_absent absent] at order
  have length := order.length_eq
  rw [List.length_append] at length
  exact length

theorem ringSize_rotate_le (aead : Aead) (vault : Vault) :
    vault.ringSize ≤ (vault.rotate aead).ringSize := by
  cases held : vault.keys.get? vault.nextId with
  | none =>
    rw [ringSize_rotate_of_absent aead (Listing.find?_eq_none_iff.mp held)]
    exact Nat.le_succ _
  | some key =>
    have order := vault.keys.entries_insert_perm vault.nextId vault.outside.dataKeys.current
    have length := order.length_eq
    rw [List.length_append, List.length_singleton] at length
    have whole := Listing.length_filter_of_mem vault.keys.distinct (Listing.mem_of_find? held)
    exact Nat.le_of_eq (length.trans whole).symm

/-- A number that is not in the ring is not in the records either. -/
theorem Kept.unrecorded {vault : Vault} {opened : List (UInt32 × UInt64 × DataKey)}
    (kept : vault.Kept aead opened) {id : UInt32} (absent : id ∉ vault.keys.keys) :
    idBytes id ∉ vault.records.entries.map Prod.fst := by
  intro member
  rcases List.mem_map.mp member with ⟨entry, listed, same⟩
  rcases exists_of_forall₂ kept.records listed with ⟨held, heldListed, parsed, _⟩
  rw [same, parseId_idBytes] at parsed
  apply absent
  rw [Except.ok.inj parsed]
  exact List.mem_map.mpr ⟨_, kept.mem_keys heldListed, rfl⟩

/-- A new data key joins the records and the ring.  Its entry stands somewhere
among the records, so what they hold is known up to the order only. -/
theorem Kept.joined (sound : aead.Sound) {vault : Vault}
    {opened : List (UInt32 × UInt64 × DataKey)} (kept : vault.Kept aead opened)
    (absent : vault.nextId ∉ vault.keys.keys) (small : vault.nextId.toNat ≤ vault.ringSize + 1) :
    ∃ opened', (vault.rotate aead).Kept aead opened' ∧
      opened'.Perm (opened ++
        [(vault.nextId, vault.outside.clock.current, vault.outside.dataKeys.current)]) := by
  have newOpens : Opens aead vault.master
      (idBytes vault.nextId, Bytes.ofNat timeLength vault.outside.clock.current.toNat ++
        lock aead vault.master vault.outside.nonces.current vault.outside.dataKeys.current.val)
      (vault.nextId, vault.outside.clock.current, vault.outside.dataKeys.current) :=
    ⟨parseId_idBytes _, openRecord_lock sound _ _ _ _⟩
  have records := vault.records.entries_insert_perm (idBytes vault.nextId)
    (Bytes.ofNat timeLength vault.outside.clock.current.toNat ++
      lock aead vault.master vault.outside.nonces.current vault.outside.dataKeys.current.val)
  rw [Listing.filter_of_absent (kept.unrecorded absent)] at records
  rcases List.perm_comp_forall₂ records
    (List.rel_append kept.records (List.Forall₂.cons newOpens List.Forall₂.nil)) with
    ⟨opened', pairs, order⟩
  have ring := vault.keys.entries_insert_perm vault.nextId vault.outside.dataKeys.current
  rw [Listing.filter_of_absent absent] at ring
  refine ⟨opened', ⟨pairs, ?_, ?_⟩, order⟩
  · apply (order.map _).trans
    rw [List.map_append]
    exact (kept.ring.append_right _).trans ring.symm
  · intro id member
    rw [ringSize_rotate_of_absent aead absent]
    rcases (Listing.mem_keys_put vault.nextId _ id vault.keys.entries).mp member with here | old
    · rw [here]
      exact small
    · exact Nat.le_succ_of_le (kept.bounded id old)

/-- The new data key is the newest, and all others are still there. -/
theorem Kept.rotate (sound : aead.Sound) {vault : Vault}
    {opened : List (UInt32 × UInt64 × DataKey)} (kept : vault.Kept aead opened)
    (room : vault.ringSize < capacity) : (vault.rotate aead).Follows aead vault := by
  rcases nextId_spec kept.bounded room with ⟨fresh, small⟩
  have absent : vault.nextId ∉ vault.keys.keys := fun member =>
    UInt32.lt_irrefl _ (fresh _ member)
  rcases kept.joined sound absent small with ⟨opened', kept', order⟩
  refine ⟨⟨opened', kept', ?_⟩, ?_, rfl, rfl⟩
  · have member : (vault.nextId, vault.outside.clock.current, vault.outside.dataKeys.current) ∈
        opened' := order.mem_iff.mpr (List.mem_append_right _ List.mem_cons_self)
    apply newest_of_greatest kept'.distinct member
    intro held listed
    rcases List.mem_append.mp (order.mem_iff.mp listed) with old | new
    · exact UInt32.le_of_lt (fresh _ (List.mem_map.mpr ⟨_, kept.mem_keys old, rfl⟩))
    · rw [List.mem_singleton.mp new]
      exact UInt32.le_refl _
  · intro id key held
    change (vault.keys.insert _ _).get? id = some key
    rw [Listing.get?_insert, if_neg, held]
    intro same
    rw [same] at held
    exact absent (List.mem_map.mpr ⟨_, Listing.mem_of_find? held, rfl⟩)

/-! ## Sealing values -/

theorem ringSize_rotateIfStale_le (aead : Aead) (vault : Vault) :
    vault.ringSize ≤ (vault.rotateIfStale aead).ringSize := by
  rw [rotateIfStale, checkAge]
  cases vault.isStaleAt vault.outside.clock.current with
  | true => exact ringSize_rotate_le aead _
  | false => exact Nat.le_refl _

theorem ringSize_lockActive (plain : Bytes) (vault : Vault) :
    (vault.lockActive aead plain).2.ringSize = vault.ringSize := by
  rw [lockActive]
  cases vault.keys.get? vault.active <;> rfl

theorem ringSize_encrypt_le (plain : Bytes) (vault : Vault) :
    vault.ringSize ≤ (vault.encrypt aead plain).2.ringSize := by
  rw [encrypt, checkAge]
  cases vault.isStaleAt vault.outside.clock.current with
  | true =>
    dsimp only
    rw [ringSize_lockActive]
    exact ringSize_rotateIfStale_le aead { vault with
      outside := { vault.outside with clock := vault.outside.clock.advance } }
  | false =>
    dsimp only
    rw [ringSize_lockActive]
    exact Nat.le_refl _

theorem Consistent.rotateIfStale (sound : aead.Sound) {vault : Vault}
    (consistent : vault.Consistent aead) (room : vault.ringSize < capacity) :
    (vault.rotateIfStale aead).Follows aead vault := by
  have aged := consistent.follows_outside
    { vault.outside with clock := vault.outside.clock.advance }
  rw [Vault.rotateIfStale, checkAge]
  cases vault.isStaleAt vault.outside.clock.current with
  | false => exact aged
  | true =>
    rcases aged.consistent with ⟨opened, kept, _⟩
    exact (kept.rotate sound room).trans aged

theorem Consistent.lockActive (sound : aead.Sound) {vault : Vault}
    (consistent : vault.Consistent aead) (plain : Bytes) :
    ∃ stored, (vault.lockActive aead plain).1 = .ok stored ∧
      (vault.lockActive aead plain).2.decrypt aead stored = .ok plain ∧
      (vault.lockActive aead plain).2.Follows aead vault := by
  rcases consistent.active_held with ⟨key, held⟩
  have used := consistent.follows_outside
    { vault.outside with nonces := vault.outside.nonces.advance }
  rw [Vault.lockActive, held]
  refine ⟨_, rfl, ?_, used⟩
  exact used.extended.decrypt (decrypt_lock sound held vault.outside.nonces.current plain)

/-- Sealing succeeds, what it gives opens again, and so does all that was sealed
before. -/
theorem Consistent.encrypt (sound : aead.Sound) {vault : Vault}
    (consistent : vault.Consistent aead) (room : vault.ringSize < capacity) (plain : Bytes) :
    ∃ stored, (vault.encrypt aead plain).1 = .ok stored ∧
      (vault.encrypt aead plain).2.decrypt aead stored = .ok plain ∧
      (vault.encrypt aead plain).2.Follows aead vault := by
  have aged := consistent.follows_outside
    { vault.outside with clock := vault.outside.clock.advance }
  rw [Vault.encrypt, checkAge]
  cases vault.isStaleAt vault.outside.clock.current with
  | false =>
    rcases aged.consistent.lockActive sound plain with ⟨stored, sealed, opened, follows⟩
    exact ⟨stored, sealed, opened, follows.trans aged⟩
  | true =>
    have rotated := aged.consistent.rotateIfStale sound room
    rcases rotated.consistent.lockActive sound plain with ⟨stored, sealed, opened, follows⟩
    exact ⟨stored, sealed, opened, follows.trans (rotated.trans aged)⟩

/-! ## Opening -/

/-- The ring that opened records make, whatever the ring before them. -/
theorem entries_foldl_insert (opened : List (UInt32 × UInt64 × DataKey))
    (start : Listing UInt32 DataKey)
    (distinct : (start.keys ++ opened.map Prod.fst).Nodup) :
    (opened.foldl (fun keys (id, _, key) => keys.insert id key) start).entries =
      start.entries ++ opened.map fun held => (held.1, held.2.2) := by
  induction opened generalizing start with
  | nil => exact (List.append_nil _).symm
  | cons first rest hypothesis =>
    rcases first with ⟨id, time, key⟩
    have absent : id ∉ start.keys := by
      intro member
      exact (List.nodup_append.mp distinct).2.2 id member id List.mem_cons_self rfl
    have entries : (start.insert id key).entries = start.entries ++ [(id, key)] :=
      Listing.put_of_absent key absent
    have keys : (start.insert id key).keys = start.keys ++ [id] := by
      rw [Listing.keys, entries, List.map_append]
      rfl
    have later : ((start.insert id key).keys ++ rest.map Prod.fst).Nodup := by
      rw [keys, List.append_assoc]
      exact distinct
    rw [List.foldl_cons]
    dsimp only
    rw [hypothesis _ later, entries, List.append_assoc]
    rfl

/-- Opening is loading with a master key of a length that AES knows. -/
theorem open?_eq_ok_iff {master : Bytes} {rotation : Duration} {records : Tree}
    {outside : Surroundings} {vault : Vault} :
    open? aead master rotation records outside = .ok vault ↔
      Aead.isKeyLength master.length = true ∧
        load? aead master rotation records outside = .ok vault := by
  rw [open?]
  by_cases fits : Aead.isKeyLength master.length = true
  · rw [if_pos fits]
    refine ⟨fun opened => ⟨fits, of_mapError_eq_ok opened⟩, ?_⟩
    rintro ⟨_, loaded⟩
    rw [loaded]
    rfl
  · rw [if_neg fits]
    constructor
    · intro same
      cases same
    · rintro ⟨fitting, _⟩
      exact absurd fitting fits

/-- A vault made where there are no records has one data key. -/
theorem load?_empty (sound : aead.Sound) (master : Bytes) (rotation : Duration)
    (outside : Surroundings) :
    ∃ vault, load? aead master rotation .empty outside = .ok vault ∧ vault.Consistent aead ∧
      vault.master = master ∧ vault.rotation = rotation := by
  have kept : Kept aead
      { master, rotation, records := .empty, keys := .empty, active := 0, createdAt := 0, outside }
      [] := by
    refine ⟨List.Forall₂.nil, List.Perm.refl _, ?_⟩
    intro id member
    cases member
  have room : 0 < capacity := by decide
  have follows := kept.rotate sound room
  exact ⟨_, rfl, follows.consistent, follows.master, follows.rotation⟩

/-- A vault loaded from the records of a consistent one has the same ring and the
same active key. -/
theorem Consistent.reload {vault : Vault} (consistent : vault.Consistent aead)
    (rotation : Duration) (outside : Surroundings) :
    ∃ later, load? aead vault.master rotation vault.records outside = .ok later ∧
      later.Consistent aead ∧ later.master = vault.master ∧ later.records = vault.records ∧
      (∀ id, later.keys.get? id = vault.keys.get? id) ∧ later.ringSize = vault.ringSize ∧
      later.active = vault.active ∧ later.rotation = rotation := by
  rcases consistent with ⟨opened, kept, newestFound⟩
  have entries := entries_foldl_insert opened .empty kept.distinct
  have ring : (opened.foldl (fun keys (id, _, key) => keys.insert id key)
      Listing.empty).entries.Perm vault.keys.entries := by
    rw [entries]
    exact kept.ring
  have loads : load? aead vault.master rotation vault.records outside = .ok
      { master := vault.master, rotation, records := vault.records,
        keys := opened.foldl (fun keys (id, _, key) => keys.insert id key) Listing.empty,
        active := vault.active, createdAt := vault.createdAt, outside } := by
    rw [load?, openRecords_eq_ok_iff.mpr kept.records, ok_bind, newestFound]
    rfl
  refine ⟨_, loads, ⟨opened, ⟨kept.records, ?_, ?_⟩, newestFound⟩, rfl, rfl, ?_, ring.length_eq,
    rfl, rfl⟩
  · exact kept.ring.trans ring.symm
  · intro id member
    change id.toNat ≤ (opened.foldl _ Listing.empty).entries.length
    rw [ring.length_eq]
    exact kept.bounded id ((ring.map Prod.fst).mem_iff.mp member)
  · intro id
    exact Listing.find?_perm ring vault.keys.distinct

end Vault
end TypedStore
