import TypedStore.Proofs.Cipher.Consistency

/-!
# The numbers of data keys

Data keys are numbered from one on, in the order in which they are made.  So the
number of a data key is at most the number of records, whatever the cipher does, and
what a vault seals begins with such a number.  As long as there are fewer than
`2 ^ 31` records, the first byte of sealed bytes is below `0x80`, and bytes that begin
with a greater one were sealed under no data key of the vault.
-/

namespace TypedStore
namespace Vault

variable {aead : Aead} {vault : Vault}

/-- Whether the entries of a tree are under numbers of data keys, none greater than their
number. -/
def RecordsNumbered (records : Tree) : Prop :=
  ∀ entry ∈ records.entries, ∃ id : UInt32, entry.1 = idBytes id ∧ id.toNat ≤ records.size

/-- Whether the ring and the records of a vault have the same numbers, none greater than
their number. -/
structure Numbered (vault : Vault) : Prop where
  bounded : ∀ id ∈ vault.keys.keys, id.toNat ≤ vault.records.size
  recorded : ∀ entry ∈ vault.records.entries, ∃ id ∈ vault.keys.keys, entry.1 = idBytes id

/-- Whether bytes begin with one of the first numbers, and do not end there. -/
def MarkedWithin (most : Nat) (stored : Bytes) : Prop :=
  ∃ (id : UInt32) (rest : Bytes), id.toNat ≤ most ∧ rest ≠ [] ∧ stored = idBytes id ++ rest

theorem MarkedWithin.mono {most more : Nat} {stored : Bytes} (marked : MarkedWithin most stored)
    (le : most ≤ more) : MarkedWithin more stored := by
  rcases marked with ⟨id, rest, small, goesOn, same⟩
  exact ⟨id, rest, Nat.le_trans small le, goesOn, same⟩

theorem idBytes_injective {first second : UInt32} (same : idBytes first = idBytes second) :
    first = second := by
  have parsed := parseId_idBytes first
  rw [same, parseId_idBytes] at parsed
  exact (Except.ok.inj parsed).symm

theorem Numbered.recordsNumbered (numbered : vault.Numbered) : RecordsNumbered vault.records := by
  intro entry member
  rcases numbered.recorded entry member with ⟨id, held, same⟩
  exact ⟨id, same, numbered.bounded id held⟩

/-! ## Making data keys -/

theorem size_rotate_le (aead : Aead) (vault : Vault) :
    vault.records.size ≤ (vault.rotate aead).records.size := by
  change _ ≤ (vault.records.insert (idBytes vault.nextId) _).size
  rw [Tree.size_insert]
  split
  · exact Nat.le_refl _
  · exact Nat.le_succ _

/-- The next number has no record yet. -/
theorem Numbered.size_rotate (numbered : vault.Numbered) (aead : Aead)
    (room : vault.records.size < capacity) :
    (vault.rotate aead).records.size = vault.records.size + 1 := by
  have absent : vault.records.get? (idBytes vault.nextId) = none := by
    rw [Tree.get?_eq_listing, Listing.find?_eq_none_iff]
    intro member
    rcases List.mem_map.mp member with ⟨entry, listed, same⟩
    rcases numbered.recorded entry listed with ⟨id, held, recorded⟩
    rw [recorded] at same
    rw [idBytes_injective same] at held
    exact UInt32.lt_irrefl _ ((nextId_spec numbered.bounded room).1 _ held)
  change (vault.records.insert (idBytes vault.nextId) _).size = _
  rw [Tree.size_insert, absent]
  rfl

theorem Numbered.rotate (numbered : vault.Numbered) (aead : Aead)
    (room : vault.records.size < capacity) : (vault.rotate aead).Numbered := by
  have keys : ∀ id, id ∈ (vault.rotate aead).keys.keys ↔
      id = vault.nextId ∨ id ∈ vault.keys.keys :=
    fun id => Listing.mem_keys_put vault.nextId _ id vault.keys.entries
  constructor
  · intro id member
    rw [numbered.size_rotate aead room]
    rcases (keys id).mp member with here | old
    · rw [here]
      exact (nextId_spec numbered.bounded room).2
    · exact Nat.le_succ_of_le (numbered.bounded id old)
  · intro entry member
    rcases Tree.mem_put member with here | old
    · exact ⟨vault.nextId, (keys _).mpr (.inl rfl), congrArg Prod.fst here⟩
    · rcases numbered.recorded entry old with ⟨id, held, same⟩
      exact ⟨id, (keys id).mpr (.inr held), same⟩

theorem size_rotateIfStale_le (aead : Aead) (vault : Vault) :
    vault.records.size ≤ (vault.rotateIfStale aead).records.size := by
  rw [rotateIfStale, checkAge]
  cases vault.isStaleAt vault.outside.clock.current with
  | true => exact size_rotate_le aead { vault with
      outside := { vault.outside with clock := vault.outside.clock.advance } }
  | false => exact Nat.le_refl _

/-- What comes from outside does not matter to the numbers. -/
theorem Numbered.supplied (numbered : vault.Numbered) (outside : Surroundings) :
    ({ vault with outside } : Vault).Numbered :=
  ⟨numbered.bounded, numbered.recorded⟩

theorem Numbered.rotateIfStale (numbered : vault.Numbered) (aead : Aead)
    (room : vault.records.size < capacity) : (vault.rotateIfStale aead).Numbered := by
  have aged := numbered.supplied
    { vault.outside with clock := vault.outside.clock.advance }
  rw [Vault.rotateIfStale, checkAge]
  cases vault.isStaleAt vault.outside.clock.current with
  | true => exact aged.rotate aead room
  | false => exact aged

/-! ## Sealing values -/

theorem records_lockActive (plain : Bytes) (vault : Vault) :
    (vault.lockActive aead plain).2.records = vault.records := by
  rw [lockActive]
  cases vault.keys.get? vault.active <;> rfl

theorem Numbered.lockActive (numbered : vault.Numbered) (plain : Bytes) :
    (vault.lockActive aead plain).2.Numbered ∧
      ∀ stored, (vault.lockActive aead plain).1 = .ok stored →
        MarkedWithin vault.records.size stored := by
  rw [Vault.lockActive]
  cases held : vault.keys.get? vault.active with
  | none =>
    refine ⟨numbered, ?_⟩
    intro stored impossible
    cases impossible
  | some key =>
    refine ⟨numbered.supplied _, ?_⟩
    intro stored same
    cases same
    have listed : vault.active ∈ vault.keys.keys :=
      List.mem_map.mpr ⟨_, Listing.mem_of_find? held, rfl⟩
    refine ⟨vault.active, _, numbered.bounded _ listed, ?_, rfl⟩
    intro empty
    have nonce := vault.outside.nonces.current.property
    rw [(List.append_eq_nil_iff.mp empty).1] at nonce
    cases nonce

/-- Sealing is sealing under the active key of a vault that may have made one more. -/
theorem encrypt_eq_lockActive (aead : Aead) (plain : Bytes) (vault : Vault) :
    ∃ ready : Vault, vault.encrypt aead plain = ready.lockActive aead plain ∧
      vault.records.size ≤ ready.records.size ∧
      (vault.records.size < capacity → vault.Numbered → ready.Numbered) := by
  rw [encrypt, checkAge]
  cases vault.isStaleAt vault.outside.clock.current with
  | false => exact ⟨_, rfl, Nat.le_refl _, fun _ numbered => numbered.supplied _⟩
  | true =>
    refine ⟨_, rfl, size_rotateIfStale_le aead { vault with
      outside := { vault.outside with clock := vault.outside.clock.advance } }, ?_⟩
    intro room numbered
    exact (numbered.supplied _).rotateIfStale aead room

theorem size_encrypt_le (aead : Aead) (plain : Bytes) (vault : Vault) :
    vault.records.size ≤ (vault.encrypt aead plain).2.records.size := by
  rcases encrypt_eq_lockActive aead plain vault with ⟨ready, same, grown, _⟩
  rw [same, records_lockActive]
  exact grown

/-- What is sealed begins with the number of a data key that has a record. -/
theorem Numbered.encrypt (numbered : vault.Numbered) (room : vault.records.size < capacity)
    (plain : Bytes) :
    (vault.encrypt aead plain).2.Numbered ∧
      ∀ stored, (vault.encrypt aead plain).1 = .ok stored →
        MarkedWithin (vault.encrypt aead plain).2.records.size stored := by
  rcases encrypt_eq_lockActive aead plain vault with ⟨ready, same, _, still⟩
  rw [same, records_lockActive]
  exact (still room numbered).lockActive plain

/-! ## Opening -/

theorem mem_keys_foldl_insert (opened : List (UInt32 × UInt64 × DataKey))
    (start : Listing UInt32 DataKey) (id : UInt32) :
    id ∈ (opened.foldl (fun keys (id, _, key) => keys.insert id key) start).keys ↔
      id ∈ start.keys ∨ id ∈ opened.map Prod.fst := by
  induction opened generalizing start with
  | nil => exact (or_iff_left List.not_mem_nil).symm
  | cons first rest hypothesis =>
    rcases first with ⟨firstId, time, key⟩
    rw [List.foldl_cons, hypothesis, List.map_cons, List.mem_cons]
    have inserted := Listing.mem_keys_put firstId key id start.entries
    change id ∈ (start.insert firstId key).keys ↔ id = firstId ∨ id ∈ start.keys at inserted
    rw [inserted, or_assoc, or_left_comm]

/-- A vault has the records that it is opened from, and one more if there was none. -/
theorem size_le_of_open {master : Bytes} {rotation : Duration} {records : Tree}
    {outside : Surroundings} (opens : open? aead master rotation records outside = .ok vault) :
    records.size ≤ vault.records.size := by
  rcases exists_of_bind_eq_ok (open?_eq_ok_iff.mp opens).2 with ⟨opened, _, made⟩
  split at made
  · cases made
    exact Nat.le_refl _
  · rw [← Except.ok.inj made]
    exact size_rotate_le aead ⟨master, rotation, records, _, 0, 0, outside⟩

/-- A vault opened from numbered records is numbered. -/
theorem Numbered.of_open {master : Bytes} {rotation : Duration} {records : Tree}
    {outside : Surroundings} (numbered : RecordsNumbered records)
    (opens : open? aead master rotation records outside = .ok vault) : vault.Numbered := by
  rcases exists_of_bind_eq_ok (open?_eq_ok_iff.mp opens).2 with ⟨opened, recordsOpened, made⟩
  have pairs := openRecords_eq_ok_iff.mp recordsOpened
  have ring : ∀ active createdAt, Numbered
      { master, rotation, records,
        keys := opened.foldl (fun keys (id, _, key) => keys.insert id key) Listing.empty,
        active, createdAt, outside } := by
    intro active createdAt
    constructor
    · intro id member
      rcases (mem_keys_foldl_insert opened .empty id).mp member with impossible | listed
      · cases impossible
      · rcases List.mem_map.mp listed with ⟨held, heldListed, rfl⟩
        rcases exists_of_forall₂ pairs.flip heldListed with ⟨entry, entryListed, parsed, _⟩
        rcases numbered entry entryListed with ⟨id, same, small⟩
        rw [same, parseId_idBytes] at parsed
        rw [← Except.ok.inj parsed]
        exact small
    · intro entry member
      rcases exists_of_forall₂ pairs member with ⟨held, heldListed, parsed, _⟩
      rcases numbered entry member with ⟨id, same, _⟩
      rw [same, parseId_idBytes] at parsed
      refine ⟨id, (mem_keys_foldl_insert opened .empty id).mpr (.inr ?_), same⟩
      rw [Except.ok.inj parsed]
      exact List.mem_map.mpr ⟨held, heldListed, rfl⟩
  cases found : newest opened with
  | some entry =>
    rw [found] at made
    cases made
    exact ring _ _
  | none =>
    have empty : records.size = 0 := by
      have lengths := pairs.length_eq
      rw [newest_eq_none_iff.mp found] at lengths
      exact lengths
    have room : records.size < capacity := by
      rw [empty]
      decide
    rw [found] at made
    cases made
    exact (ring 0 0).rotate aead room

/-! ## The first byte -/

theorem idBytes_eq (id : UInt32) :
    ∃ first rest, idBytes id = first :: rest ∧ first.toNat = id.toNat / 0x1000000 := by
  refine ⟨UInt8.ofNat (id.toNat / 0x1000000), _, rfl, ?_⟩
  have small : id.toNat < 0x100000000 := id.toNat_lt
  exact Wire.toNat_marker (by omega)

/-- With fewer than `2 ^ 31` data keys sealed bytes begin with a small byte, and go on. -/
theorem MarkedWithin.head {most : Nat} {stored : Bytes} (marked : MarkedWithin most stored)
    (few : most < 2 ^ 31) :
    ∃ first rest, stored = first :: rest ∧ first.toNat < 0x80 ∧ rest ≠ [] := by
  rcases marked with ⟨id, rest, small, goesOn, rfl⟩
  rcases idBytes_eq id with ⟨first, others, same, head⟩
  refine ⟨first, others ++ rest, congrArg (· ++ rest) same, by omega, ?_⟩
  intro empty
  exact goesOn (List.append_eq_nil_iff.mp empty).2

theorem le_of_parseId {first : UInt8} {rest : Bytes} {id : UInt32}
    (parsed : parseId (first :: rest) = .ok id) : first.toNat * 0x1000000 ≤ id.toNat := by
  unfold parseId at parsed
  split at parsed
  · next length =>
    rcases List.length_eq_three.mp (Nat.succ.inj length) with ⟨second, third, fourth, rfl⟩
    have number : Bytes.toNat [first, second, third, fourth] =
        ((first.toNat * 256 + second.toNat) * 256 + third.toNat) * 256 + fourth.toNat := by
      simp only [Bytes.toNat, List.foldl_cons, List.foldl_nil, Nat.zero_mul, Nat.zero_add]
    have bounds := And.intro first.toNat_lt (And.intro second.toNat_lt
      (And.intro third.toNat_lt fourth.toNat_lt))
    have small : Bytes.toNat [first, second, third, fourth] < 2 ^ 32 := by omega
    rw [← Except.ok.inj parsed, UInt32.toNat_ofNat_of_lt' small]
    omega
  · cases parsed

/-- Bytes that begin with a greater byte open under no data key. -/
theorem Numbered.decrypt_eq_none (numbered : vault.Numbered)
    (few : vault.records.size < 2 ^ 31) {first : UInt8} (great : 0x80 ≤ first.toNat)
    (rest : Bytes) : (vault.decrypt aead (first :: rest)).toOption = none := by
  have absent : ∀ others id, parseId (first :: others) = .ok id →
      vault.keys.get? id = none := by
    intro others id parsed
    have large := le_of_parseId parsed
    rw [Listing.get?, Listing.find?_eq_none_iff]
    intro member
    have small := numbered.bounded id member
    omega
  rw [decrypt, Bytes.take?]
  split
  · rfl
  · next idPart sealed cut =>
    split at cut
    · rw [List.splitAt_eq] at cut
      cases cut
      change Except.toOption (parseId (first :: rest.take 3) >>= _) = none
      cases parsed : parseId (first :: rest.take 3) with
      | error fault => rfl
      | ok id =>
        rw [ok_bind, absent _ _ parsed]
        rfl
    · cases cut

end Vault
end TypedStore
