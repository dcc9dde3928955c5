import Mathlib.Data.List.Forall2
import Mathlib.Data.List.Nodup
import TypedStore.Cipher.Vault
import TypedStore.Proofs.Outcome
import TypedStore.Proofs.Tree.Entries
import TypedStore.Proofs.Wire.Heads

/-!
# The ring of a vault and its records

A vault keeps each data key twice, in the ring it works with and in a record
that outlives it.  `Vault.Kept` ties the two together: every record opens under
the master key, and what the records hold is the ring.  `Vault.Consistent` says
in addition that the active key is the newest one.

Making a data key preserves this as long as the numbers do not run out.  The
ring is never larger than its greatest number, so it suffices that there are
fewer than `Vault.capacity` keys.  Nothing is assumed of the clock, and of the
supplies only what their types say; in particular a nonce may come twice.
-/

namespace TypedStore

instance lawfulOrderMaxUInt32 : Std.LawfulOrderMax UInt32 where
  max_eq_or first second := by
    change (if first ≤ second then second else first) = first ∨
      (if first ≤ second then second else first) = second
    by_cases le : first ≤ second
    · rw [if_pos le]
      exact .inr rfl
    · rw [if_neg le]
      exact .inl rfl
  max_le_iff first second bound := by
    change (if first ≤ second then second else first) ≤ bound ↔ _
    by_cases le : first ≤ second
    · rw [if_pos le]
      exact ⟨fun below => ⟨UInt32.le_trans le below, below⟩, fun both => both.2⟩
    · rw [if_neg le]
      have above : second ≤ first := UInt32.le_of_lt (UInt32.not_le.mp le)
      exact ⟨fun below => ⟨below, UInt32.le_trans above below⟩, fun both => both.1⟩

namespace Vault

variable {aead : Aead} {master : Bytes}

/-! ## Sealing and opening -/

theorem parseId_idBytes (id : UInt32) : parseId (idBytes id) = .ok id := by
  have length : (idBytes id).length = keyIdLength := Bytes.length_ofNat _ _
  have small : id.toNat < 256 ^ keyIdLength := id.toNat_lt
  rw [parseId, if_pos length, idBytes, Bytes.toNat_ofNat, Nat.mod_eq_of_lt small,
    UInt32.ofNat_toNat]

theorem unlock_lock (sound : aead.Sound) (key : Bytes) (nonce : Nonce) (plain : Bytes) :
    unlock aead key (lock aead key nonce plain) = .ok plain := by
  have opened : aead.unlock key nonce.val (aead.lock key nonce.val plain) = some plain :=
    (sound key nonce.val _ plain).mpr rfl
  rw [unlock, lock, Bytes.take?_append _ _ nonce.property]
  dsimp only
  rw [opened]

/-- A data key sealed into a record with its time comes back with it. -/
theorem openRecord_lock (sound : aead.Sound) (id : UInt32) (time : UInt64) (nonce : Nonce)
    (key : DataKey) :
    openRecord aead master id
        (Bytes.ofNat timeLength time.toNat ++ lock aead master nonce key.val) =
      .ok (time, key) := by
  have small : time.toNat < 256 ^ timeLength := time.toNat_lt
  rw [openRecord, Bytes.take?_append _ _ (Bytes.length_ofNat _ _)]
  dsimp only
  rw [unlock_lock sound, ok_bind, dif_pos key.property, Bytes.toNat_ofNat,
    Nat.mod_eq_of_lt small, UInt64.ofNat_toNat]
  rfl

/-- The number in front chooses the data key. -/
theorem decrypt_idBytes (vault : Vault) (id : UInt32) (sealed : Bytes) :
    vault.decrypt aead (idBytes id ++ sealed) =
      match vault.keys.get? id with
      | none => .error (.keyUnknown id.toNat)
      | some key => unlock aead key.val sealed := by
  have length : (idBytes id).length = keyIdLength := Bytes.length_ofNat _ _
  rw [decrypt, Bytes.take?_append _ _ length]
  dsimp only
  rw [parseId_idBytes, ok_bind]
  rfl

theorem decrypt_lock (sound : aead.Sound) {vault : Vault} {id : UInt32} {key : DataKey}
    (held : vault.keys.get? id = some key) (nonce : Nonce) (plain : Bytes) :
    vault.decrypt aead (idBytes id ++ lock aead key.val nonce plain) = .ok plain := by
  rw [decrypt_idBytes, held]
  exact unlock_lock sound key.val nonce plain

/-- Whether a vault holds every data key that another one holds. -/
def Extends (later earlier : Vault) : Prop :=
  ∀ id key, earlier.keys.get? id = some key → later.keys.get? id = some key

theorem Extends.refl (vault : Vault) : vault.Extends vault :=
  fun _ _ held => held

theorem Extends.trans {latest later earlier : Vault} (second : latest.Extends later)
    (first : later.Extends earlier) : latest.Extends earlier :=
  fun id key held => second id key (first id key held)

/-- What one vault opens is opened by every vault with the same keys and more. -/
theorem Extends.decrypt {later earlier : Vault} (extended : later.Extends earlier)
    {stored plain : Bytes} (opened : earlier.decrypt aead stored = .ok plain) :
    later.decrypt aead stored = .ok plain := by
  rw [Vault.decrypt] at opened ⊢
  cases cut : Bytes.take? keyIdLength stored with
  | none =>
    rw [cut] at opened
    cases opened
  | some parts =>
    rcases parts with ⟨idPart, sealed⟩
    rw [cut] at opened
    dsimp only at opened ⊢
    rcases exists_of_bind_eq_ok opened with ⟨id, parsed, unlocked⟩
    rw [parsed, ok_bind]
    cases held : earlier.keys.get? id with
    | none =>
      rw [held] at unlocked
      cases unlocked
    | some key =>
      rw [held] at unlocked
      rw [extended id key held]
      exact unlocked

/-! ## Records -/

/-- Whether an entry of the records holds a data key with its number and time. -/
def Opens (aead : Aead) (master : Bytes) (entry : Bytes × Bytes)
    (held : UInt32 × UInt64 × DataKey) : Prop :=
  parseId entry.1 = .ok held.1 ∧ openRecord aead master held.1 entry.2 = .ok held.2

theorem openRecords_eq_ok_iff {entries : List (Bytes × Bytes)}
    {opened : List (UInt32 × UInt64 × DataKey)} :
    openRecords aead master entries = .ok opened ↔
      List.Forall₂ (Opens aead master) entries opened := by
  induction entries generalizing opened with
  | nil =>
    rw [openRecords, List.forall₂_nil_left_iff]
    exact ⟨fun same => (Except.ok.inj same).symm, fun same => congrArg Except.ok same.symm⟩
  | cons entry rest hypothesis =>
    rcases entry with ⟨idPart, record⟩
    rw [openRecords]
    constructor
    · intro succeeds
      rcases exists_of_bind_eq_ok succeeds with ⟨id, parsed, later⟩
      rcases exists_of_bind_eq_ok later with ⟨⟨time, key⟩, recordOpened, last⟩
      rcases exists_of_bind_eq_ok last with ⟨others, othersOpened, made⟩
      cases made
      exact List.Forall₂.cons ⟨parsed, recordOpened⟩ (hypothesis.mp othersOpened)
    · intro pairs
      cases pairs with
      | @cons _ held _ others first pairs =>
        rcases held with ⟨id, time, key⟩
        rcases first with ⟨parsed, recordOpened⟩
        dsimp only at parsed recordOpened
        rw [parsed, ok_bind, recordOpened, ok_bind, hypothesis.mpr pairs]
        rfl

/-! ## The newest key -/

/-- Only an empty ring has no newest key. -/
theorem newest_eq_none_iff {opened : List (UInt32 × UInt64 × DataKey)} :
    newest opened = none ↔ opened = [] := by
  cases opened with
  | nil => exact iff_of_true rfl rfl
  | cons first rest =>
    refine iff_of_false ?_ (List.cons_ne_nil first rest)
    intro nothing
    rw [newest] at nothing
    split at nothing
    · cases nothing
    · split at nothing <;> cases nothing

theorem newest_spec {opened : List (UInt32 × UInt64 × DataKey)} {id : UInt32} {time : UInt64}
    (found : newest opened = some (id, time)) :
    (∃ key, (id, time, key) ∈ opened) ∧ ∀ held ∈ opened, held.1 ≤ id := by
  induction opened generalizing id time with
  | nil => cases found
  | cons first rest hypothesis =>
    rcases first with ⟨firstId, firstTime, firstKey⟩
    rw [newest] at found
    cases later : newest rest with
    | none =>
      rw [later] at found
      cases found
      rw [newest_eq_none_iff.mp later]
      refine ⟨⟨firstKey, List.mem_cons_self⟩, ?_⟩
      intro held member
      rw [List.mem_singleton.mp member]
      exact UInt32.le_refl _
    | some other =>
      rcases other with ⟨otherId, otherTime⟩
      rcases hypothesis later with ⟨⟨otherKey, listed⟩, greatest⟩
      rw [later] at found
      dsimp only at found
      by_cases less : firstId < otherId
      · rw [if_pos less] at found
        cases found
        refine ⟨⟨otherKey, List.mem_cons_of_mem _ listed⟩, ?_⟩
        exact List.forall_mem_cons.mpr ⟨UInt32.le_of_lt less, greatest⟩
      · rw [if_neg less] at found
        cases found
        refine ⟨⟨firstKey, List.mem_cons_self⟩, ?_⟩
        refine List.forall_mem_cons.mpr ⟨UInt32.le_refl _, ?_⟩
        intro held there
        exact UInt32.le_trans (greatest held there) (UInt32.not_lt.mp less)

/-- The entry with the greatest number is the newest, wherever it stands. -/
theorem newest_of_greatest {opened : List (UInt32 × UInt64 × DataKey)} {id : UInt32}
    {time : UInt64} {key : DataKey} (distinct : (opened.map Prod.fst).Nodup)
    (member : (id, time, key) ∈ opened) (greatest : ∀ held ∈ opened, held.1 ≤ id) :
    newest opened = some (id, time) := by
  cases found : newest opened with
  | none =>
    rw [newest_eq_none_iff.mp found] at member
    cases member
  | some other =>
    rcases other with ⟨otherId, otherTime⟩
    rcases newest_spec found with ⟨⟨otherKey, listed⟩, otherGreatest⟩
    have sameId : otherId = id :=
      UInt32.le_antisymm (greatest _ listed) (otherGreatest _ member)
    have same : (otherId, otherTime, otherKey) = (id, time, key) :=
      List.inj_on_of_nodup_map distinct listed member sameId
    cases same
    rfl

end Vault
end TypedStore
