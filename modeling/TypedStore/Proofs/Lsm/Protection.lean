import TypedStore.Lsm
import TypedStore.Proofs.Cipher.Consistency

/-!
# Handles of the log-structured engine and their vaults

Only writing a value touches the vault of a handle.  `Protection.Consistent` is
the condition that a handle keeps from its opening on, and `hasRoom` bounds the
data keys it may come to hold.  The count of a handle is right as long as every
removal is counted; that is proved here once for all operations that remove.
-/

namespace TypedStore
namespace Lsm

variable {aead : Aead} {κ : Type} {codec : KeyCodec κ}

/-- Whether the vault of a handle, if it has one, is consistent. -/
def Protection.Consistent (aead : Aead) : Protection → Prop
  | .plain _ => True
  | .sealed vault => vault.Consistent aead

/-- The number of data keys of a handle. -/
def Protection.ringSize : Protection → Nat
  | .plain _ => 0
  | .sealed vault => vault.ringSize

/-- Whether data keys can still be made without running out of numbers. -/
def hasRoom (lsm : Lsm) : Prop :=
  lsm.protection.ringSize < Vault.capacity

theorem Protection.ringSize_lock_le (aead : Aead) (value : Bytes) (protection : Protection) :
    protection.ringSize ≤ (protection.lock aead value).2.ringSize := by
  cases protection with
  | plain records => exact Nat.le_refl _
  | «sealed» vault => exact vault.ringSize_encrypt_le value

/-- What is locked unlocks, and what was locked before still does. -/
theorem Protection.Consistent.lock (sound : aead.Sound) {protection : Protection}
    (consistent : protection.Consistent aead) (value : Bytes)
    (room : (protection.lock aead value).2.ringSize < Vault.capacity) :
    ∃ stored, (protection.lock aead value).1 = .ok stored ∧
      (protection.lock aead value).2.unlock aead stored = .ok value ∧
      (protection.lock aead value).2.Consistent aead ∧
      ∀ other plain, protection.unlock aead other = .ok plain →
        (protection.lock aead value).2.unlock aead other = .ok plain := by
  cases protection with
  | plain records => exact ⟨value, rfl, rfl, trivial, fun _ _ opened => opened⟩
  | «sealed» vault =>
    have before := Nat.lt_of_le_of_lt (vault.ringSize_encrypt_le value) room
    rcases Vault.Consistent.encrypt sound consistent before value with
      ⟨stored, sealed, opened, follows⟩
    exact ⟨stored, sealed, opened, follows.consistent,
      fun _ _ opens => follows.extended.decrypt opens⟩

/-! ## What operations do to the protection -/

theorem ringSize_store_le (lsm : Lsm) (key : κ) (value : Bytes) :
    lsm.protection.ringSize ≤ (lsm.store aead codec key value).protection.ringSize := by
  have more := lsm.protection.ringSize_lock_le aead value
  rw [store]
  split
  · exact Nat.le_refl _
  · split
    · exact Nat.le_refl _
    · split
      · next locked =>
        rw [locked] at more
        exact more
      · next locked =>
        rw [locked] at more
        exact more

theorem ringSize_storeIfAbsent_le (lsm : Lsm) (key : κ) (value : Bytes) :
    lsm.protection.ringSize ≤ (lsm.storeIfAbsent aead codec key value).2.protection.ringSize := by
  have more := lsm.protection.ringSize_lock_le aead value
  rw [storeIfAbsent]
  split
  · exact Nat.le_refl _
  · split
    · exact Nat.le_refl _
    · split
      · next locked =>
        rw [locked] at more
        split <;> exact more
      · next locked =>
        rw [locked] at more
        exact more

theorem protection_removeStored (lsm : Lsm) (bytes : Bytes) :
    (lsm.removeStored bytes).protection = lsm.protection := by
  rw [removeStored]
  split <;> rfl

theorem protection_delete (lsm : Lsm) (removed : List κ) :
    (lsm.delete codec removed).protection = lsm.protection := by
  rw [delete]
  split
  · rfl
  · generalize removed.filterMap codec.bytes? = stored
    next closed =>
      clear closed
      induction stored generalizing lsm with
      | nil => rfl
      | cons bytes rest hypothesis =>
        exact (hypothesis (lsm.removeStored bytes)).trans (lsm.protection_removeStored bytes)

theorem protection_next (lsm : Lsm) : (lsm.next aead codec).2.protection = lsm.protection := by
  rw [next]
  split <;> rfl

/-! ## Removing entries -/

/-- Whether the key is there or not, the entries without it are left and counted. -/
theorem removeStored_spec (lsm : Lsm) (bytes : Bytes) (counted : lsm.count = lsm.entries.size) :
    (lsm.removeStored bytes).entries = lsm.entries.erase bytes ∧
      (lsm.removeStored bytes).count = (lsm.entries.erase bytes).size ∧
      (lsm.removeStored bytes).protection = lsm.protection ∧
      (lsm.removeStored bytes).closed = lsm.closed := by
  have size := lsm.entries.size_erase bytes
  rw [removeStored]
  by_cases present : (lsm.entries.get? bytes).isSome = true
  · rw [if_pos present] at size ⊢
    have some : 0 < lsm.entries.size := by
      rw [Tree.get?_eq_listing] at present
      rcases Option.isSome_iff_exists.mp present with ⟨stored, found⟩
      exact List.length_pos_of_mem (Listing.mem_of_find? found)
    refine ⟨rfl, ?_, rfl, rfl⟩
    rw [size]
    change lsm.count - 1 = _
    rw [counted]
    omega
  · rw [if_neg present] at size ⊢
    have absent : Listing.find? bytes lsm.entries.entries = none := by
      rw [Tree.get?_eq_listing] at present
      exact Option.not_isSome_iff_eq_none.mp present
    have same : lsm.entries.erase bytes = lsm.entries := by
      have entries := Listing.filter_of_absent (Listing.find?_eq_none_iff.mp absent)
      exact Tree.eq_of_entries entries
    rw [same]
    exact ⟨rfl, counted, rfl, rfl⟩

/-- Removing keys leaves the entries without them, counted. -/
theorem delete_spec (codec : KeyCodec κ) {lsm : Lsm} (opened : lsm.closed = false)
    (counted : lsm.count = lsm.entries.size) (removed : List κ) :
    (lsm.delete codec removed).entries =
        (removed.filterMap codec.bytes?).foldl Tree.erase lsm.entries ∧
      (lsm.delete codec removed).count = (lsm.delete codec removed).entries.size ∧
      (lsm.delete codec removed).protection = lsm.protection ∧
      (lsm.delete codec removed).closed = false := by
  rw [delete, opened, if_neg Bool.false_ne_true]
  induction removed.filterMap codec.bytes? generalizing lsm with
  | nil => exact ⟨rfl, counted, rfl, opened⟩
  | cons bytes rest hypothesis =>
    rcases lsm.removeStored_spec bytes counted with ⟨entries, count, protection, closed⟩
    rw [← entries] at count
    rcases hypothesis (closed.trans opened) count with ⟨left, stillCounted, kept, stillOpen⟩
    rw [entries] at left
    exact ⟨left, stillCounted, kept.trans protection, stillOpen⟩

/-! ## Opening -/

/-- What opening gives, when it succeeds. -/
theorem open?_eq_ok_iff {options : LsmOptions} {image : Image} {outside : Surroundings}
    {lsm : Lsm} :
    open? aead options image outside = .ok lsm ↔
      checkKey options = .ok () ∧ options.compression = image.compression ∧
      ∃ protection,
        (match options.encryptionKey with
          | none => protection = .plain image.records
          | some key => ∃ vault,
            Vault.open? aead key options.keyRotation image.records outside = .ok vault ∧
              protection = .sealed vault) ∧
        lsm = ⟨image.entries, protection, image.compression, image.entries.size, false⟩ := by
  rw [open?]
  cases checked : checkKey options with
  | error fault =>
    constructor
    · intro opened
      cases opened
    · rintro ⟨same, _⟩
      cases same
  | ok done =>
    rw [ok_bind]
    by_cases same : options.compression = image.compression
    · have equal : (options.compression != image.compression) = false := by
        rw [same, bne_self_eq_false]
      rw [equal]
      cases given : options.encryptionKey with
      | none =>
        dsimp only [Bool.false_eq_true, if_false]
        constructor
        · intro opened
          cases opened
          exact ⟨rfl, same, _, rfl, rfl⟩
        · rintro ⟨_, _, protection, rfl, rfl⟩
          rfl
      | some key =>
        dsimp only [Bool.false_eq_true, if_false]
        cases vaultOpened : Vault.open? aead key options.keyRotation image.records outside with
        | error error =>
          constructor
          · intro opened
            cases opened
          · rintro ⟨_, _, protection, ⟨vault, impossible, _⟩, _⟩
            cases impossible
        | ok vault =>
          constructor
          · intro opened
            cases opened
            exact ⟨rfl, same, _, ⟨vault, rfl, rfl⟩, rfl⟩
          · rintro ⟨_, _, protection, ⟨vault, found, rfl⟩, rfl⟩
            cases found
            rfl
    · have different : (options.compression != image.compression) = true := bne_iff_ne.mpr same
      rw [different]
      constructor
      · intro opened
        cases opened
      · rintro ⟨_, equal, _⟩
        exact absurd equal same
end Lsm
end TypedStore
