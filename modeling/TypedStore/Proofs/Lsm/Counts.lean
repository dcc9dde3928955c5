import TypedStore.Host
import TypedStore.Proofs.Lsm.Effects

/-!
# The count of a handle

A handle of the log-structured engine counts its entries by what each operation
adds and takes away.  `Lsm.Counted` says that the count is right.  Every operation
keeps it so, with any key codec and any cipher: whether a value can be sealed,
whether a key can be written or is given twice, and whether what `next` discards
can be read makes no difference.
-/

namespace TypedStore
namespace Lsm

/-- Whether the count of a handle is the number of entries that it has stored. -/
def Counted (lsm : Lsm) : Prop :=
  lsm.count = lsm.entries.size

namespace Counted

variable {aead : Aead} {κ : Type} {codec : KeyCodec κ} {lsm : Lsm}

theorem effect {after : Lsm} (counted : lsm.Counted)
    (effect : Effect aead (fun _ => True) lsm after) : after.Counted := by
  cases effect with
  | lock => exact counted
  | write fits locked bytes =>
    unfold Counted Lsm.insertStored
    rw [Tree.size_insert, counted]
    split <;> rfl
  | remove bytes =>
    rcases lsm.removeStored_spec bytes counted with ⟨entries, count, _⟩
    unfold Counted
    rw [entries]
    exact count
  | @drop taken enough =>
    change lsm.count - taken = ((lsm.entries.entries.drop taken).length : Int)
    change taken ≤ lsm.entries.entries.length at enough
    rw [List.length_drop, Int.ofNat_sub enough, counted]
    rfl
  | clear => rfl

theorem effects {after : Lsm} (counted : lsm.Counted)
    (effects : Relation.ReflTransGen (Effect aead fun _ => True) lsm after) : after.Counted := by
  induction effects with
  | refl => exact counted
  | tail _ effect hypothesis => exact hypothesis.effect effect

/-- Every call keeps the count right. -/
theorem after (counted : lsm.Counted) (call : StorageCall κ Bytes) :
    ((Lsm.storage aead codec).after call lsm).Counted :=
  counted.effects (effects_after (fun _ => trivial) call lsm)

/-! ## Between calls -/

theorem maintainTimes (counted : lsm.Counted) (aead : Aead) (rounds : Nat) :
    (Host.maintainTimes aead rounds lsm).Counted := by
  induction rounds generalizing lsm with
  | zero => exact counted
  | succ rounds hypothesis =>
    apply hypothesis
    unfold Lsm.maintain
    split
    · exact counted
    · split <;> exact counted

theorem setClock (counted : lsm.Counted) (seconds : UInt64) :
    (Host.setClock seconds lsm).Counted := by
  unfold Host.setClock
  split <;> exact counted

theorem surround (counted : lsm.Counted) (outside : Surroundings) :
    (lsm.surround outside).Counted := by
  unfold Lsm.surround
  split <;> exact counted

/-- The count starts at the number of entries in the directory. -/
theorem of_open {options : LsmOptions} {image : Image} {outside : Surroundings}
    (opened : open? aead options image outside = .ok lsm) : lsm.Counted := by
  rcases open?_eq_ok_iff.mp opened with ⟨_, _, protection, _, rfl⟩
  rfl

/-- An open handle answers with its number of entries, a closed one with zero. -/
theorem len_eq (counted : lsm.Counted) :
    lsm.len = if lsm.closed then 0 else lsm.entries.size := by
  unfold Lsm.len
  rw [counted, Int.toNat_natCast]

end Counted

end Lsm
end TypedStore
