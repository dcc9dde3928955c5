import Mathlib.Logic.Relation
import TypedStore.Proofs.Lsm.Durability

/-!
# What operations do to a handle

An operation of the log-structured engine comes down to a few things that it does to
the handle one after another, `Lsm.Effect`: locking a value, putting it under the bytes
of a key, removing an entry, dropping the first entries, and removing all.  What each of
them preserves is preserved by every operation.
-/

namespace TypedStore
namespace Lsm

open Relation

/-- One thing that an operation does to a handle, if the values that it writes are of some
kind. -/
inductive Effect (aead : Aead) (writable : Bytes → Prop) (lsm : Lsm) : Lsm → Prop where
  | lock {value : Bytes} {result : Except CipherFault Bytes} {protection : Protection}
    (fits : writable value) (locked : lsm.protection.lock aead value = (result, protection)) :
    Effect aead writable lsm { lsm with protection }
  | write {value stored : Bytes} {protection : Protection} (fits : writable value)
    (locked : lsm.protection.lock aead value = (.ok stored, protection)) (bytes : Bytes) :
    Effect aead writable lsm (({ lsm with protection } : Lsm).insertStored bytes stored)
  | remove (bytes : Bytes) : Effect aead writable lsm (lsm.removeStored bytes)
  | drop {taken : Nat} (enough : taken ≤ lsm.entries.size) :
    Effect aead writable lsm
      { lsm with entries := dropFirst lsm.entries taken, count := lsm.count - taken }
  | clear : Effect aead writable lsm { lsm with entries := .empty, count := 0 }

variable {aead : Aead} {writable : Bytes → Prop} {κ : Type} {codec : KeyCodec κ}

theorem effects_store {value : Bytes} (fits : writable value) (key : κ) (lsm : Lsm) :
    ReflTransGen (Effect aead writable) lsm (lsm.store aead codec key value) := by
  unfold store
  split
  · exact .refl
  · split
    · exact .refl
    · split
      · next locked => exact .single (.write fits locked _)
      · next locked => exact .single (.lock fits locked)

theorem effects_storeIfAbsent {value : Bytes} (fits : writable value) (key : κ) (lsm : Lsm) :
    ReflTransGen (Effect aead writable) lsm (lsm.storeIfAbsent aead codec key value).2 := by
  unfold storeIfAbsent
  split
  · exact .refl
  · split
    · exact .refl
    · split
      · next locked =>
        split
        · exact .single (.lock fits locked)
        · exact .single (.write fits locked _)
      · next locked => exact .single (.lock fits locked)

/-- A key that is given again finds nothing to remove. -/
theorem effects_delete (removed : List κ) (lsm : Lsm) :
    ReflTransGen (Effect aead writable) lsm (lsm.delete codec removed) := by
  unfold delete
  split
  · exact .refl
  · next opened =>
    clear opened
    induction removed.filterMap codec.bytes? generalizing lsm with
    | nil => exact .refl
    | cons bytes rest hypothesis => exact .head (.remove bytes) (hypothesis _)

/-- Entries that cannot be read are dropped with the one that can. -/
theorem effects_next (lsm : Lsm) :
    ReflTransGen (Effect aead writable) lsm (lsm.next aead codec).2 := by
  unfold next
  split
  · exact .refl
  · have most := popFrom_le aead codec lsm.protection lsm.entries.entries 0
    rw [Nat.zero_add] at most
    exact .single (.drop most)

theorem effects_clear (lsm : Lsm) : ReflTransGen (Effect aead writable) lsm lsm.clear := by
  unfold clear
  split
  · exact .refl
  · exact .single .clear

/-- Every call, with values that may all be written. -/
theorem effects_after (fits : ∀ value, writable value) (call : StorageCall κ Bytes) (lsm : Lsm) :
    ReflTransGen (Effect aead writable) lsm ((Lsm.storage aead codec).after call lsm) := by
  cases call with
  | load key => exact .refl
  | store key value => exact effects_store (fits value) key lsm
  | storeIfAbsent key value => exact effects_storeIfAbsent (fits value) key lsm
  | delete removed => exact effects_delete removed lsm
  | range visit start => exact .refl
  | next => exact effects_next lsm
  | keys => exact .refl
  | len => exact .refl
  | clear => exact effects_clear lsm

/-! ## Typed layers -/

theorem effects_nextReadable {ν : Type} (values : ValueCodec ν) (registry : Registry) (fuel : Nat)
    (lsm : Lsm) :
    ReflTransGen (Effect aead writable) lsm
      (Adapter.nextReadable values (Lsm.storage aead codec) registry fuel lsm).2 := by
  induction fuel generalizing lsm with
  | zero => exact .refl
  | succ fuel hypothesis =>
    have taken : ReflTransGen (Effect aead writable) lsm (lsm.next aead codec).2 :=
      effects_next lsm
    unfold Adapter.nextReadable
    split
    · next found =>
      change lsm.next aead codec = _ at found
      rw [found] at taken
      exact taken
    · next found =>
      change lsm.next aead codec = _ at found
      rw [found] at taken
      split
      · exact taken
      · exact taken.trans (hypothesis _)

/-- Every call of a typed layer writes payloads of its values. -/
theorem effects_typed {ν : Type} {values : ValueCodec ν}
    (fits : ∀ value registry payload, (values.encode value registry).1 = .ok payload →
      writable payload)
    (registry : Registry) (call : StorageCall κ ν) (lsm : Lsm) :
    ReflTransGen (Effect aead writable) lsm
      ((Adapter.storage values (Lsm.storage aead codec)).after call (registry, lsm)).2 := by
  cases call with
  | load key => exact .refl
  | store key value =>
    unfold Storage.after Adapter.storage
    dsimp only
    split
    · next written =>
      exact effects_store (fits value registry _ (congrArg Prod.fst written)) key lsm
    · exact .refl
  | storeIfAbsent key value =>
    unfold Storage.after Adapter.storage
    dsimp only
    split
    · next written =>
      exact effects_storeIfAbsent (fits value registry _ (congrArg Prod.fst written)) key lsm
    · exact .refl
  | delete removed => exact effects_delete removed lsm
  | range visit start => exact .refl
  | next => exact effects_nextReadable values registry (lsm.entries.size + 1) lsm
  | keys => exact .refl
  | len => exact .refl
  | clear => exact effects_clear lsm

end Lsm
end TypedStore
