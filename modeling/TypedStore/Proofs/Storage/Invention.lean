import TypedStore.Memory
import TypedStore.Proofs.Listing.Entries
import TypedStore.Proofs.Outcome
import TypedStore.TypedMap

/-!
# Storages that invent nothing

Writing reports no failure, and an engine may drop any write, or lose what it
holds.  What can be asked of it is that it makes nothing up: a key gives only what
is held under it, and a write adds nothing to what is held under its key but the
value that was written.

What a state holds under a key is left open, since an engine can hold more than it
lets readers see, for instance while it cannot be reached.
-/

namespace TypedStore

variable {σ κ ν : Type}

/-- Whether a storage shows and keeps nothing but what was there or was written. -/
structure Storage.InventsNothing (storage : Storage σ κ ν) (holds : σ → κ → ν → Prop) : Prop where
  load : ∀ {state key found}, (storage.load key state).1 = some found → holds state key found
  store : ∀ {state key value found}, holds (storage.store key value state) key found →
    found = value ∨ holds state key found
  storeIfAbsent : ∀ {state key value found},
    holds (storage.storeIfAbsent key value state).2 key found →
    found = value ∨ holds state key found

/-- A storage that drops those writes that a test on the state, the key and the
value picks out. -/
def Storage.dropping (drops : σ → κ → ν → Bool) (storage : Storage σ κ ν) : Storage σ κ ν :=
  { storage with
    store := fun key value state =>
      if drops state key value then state else storage.store key value state
    storeIfAbsent := fun key value state =>
      if drops state key value then (false, state) else storage.storeIfAbsent key value state }

namespace Storage.InventsNothing

variable {storage : Storage σ κ ν} {holds : σ → κ → ν → Prop}

theorem dropping (law : storage.InventsNothing holds) (drops : σ → κ → ν → Bool) :
    (storage.dropping drops).InventsNothing holds where
  load := law.load
  store := by
    intro state key value found held
    simp only [Storage.dropping] at held
    split at held
    · exact .inr held
    · exact law.store held
  storeIfAbsent := by
    intro state key value found held
    simp only [Storage.dropping] at held
    split at held
    · exact .inr held
    · exact law.storeIfAbsent held

/-- What a key gives after a write through a map is the value written, or was held
under the key before. -/
theorem load_stored (law : storage.InventsNothing holds) {allowOverwrite : Bool} {state : σ}
    {key : κ} {value found : ν}
    (loaded : (storage.load key
      (TypedMap.store ⟨storage, allowOverwrite⟩ key value state)).1 = some found) :
    found = value ∨ holds state key found := by
  cases allowOverwrite with
  | true => exact law.store (law.load loaded)
  | false => exact law.storeIfAbsent (law.load loaded)

end Storage.InventsNothing

/-- A store in memory holds its entries. -/
theorem Memory.inventsNothing [DecidableEq κ] :
    (Memory.storage : Storage (Memory κ ν) κ ν).InventsNothing fun memory key value =>
      memory.listing.get? key = some value where
  load := by
    rintro ⟨listing, closed⟩ key found loaded
    cases closed with
    | true => cases loaded
    | false => exact loaded
  store := by
    rintro ⟨listing, closed⟩ key value found held
    cases closed with
    | true => exact .inr held
    | false =>
      change (listing.insert key value).get? key = some found at held
      rw [Listing.get?_insert, if_pos rfl] at held
      exact .inl (Option.some.inj held).symm
  storeIfAbsent := by
    rintro ⟨listing, closed⟩ key value found held
    cases closed with
    | true => exact .inr held
    | false =>
      simp only [Memory.storage, Memory.storeIfAbsent, Bool.false_eq_true, if_false] at held
      split at held
      · exact .inr held
      · rw [Listing.get?_insert, if_pos rfl] at held
        exact .inl (Option.some.inj held).symm

/-- Through the typed layer a key gives, after a write, what is read from the payload
of the value, or from a payload that was held under the key before. -/
theorem Adapter.load_stored {codec : ValueCodec ν} {inner : Storage σ κ Bytes}
    {holds : σ → κ → Bytes → Prop} (law : inner.InventsNothing holds) {allowOverwrite : Bool}
    {registry : Registry} {state : σ} {key : κ} {value found : ν}
    (loaded : ((Adapter.storage codec inner).load key
      (TypedMap.store ⟨Adapter.storage codec inner, allowOverwrite⟩ key value
        (registry, state))).1 = some found) :
    ∃ payload, codec.decode payload (codec.encode value registry).2 = .ok found ∧
      ((codec.encode value registry).1 = .ok payload ∨ holds state key payload) := by
  cases encoded : codec.encode value registry with
  | mk result later =>
    cases result with
    | error fault =>
      have same : TypedMap.store ⟨Adapter.storage codec inner, allowOverwrite⟩ key value
          (registry, state) = (later, state) := by
        cases allowOverwrite <;>
          simp only [TypedMap.store, Adapter.storage, encoded, if_true, Bool.false_eq_true,
            if_false]
      rw [same] at loaded
      rcases Option.bind_eq_some_iff.mp loaded with ⟨payload, held, read⟩
      exact ⟨payload, eq_ok_of_toOption read, .inr (law.load held)⟩
    | ok payload =>
      have same : TypedMap.store ⟨Adapter.storage codec inner, allowOverwrite⟩ key value
          (registry, state) =
          (later, TypedMap.store ⟨inner, allowOverwrite⟩ key payload state) := by
        cases allowOverwrite <;>
          simp only [TypedMap.store, Adapter.storage, encoded, if_true, Bool.false_eq_true,
            if_false]
      rw [same] at loaded
      rcases Option.bind_eq_some_iff.mp loaded with ⟨stored, held, read⟩
      refine ⟨stored, eq_ok_of_toOption read, ?_⟩
      rcases law.load_stored held with written | before
      · exact .inl (congrArg Except.ok written.symm)
      · exact .inr before

end TypedStore
