import TypedStore.Storage

/-!
# Maps

A `TypedMap` is a handle on a storage with a policy for writing: a map that
denies overwriting leaves the value of a present key as it is.  Several maps
with different policies may share one storage.
-/

namespace TypedStore

/-- A storage seen through a policy for writing. -/
structure TypedMap (σ κ ν : Type) : Type 1 where
  storage : Storage σ κ ν
  allowOverwrite : Bool

namespace TypedMap

variable {σ κ ν : Type} (map : TypedMap σ κ ν)

/-- The value under a key. -/
def load (key : κ) (state : σ) : Option ν × σ :=
  map.storage.load key state

/-- Whether a key is present. -/
def has (key : κ) (state : σ) : Bool × σ :=
  let (value, state) := map.storage.load key state
  (value.isSome, state)

/-- Write a value, as far as the policy lets it. -/
def store (key : κ) (value : ν) (state : σ) : σ :=
  if map.allowOverwrite then map.storage.store key value state
  else (map.storage.storeIfAbsent key value state).2

/-- Remove a key and return its value. -/
def pop (key : κ) (state : σ) : Option ν × σ :=
  match map.storage.load key state with
  | (none, state) => (none, state)
  | (some value, state) => (some value, map.storage.delete [key] state)

/-- Remove keys. -/
def delete (keys : List κ) (state : σ) : σ :=
  map.storage.delete keys state

/-- Visit entries. -/
def range {α : Type} (visit : Visitor κ ν α) (gathered : α) (state : σ) : α × σ :=
  map.storage.range visit gathered state

/-- Remove some entry and return it. -/
def next (state : σ) : Option (κ × ν) × σ :=
  map.storage.next state

/-- All keys. -/
def keys (state : σ) : List κ × σ :=
  map.storage.keys state

/-- The number of entries. -/
def len (state : σ) : Nat × σ :=
  map.storage.len state

/-- Whether no entry is present. -/
def isEmpty (state : σ) : Bool × σ :=
  map.storage.isEmpty state

/-- Remove all entries. -/
def clear (state : σ) : σ :=
  map.storage.clear state

/-- Release the storage. -/
def close (state : σ) : Except StoreError Unit × σ :=
  map.storage.close state

/-- The text that describes a map. -/
def description : String :=
  "Map \x7b allow_overwrite: " ++ (if map.allowOverwrite then "true" else "false") ++ ", .. \x7d"

end TypedMap

end TypedStore
