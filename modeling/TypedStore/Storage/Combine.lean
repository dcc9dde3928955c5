import TypedStore.Storage

/-!
# Storages made of storages

A storage may be picked by the state it is used on, seen through other names
for its keys, or be vacant.
-/

namespace TypedStore
namespace Storage

variable {σ κ ν : Type}

/-- The storage without entries that takes none and counts as closed. -/
def vacant : Storage σ κ ν where
  load _ state := (none, state)
  store _ _ state := state
  storeIfAbsent _ _ state := (false, state)
  delete _ state := state
  range _ gathered state := (gathered, state)
  next state := (none, state)
  keys state := ([], state)
  len state := (0, state)
  clear state := state
  close state := (.error .closed, state)
  size _ := 0

/-- For each operation, the storage that the state picks. -/
def choose (pick : σ → Storage σ κ ν) : Storage σ κ ν where
  load key state := (pick state).load key state
  store key value state := (pick state).store key value state
  storeIfAbsent key value state := (pick state).storeIfAbsent key value state
  delete keys state := (pick state).delete keys state
  range visit gathered state := (pick state).range visit gathered state
  next state := (pick state).next state
  keys state := (pick state).keys state
  len state := (pick state).len state
  clear state := (pick state).clear state
  close state := (pick state).close state
  size state := (pick state).size state

/-- A storage under other names for its keys. -/
def rekey {κ' : Type} (name : κ → κ') (key : κ' → κ) (storage : Storage σ κ ν) :
    Storage σ κ' ν where
  load wanted state := storage.load (key wanted) state
  store wanted value state := storage.store (key wanted) value state
  storeIfAbsent wanted value state := storage.storeIfAbsent (key wanted) value state
  delete wanted state := storage.delete (wanted.map key) state
  range visit gathered state :=
    storage.range (fun found value gathered => visit (name found) value gathered) gathered state
  next state :=
    let (entry, state) := storage.next state
    (entry.map fun (found, value) => (name found, value), state)
  keys state :=
    let (found, state) := storage.keys state
    (found.map name, state)
  len state := storage.len state
  clear state := storage.clear state
  close state := storage.close state
  size state := storage.size state

end Storage
end TypedStore
