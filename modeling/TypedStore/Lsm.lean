import TypedStore.Adapter
import TypedStore.Cipher.Vault
import TypedStore.Lsm.Options

/-!
# The log-structured engine

An `Lsm` is an open handle on an ordered byte map in a directory.  Keys are
written by a key codec and entries come in the order of their bytes.  With an
encryption key the values are sealed by a vault, whose records live in the
same directory; the keys are not sealed.

The handle counts entries itself: the count starts at the number of entries
found and moves with each insertion and removal.  An entry whose key or value
cannot be read is passed over by walks and discarded by `next`.

What stays on disk after closing is an `Lsm.Image`.
-/

namespace TypedStore

namespace Lsm

/-- The contents of a directory. -/
structure Image where
  entries : Tree := .empty
  /-- The records of the vault. -/
  records : Tree := .empty
  compression : Bool := false

/-- Whether values are sealed.  The records of the vault are kept even by a
handle that does not use them. -/
inductive Protection where
  | plain (records : Tree)
  | sealed (vault : Vault)

/-- The records of the vault. -/
def Protection.records : Protection → Tree
  | .plain records => records
  | .sealed vault => vault.records

/-- A value as it is stored. -/
def Protection.lock (aead : Aead) (value : Bytes) :
    Protection → Except CipherFault Bytes × Protection
  | .plain records => (.ok value, .plain records)
  | .sealed vault =>
    let (stored, vault) := vault.encrypt aead value
    (stored, .sealed vault)

/-- A value as it was given, from what is stored. -/
def Protection.unlock (aead : Aead) (protection : Protection) (stored : Bytes) :
    Except CipherFault Bytes :=
  match protection with
  | .plain _ => .ok stored
  | .sealed vault => vault.decrypt aead stored

end Lsm

/-- An open handle of the log-structured engine. -/
structure Lsm where
  entries : Tree
  protection : Lsm.Protection
  compression : Bool
  count : Int
  closed : Bool

namespace Lsm

/-- What the directory of a handle holds. -/
def image (lsm : Lsm) : Image :=
  ⟨lsm.entries, lsm.protection.records, lsm.compression⟩

/-- Check the key length before anything is touched. -/
def checkKey (options : LsmOptions) : Except StoreError Unit :=
  match options.encryptionKey with
  | some key =>
    if Aead.isKeyLength key.length then .ok () else .error (.invalidEncryptionKey key.length)
  | none => .ok ()

/-- Open the database in a directory.  The directory must have been made with
the same choice of compression. -/
def open? (aead : Aead) (options : LsmOptions) (image : Image) (outside : Surroundings) :
    Except StoreError Lsm := do
  checkKey options
  if options.compression != image.compression then
    throw (.backend "the database was made with another compression setting")
  let protection ←
    match options.encryptionKey with
    | none => pure (.plain image.records)
    | some key =>
      (Vault.open? aead key options.keyRotation image.records outside).map .sealed
  return {
    entries := image.entries
    protection
    compression := image.compression
    count := image.entries.size
    closed := false }

variable {κ : Type} (aead : Aead) (codec : KeyCodec κ)

/-- The value under a key. -/
def load (key : κ) (lsm : Lsm) : Option Bytes := do
  if lsm.closed then none
  else
    let key ← codec.bytes? key
    let stored ← lsm.entries.get? key
    (lsm.protection.unlock aead stored).toOption

/-- Put a stored value under the bytes of a key, counting a new entry. -/
def insertStored (key stored : Bytes) (lsm : Lsm) : Lsm :=
  { lsm with
    entries := lsm.entries.insert key stored
    count := if (lsm.entries.get? key).isSome then lsm.count else lsm.count + 1 }

/-- Insert or replace a value. -/
def store (key : κ) (value : Bytes) (lsm : Lsm) : Lsm :=
  if lsm.closed then lsm
  else
    match codec.bytes? key with
    | none => lsm
    | some key =>
      match lsm.protection.lock aead value with
      | (.ok stored, protection) => { lsm with protection }.insertStored key stored
      | (.error _, protection) => { lsm with protection }

/-- Insert a value under an absent key.  The value is sealed before the key
is looked up. -/
def storeIfAbsent (key : κ) (value : Bytes) (lsm : Lsm) : Bool × Lsm :=
  if lsm.closed then (false, lsm)
  else
    match codec.bytes? key with
    | none => (false, lsm)
    | some key =>
      match lsm.protection.lock aead value with
      | (.ok stored, protection) =>
        if (lsm.entries.get? key).isSome then (false, { lsm with protection })
        else (true, { lsm with protection }.insertStored key stored)
      | (.error _, protection) => (false, { lsm with protection })

/-- Remove an entry by the bytes of its key, if it is there. -/
def removeStored (lsm : Lsm) (key : Bytes) : Lsm :=
  if (lsm.entries.get? key).isSome then
    { lsm with entries := lsm.entries.erase key, count := lsm.count - 1 }
  else lsm

/-- Remove keys, those that can be written. -/
def delete (keys : List κ) (lsm : Lsm) : Lsm :=
  if lsm.closed then lsm else (keys.filterMap codec.bytes?).foldl removeStored lsm

/-- An entry as readers see it, if its key and its value can be read. -/
def readEntry (protection : Protection) (entry : Bytes × Bytes) : Option (κ × Bytes) := do
  let key ← codec.key? entry.1
  let value ← (protection.unlock aead entry.2).toOption
  return (key, value)

/-- The entries that can be read, in order. -/
def visible (lsm : Lsm) : List (κ × Bytes) :=
  if lsm.closed then [] else lsm.entries.entries.filterMap (readEntry aead codec lsm.protection)

/-- Take entries from the front until one can be read.  Each one taken is
gone, read or not. -/
def popFrom (protection : Protection) :
    List (Bytes × Bytes) → (taken : Nat) → Option (κ × Bytes) × Nat
  | [], taken => (none, taken)
  | entry :: rest, taken =>
    match readEntry aead codec protection entry with
    | some found => (some found, taken + 1)
    | none => popFrom protection rest (taken + 1)

/-- Remove the first entries of a tree. -/
def dropFirst (tree : Tree) (count : Nat) : Tree :=
  ⟨tree.entries.drop count, tree.ascending.sublist (List.drop_sublist count tree.entries)⟩

/-- Remove the first readable entry, and all before it, and return it. -/
def next (lsm : Lsm) : Option (κ × Bytes) × Lsm :=
  if lsm.closed then (none, lsm)
  else
    let (entry, taken) := popFrom aead codec lsm.protection lsm.entries.entries 0
    (entry, { lsm with entries := dropFirst lsm.entries taken, count := lsm.count - taken })

/-- All keys that can be read, whatever their values. -/
def keys (lsm : Lsm) : List κ :=
  if lsm.closed then [] else lsm.entries.entries.filterMap fun entry => codec.key? entry.1

/-- The number of entries by the count of the handle. -/
def len (lsm : Lsm) : Nat :=
  if lsm.closed then 0 else lsm.count.toNat

/-- Remove all entries. -/
def clear (lsm : Lsm) : Lsm :=
  if lsm.closed then lsm else { lsm with entries := .empty, count := 0 }

/-- Close the handle. -/
def close (lsm : Lsm) : Except StoreError Unit × Lsm :=
  if lsm.closed then (.error .closed, lsm) else (.ok (), { lsm with closed := true })

/-- A round of maintenance makes a new data key when the active one is old. -/
def maintain (lsm : Lsm) : Lsm :=
  if lsm.closed then lsm
  else
    match lsm.protection with
    | .plain _ => lsm
    | .sealed vault => { lsm with protection := .sealed (vault.rotateIfStale aead) }

/-- The operations of the engine. -/
def storage : Storage Lsm κ Bytes where
  load key lsm := (lsm.load aead codec key, lsm)
  store := store aead codec
  storeIfAbsent := storeIfAbsent aead codec
  delete := delete codec
  range visit gathered lsm := ((visit.walk (lsm.visible aead codec) gathered).1, lsm)
  next := next aead codec
  keys lsm := (lsm.keys codec, lsm)
  len lsm := (lsm.len, lsm)
  clear := clear
  close := close
  size lsm := lsm.entries.size

end Lsm

end TypedStore
