import TypedStore.Cipher.Aead
import TypedStore.Error
import TypedStore.Listing
import TypedStore.Source
import TypedStore.Tree

/-!
# Vaults

A `Vault` seals values under data keys that change with time.  Each data key
has a number and is kept, sealed under one master key, in a record that also
holds the time it was made.  Values are sealed under the active key, the one
with the largest number; when that is older than the rotation interval, in
whole seconds, the next write makes a new one.  Values sealed under any key
of the ring can be opened.

A record is the time in eight bytes, a nonce, and the sealed data key.  A
sealed value is the number of its key in four bytes, a nonce, and the sealed
bytes.  The clock and the supplies of nonces and data keys are sources of
which nothing is assumed.
-/

namespace TypedStore

/-- The bytes of a time in a record. -/
def timeLength : Nat := 8

/-- The bytes of a key number. -/
def keyIdLength : Nat := 4

/-- What a vault reads from outside. -/
structure Surroundings where
  /-- Seconds since a fixed time. -/
  clock : Source UInt64
  nonces : Source Nonce
  dataKeys : Source DataKey

/-- Data keys, the records they are kept in, and the master key. -/
structure Vault where
  master : Bytes
  rotation : Duration
  records : Tree
  keys : Listing UInt32 DataKey
  active : UInt32
  createdAt : UInt64
  outside : Surroundings

namespace Vault

/-- The bytes of a key number. -/
def idBytes (id : UInt32) : Bytes :=
  Bytes.ofNat keyIdLength id.toNat

/-- The key number in exactly four bytes. -/
def parseId (bytes : Bytes) : Except CipherFault UInt32 :=
  if bytes.length = keyIdLength then .ok (UInt32.ofNat (Bytes.toNat bytes))
  else .error .keyIdMalformed

/-- Seal bytes under a nonce and put the nonce in front. -/
def lock (aead : Aead) (key : Bytes) (nonce : Nonce) (plain : Bytes) : Bytes :=
  nonce.val ++ aead.lock key nonce.val plain

/-- Open bytes that have their nonce in front. -/
def unlock (aead : Aead) (key sealed : Bytes) : Except CipherFault Bytes :=
  match Bytes.take? nonceLength sealed with
  | none => .error .nonceMissing
  | some (nonce, sealed) =>
    match aead.unlock key nonce sealed with
    | some plain => .ok plain
    | none => .error .notAuthentic

/-- The time and the data key in a record. -/
def openRecord (aead : Aead) (master : Bytes) (id : UInt32) (record : Bytes) :
    Except CipherFault (UInt64 × DataKey) := do
  match Bytes.take? timeLength record with
  | none => throw (.recordCorrupt id.toNat)
  | some (time, wrapped) =>
    let raw ← unlock aead master wrapped
    if length : raw.length = 32 then return (UInt64.ofNat (Bytes.toNat time), ⟨raw, length⟩)
    else throw (.dataKeyCorrupt id.toNat)

/-- The data keys of all records with their times, in the order of records. -/
def openRecords (aead : Aead) (master : Bytes) :
    List (Bytes × Bytes) → Except CipherFault (List (UInt32 × UInt64 × DataKey))
  | [] => .ok []
  | (id, record) :: rest => do
    let id ← parseId id
    let (time, key) ← openRecord aead master id record
    return (id, time, key) :: (← openRecords aead master rest)

/-- The entry with the largest key number, the first of several. -/
def newest : List (UInt32 × UInt64 × DataKey) → Option (UInt32 × UInt64)
  | [] => none
  | (id, time, _) :: rest =>
    match newest rest with
    | none => some (id, time)
    | some (other, otherTime) => if id < other then some (other, otherTime) else some (id, time)

/-- The number of the next data key: one more than the largest, or one. -/
def nextId (vault : Vault) : UInt32 :=
  match vault.keys.keys.max? with
  | some largest => largest + 1
  | none => 1

/-- Make a new data key and use it from now on. -/
def rotate (aead : Aead) (vault : Vault) : Vault :=
  let key := vault.outside.dataKeys.current
  let id := vault.nextId
  let time := vault.outside.clock.current
  let record :=
    Bytes.ofNat timeLength time.toNat
      ++ lock aead vault.master vault.outside.nonces.current key.val
  { vault with
    records := vault.records.insert (idBytes id) record
    keys := vault.keys.insert id key
    active := id
    createdAt := time
    outside :=
      ⟨vault.outside.clock.advance, vault.outside.nonces.advance,
        vault.outside.dataKeys.advance⟩ }

/-- Whether the active key is too old at the given time. -/
def isStaleAt (vault : Vault) (now : UInt64) : Bool :=
  decide (vault.rotation.seconds.toNat ≤ now.toNat - vault.createdAt.toNat)

/-- Look at the clock once: whether the active key is too old. -/
def checkAge (vault : Vault) : Bool × Vault :=
  (vault.isStaleAt vault.outside.clock.current,
    { vault with outside := { vault.outside with clock := vault.outside.clock.advance } })

/-- Make a new data key if the active one is too old. -/
def rotateIfStale (aead : Aead) (vault : Vault) : Vault :=
  match vault.checkAge with
  | (true, vault) => vault.rotate aead
  | (false, vault) => vault

/-- The vault that the records hold; the first data key is made when there is
none. -/
def load? (aead : Aead) (master : Bytes) (rotation : Duration) (records : Tree)
    (outside : Surroundings) : Except CipherFault Vault := do
  let opened ← openRecords aead master records.entries
  let keys := opened.foldl (fun keys (id, _, key) => keys.insert id key) Listing.empty
  match newest opened with
  | some (active, createdAt) =>
    return { master, rotation, records, keys, active, createdAt, outside }
  | none =>
    return rotate aead { master, rotation, records, keys, active := 0, createdAt := 0, outside }

/-- Open the vault that the records hold, with a master key of a length that
AES knows. -/
def open? (aead : Aead) (master : Bytes) (rotation : Duration) (records : Tree)
    (outside : Surroundings) : Except StoreError Vault :=
  if Aead.isKeyLength master.length then
    (load? aead master rotation records outside).mapError .cipher
  else .error (.invalidEncryptionKey master.length)

/-- Seal a value under the active key. -/
def lockActive (aead : Aead) (plain : Bytes) (vault : Vault) :
    Except CipherFault Bytes × Vault :=
  match vault.keys.get? vault.active with
  | none => (.error (.activeKeyMissing vault.active.toNat), vault)
  | some key =>
    (.ok (idBytes vault.active ++ lock aead key.val vault.outside.nonces.current plain),
      { vault with outside := { vault.outside with nonces := vault.outside.nonces.advance } })

/-- Seal a value, under a new key if the active one is too old.  The age is
checked again before a key is made. -/
def encrypt (aead : Aead) (plain : Bytes) (vault : Vault) : Except CipherFault Bytes × Vault :=
  match vault.checkAge with
  | (false, vault) => vault.lockActive aead plain
  | (true, vault) => (vault.rotateIfStale aead).lockActive aead plain

/-- Open a sealed value. -/
def decrypt (aead : Aead) (vault : Vault) (bytes : Bytes) : Except CipherFault Bytes := do
  match Bytes.take? keyIdLength bytes with
  | none => throw .keyIdMissing
  | some (id, sealed) =>
    let id ← parseId id
    match vault.keys.get? id with
    | none => throw (.keyUnknown id.toNat)
    | some key => unlock aead key.val sealed

end Vault

end TypedStore
