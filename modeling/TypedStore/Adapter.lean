import TypedStore.Envelope
import TypedStore.Storage

/-!
# Typed values over byte engines

An engine that stores byte strings serves any type of values through a
`ValueCodec`.  A value that cannot be written is not stored, a payload that
cannot be read counts as absent: `load` gives nothing, a walk passes over it,
and taking the next entry discards it and tries again.  Every write may
add to the registry that belongs to the layer.
-/

namespace TypedStore

/-- How keys are turned into bytes and back. -/
structure KeyCodec (κ : Type) where
  encode : κ → Except CodecError Bytes
  decode : Bytes → Except CodecError κ

/-- How values are turned into payloads and back, by a registry that a write
may extend. -/
structure ValueCodec (ν : Type) where
  encode : ν → Registry → Except CodecError Bytes × Registry
  decode : Bytes → Registry → Except CodecError ν

/-- Keys of a schema. -/
def Schema.keyCodec (schema : Schema) : KeyCodec Datum where
  encode := encodeKey
  decode := decodeKey schema

/-- Values of a schema. -/
def Schema.valueCodec (schema : Schema) : ValueCodec Datum where
  encode := encodeValue schema
  decode := decodeValue schema

/-- Dynamic values. -/
def dynCodec : ValueCodec DynValue where
  encode := encodeDyn
  decode := decodeDyn

namespace KeyCodec

variable {κ : Type}

/-- The bytes of a key that can be written. -/
def bytes? (codec : KeyCodec κ) (key : κ) : Option Bytes :=
  (codec.encode key).toOption

/-- The key that bytes hold, if they hold one. -/
def key? (codec : KeyCodec κ) (bytes : Bytes) : Option κ :=
  (codec.decode bytes).toOption

end KeyCodec

namespace Adapter

variable {σ κ ν : Type}

/-- Take entries until one can be read. -/
def nextReadable (codec : ValueCodec ν) (inner : Storage σ κ Bytes) (registry : Registry) :
    (fuel : Nat) → σ → Option (κ × ν) × σ
  | 0, state => (none, state)
  | fuel + 1, state =>
    match inner.next state with
    | (none, state) => (none, state)
    | (some (key, bytes), state) =>
      match codec.decode bytes registry with
      | .ok value => (some (key, value), state)
      | .error _ => nextReadable codec inner registry fuel state

/-- The visitor that sees readable values only. -/
def readableOnly {α : Type} (codec : ValueCodec ν) (registry : Registry)
    (visit : Visitor κ ν α) : Visitor κ Bytes α :=
  fun key bytes gathered =>
    match codec.decode bytes registry with
    | .ok value => visit key value gathered
    | .error _ => (gathered, true)

/-- Typed values over a byte engine, with a registry of their own. -/
def storage (codec : ValueCodec ν) (inner : Storage σ κ Bytes) :
    Storage (Registry × σ) κ ν where
  load key := fun (registry, state) =>
    let (bytes, state) := inner.load key state
    (bytes.bind fun bytes => (codec.decode bytes registry).toOption, registry, state)
  store key value := fun (registry, state) =>
    match codec.encode value registry with
    | (.ok bytes, registry) => (registry, inner.store key bytes state)
    | (.error _, registry) => (registry, state)
  storeIfAbsent key value := fun (registry, state) =>
    match codec.encode value registry with
    | (.ok bytes, registry) =>
      let (inserted, state) := inner.storeIfAbsent key bytes state
      (inserted, registry, state)
    | (.error _, registry) => (false, registry, state)
  delete keys := fun (registry, state) => (registry, inner.delete keys state)
  range visit gathered := fun (registry, state) =>
    let (gathered, state) := inner.range (readableOnly codec registry visit) gathered state
    (gathered, registry, state)
  next := fun (registry, state) =>
    let (entry, state) := nextReadable codec inner registry (inner.size state + 1) state
    (entry, registry, state)
  keys := fun (registry, state) =>
    let (keys, state) := inner.keys state
    (keys, registry, state)
  len := fun (registry, state) =>
    let (count, state) := inner.len state
    (count, registry, state)
  clear := fun (registry, state) => (registry, inner.clear state)
  close := fun (registry, state) =>
    let (answer, state) := inner.close state
    (answer, registry, state)
  size := fun (_, state) => inner.size state

end Adapter

end TypedStore
