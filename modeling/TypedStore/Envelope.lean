import TypedStore.Registry
import TypedStore.Schema.Direct
import TypedStore.Wire.Printer
import TypedStore.Wire.Reader

/-!
# Keys and payloads as bytes

A key is written as its bare wire form, with labelled variants, and must be
read back whole.

A payload is an envelope: a map of the data and, when there is one, the name
of its schema.  Reading is lenient.  A map with a `data` entry is an envelope
whatever else it holds, its last `data` and `type` entries count, and a type
that is no text is no type; anything else is data without a name.  Only a
dynamic reader looks at the name.
-/

namespace TypedStore

/-- The bytes of a key. -/
def encodeKey (key : Datum) : Except CodecError Bytes :=
  match key.toWire .labelled with
  | .ok data => .ok data.write
  | .error fault => .error (.serialization fault.text)

/-- The key of a schema that the bytes hold, and nothing besides it. -/
def decodeKey (schema : Schema) : Bytes → Except CodecError Datum
  | [] => .error .emptyPayload
  | bytes =>
    match schema.readDirect Wire.maxDepth bytes with
    | none => .error (.deserialization "malformed key")
    | some (key, []) => .ok key
    | some (_, rest) => .error (.trailingBytes rest.length)

namespace Envelope

/-- The label of the data entry. -/
def dataLabel : String := "data"

/-- The label of the entry that names the schema. -/
def typeLabel : String := "type"

/-- The envelope of data and, perhaps, the name of their schema. -/
def wrap (data : Wire) (name : Option String) : Wire :=
  .map ((.str dataLabel, data) ::
    match name with
    | some name => [(.str typeLabel, .str name)]
    | none => [])

/-- The value of the last entry with this text as its key. -/
def last? (label : String) (entries : List (Wire × Wire)) : Option Wire :=
  (entries.reverse.find? fun entry => entry.1.text? == some label).map Prod.snd

/-- The data and the name in an envelope; other data are taken whole. -/
def split (value : Wire) : Wire × Option String :=
  match value with
  | .map entries =>
    match last? dataLabel entries with
    | some data => (data, (last? typeLabel entries).bind Wire.text?)
    | none => (value, none)
  | _ => (value, none)

/-- The wire value at the front of a payload, as data and name. -/
def open? : Bytes → Except CodecError (Wire × Option String)
  | [] => .error .emptyPayload
  | bytes =>
    match Wire.read Wire.maxDepth bytes with
    | none => .error (.deserialization "malformed payload")
    | some (value, _) => .ok (split value)

end Envelope

/-- The payload of a dynamic value, and the registry with its schema added. -/
def encodeDyn (value : DynValue) (registry : Registry) : Except CodecError Bytes × Registry :=
  (value.toWire.map fun data => (Envelope.wrap data value.typeName).write,
    value.registerIn registry)

/-- The payload of a value of a schema, and the registry with that schema
added.  A dynamic value is labelled with the schema of what it holds. -/
def encodeValue (schema : Schema) (value : Datum) (registry : Registry) :
    Except CodecError Bytes × Registry :=
  match schema, value with
  | .dyn, .dyn value => encodeDyn value registry
  | _, _ =>
    (match value.toWire .numbered with
      | .ok data => .ok (Envelope.wrap data (some schema.tag)).write
      | .error fault => .error (.serialization (WriteFault.converting fault.text)),
      registry.register schema)

/-- The dynamic value of a payload, its name resolved by a registry. -/
def decodeDyn (bytes : Bytes) (registry : Registry) : Except CodecError DynValue := do
  let (data, name) ← Envelope.open? bytes
  match name with
  | some name => return registry.decode name data
  | none => return .raw data none

/-- The value of a schema in a payload. -/
def decodeValue (schema : Schema) (bytes : Bytes) (registry : Registry) :
    Except CodecError Datum := do
  match schema with
  | .dyn => return .dyn (← decodeDyn bytes registry)
  | _ =>
    let (data, _) ← Envelope.open? bytes
    match schema.ofWire? data with
    | some value => return value
    | none => throw (.deserialization "data do not fit the requested type")

end TypedStore
