import TypedStore.Envelope
import TypedStore.Proofs.Outcome
import TypedStore.Proofs.Wire.Heads

/-!
# What payloads begin with

The first byte of a payload decides how it is read.  A byte below `0x80` is a whole
value, a small integer, and what follows it is not looked at.  So `decodeValue` makes
of such bytes what the schema that is asked for makes of that integer, and
`Schema.takesSmall` says whether it makes anything of it.

A payload that was written is an envelope, a map of one or two entries, and begins
with a byte from `0x80` on.
-/

namespace TypedStore

open Envelope

/-! ## Payloads that were written -/

/-- The data and the name in the payload of a value, if it has a wire form. -/
def envelopeOf (schema : Schema) (value : Datum) : Option (Wire × Option String) :=
  match schema, value with
  | .dyn, .dyn value => value.toWire.toOption.map fun data => (data, value.typeName)
  | _, _ => (value.toWire .numbered).toOption.map fun data => (data, some schema.tag)

theorem encodeValue_eq_ok {schema : Schema} {value : Datum} {writer : Registry} {payload : Bytes}
    (written : (encodeValue schema value writer).1 = .ok payload) :
    ∃ data name, envelopeOf schema value = some (data, name) ∧
      payload = (wrap data name).write := by
  unfold encodeValue at written
  split at written
  · next value =>
    unfold encodeDyn at written
    rcases exists_of_map_eq_ok written with ⟨data, converted, rfl⟩
    refine ⟨data, value.typeName, ?_, rfl⟩
    simp only [envelopeOf, converted, Except.toOption, Option.map_some]
  · next notDyn =>
    cases converted : value.toWire .numbered with
    | error fault =>
      rw [converted] at written
      cases written
    | ok data =>
      rw [converted] at written
      cases written
      refine ⟨data, some schema.tag, ?_, rfl⟩
      unfold envelopeOf
      split
      · next value => exact absurd rfl (notDyn value rfl)
      · simp only [converted, Except.toOption, Option.map_some]

/-- Whether bytes are the payload of a value. -/
def IsPayload (bytes : Bytes) : Prop :=
  ∃ schema value writer, (encodeValue schema value writer).1 = .ok bytes

theorem IsPayload.head {bytes : Bytes} (isPayload : IsPayload bytes) :
    ∃ first rest, bytes = first :: rest ∧ 0x80 ≤ first.toNat := by
  rcases isPayload with ⟨schema, value, writer, written⟩
  rcases encodeValue_eq_ok written with ⟨data, name, _, rfl⟩
  cases name with
  | none => exact ⟨0x81, _, rfl, by decide⟩
  | some text => exact ⟨0x82, _, rfl, by decide⟩

/-! ## Small integers -/

/-- Whether data of a schema are made of a small integer. -/
def Schema.takesSmall : Schema → Bool
  | .int _ => true
  | .f32 => true
  | .f64 => true
  | .option item => item.takesSmall
  | .guarded _ => true
  | .dyn => true
  | _ => false

theorem IntKind.holds_small (kind : IntKind) {value : Int} (low : 0 ≤ value)
    (high : value < 0x80) : kind.holds value = true := by
  have lowest : kind.lowest ≤ 0 := by cases kind <;> decide
  have highest : 0x7f ≤ kind.highest := by cases kind <;> decide
  apply decide_eq_true
  exact ⟨by omega, by omega⟩

theorem Schema.isSome_ofWire?_small {value : WireInt} (low : 0 ≤ value.val)
    (high : value.val < 0x80) :
    ∀ schema : Schema, (schema.ofWire? (.int value)).isSome = schema.takesSmall
  | .int kind => by
    change (intDatum? kind value).isSome = true
    rw [intDatum?, if_pos (kind.holds_small low high), Option.isSome_some]
  | .guarded name => by
    change (if IntKind.i64.holds value.val then some (Datum.guarded value) else none).isSome = true
    rw [if_pos (IntKind.i64.holds_small low high), Option.isSome_some]
  | .option item => by
    change (Option.map Datum.present (item.ofWire? (.int value))).isSome = item.takesSmall
    rw [Option.isSome_map]
    exact isSome_ofWire?_small low high item
  | .bool | .f32 | .f64 | .char | .text | .unit | .list _ | .map _ | .tuple _ | .dyn
  | .record _ _ | .union _ _ => rfl

theorem Wire.read_small {first : UInt8} (small : first.toNat < 0x80) (levels : Nat)
    (rest : Bytes) : read levels (first :: rest) = some (.int (.ofByte first), rest) := by
  unfold read
  rw [readHead_cons, if_pos small]

/-- A payload that begins with a small integer is read as that integer. -/
theorem decodeValue_small {first : UInt8} (small : first.toNat < 0x80) (rest : Bytes)
    (schema : Schema) (reader : Registry) :
    (decodeValue schema (first :: rest) reader).toOption =
      schema.ofWire? (.int (.ofByte first)) := by
  have opened : open? (first :: rest) = .ok (.int (.ofByte first), none) := by
    rw [open?, Wire.read_small small]
    · rfl
    · exact List.cons_ne_nil first rest
  unfold decodeValue
  split
  · rw [decodeDyn, opened]
    rfl
  · rw [opened, ok_bind]
    dsimp only
    split
    · next value made =>
      rw [made]
      rfl
    · next refused =>
      rw [refused]
      rfl

end TypedStore
