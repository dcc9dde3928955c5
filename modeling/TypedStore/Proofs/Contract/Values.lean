import TypedStore.Proofs.Contract.Adapter
import TypedStore.Proofs.Envelope.Exchange
import TypedStore.Proofs.Envelope.Keys

/-!
# Values that a typed map keeps

The typed layer asks its codec to preserve the values it is given.  The codec of
a schema without dynamic parts does so whatever registries are like, because its
reader never looks at one.  The dynamic codec does so as long as a name in a
registry stands for one schema: a typed value is read back by the schema that
writing it registered, and by no other.

Engines that encode keys ask for keys that come back.  Those of a schema without
dynamic parts do, within the same limits as values.
-/

namespace TypedStore

open Envelope

/-- Whether a value of a schema comes back whole: it can be sent, is not nested
too deeply, and no present option in it is written as nil. -/
def Schema.Keeps (schema : Schema) (value : Datum) : Prop :=
  ∃ data, Sendable schema value data ∧ data.depth ≤ room ∧ value.isDefinite = true

theorem Schema.valueCodec_preserves (schema : Schema) :
    schema.valueCodec.Preserves (fun _ => True) schema.Keeps where
  encode := by
    rintro value registry ⟨data, sendable, shallow, definite⟩ -
    refine ⟨(wrap data (some schema.tag)).write, ?_, ?_⟩
    · exact congrArg Prod.fst (sendable.encodeValue_eq registry)
    · intro later _ _
      have read := sendable.decodeValue_payload later
      rw [if_pos shallow, (Datum.settled_eq_self_iff value).mpr definite] at read
      exact read
  valid_encode _ _ := trivial
  extends_encode := by
    rintro value registry ⟨data, sendable, -, -⟩ -
    have registered : (schema.valueCodec.encode value registry).2 = registry.register schema :=
      congrArg Prod.snd (sendable.encodeValue_eq registry)
    rw [registered]
    exact registry.register_extends schema

/-! ## Typed values -/

/-- Whether every name of a registry that some schemas have is theirs. -/
def Registry.Unambiguous (family : Schema → Prop) (registry : Registry) : Prop :=
  ∀ held ∈ registry.schemas, ∀ schema, family schema → held.tag = schema.tag → held = schema

/-- A typed value of one of some schemas that keep it. -/
def DynValue.KeptBy (family : Schema → Prop) (value : DynValue) : Prop :=
  ∃ schema held, value = .typed schema held ∧ family schema ∧ schema.Keeps held

theorem dynCodec_preserves {family : Schema → Prop}
    (distinct : ∀ first second, family first → family second → first.tag = second.tag →
      first = second) :
    dynCodec.Preserves (Registry.Unambiguous family) (DynValue.KeptBy family) where
  encode := by
    rintro value registry ⟨schema, held, rfl, inFamily, data, sendable, shallow, definite⟩
      unambiguous
    refine ⟨(wrap data (some schema.tag)).write, ?_, ?_⟩
    · exact congrArg Prod.fst (sendable.encodeDyn_typed registry)
    · intro later laterUnambiguous extended
      have registered : (dynCodec.encode (.typed schema held) registry).2 =
          registry.register schema := congrArg Prod.snd (sendable.encodeDyn_typed registry)
      rw [registered] at extended
      have found : ∃ other, (registry.register schema).find? schema.tag = some other := by
        rw [Registry.find?_register, if_pos rfl]
        cases registry.find? schema.tag with
        | none => exact ⟨schema, rfl⟩
        | some other => exact ⟨other, rfl⟩
      rcases found with ⟨other, found⟩
      have laterFound := extended _ _ found
      have member : other ∈ later.schemas := List.mem_of_find?_eq_some laterFound
      have tagged : other.tag = schema.tag := by
        have matched := List.find?_some laterFound
        exact beq_iff_eq.mp matched
      rw [laterUnambiguous other member schema inFamily tagged] at member
      have read := sendable.decodeDyn_payload later
      rw [if_pos shallow, sendable.decode_of_mem member,
        (Datum.settled_eq_self_iff held).mpr definite] at read
      exact read
  valid_encode := by
    rintro value registry ⟨schema, held, rfl, inFamily, data, sendable, -, -⟩ unambiguous
    have registered : (dynCodec.encode (.typed schema held) registry).2 =
        registry.register schema := congrArg Prod.snd (sendable.encodeDyn_typed registry)
    rw [registered, Registry.register]
    split
    · exact unambiguous
    · intro other member wanted wantedInFamily same
      rcases List.mem_append.mp member with old | new
      · exact unambiguous other old wanted wantedInFamily same
      · rw [List.mem_singleton.mp new] at same ⊢
        exact distinct schema wanted inFamily wantedInFamily same
  extends_encode := by
    rintro value registry ⟨schema, held, rfl, -, data, sendable, -, -⟩ -
    have registered : (dynCodec.encode (.typed schema held) registry).2 =
        registry.register schema := congrArg Prod.snd (sendable.encodeDyn_typed registry)
    rw [registered]
    exact registry.register_extends schema

/-! ## Keys -/

/-- A key comes back if it is not nested too deeply and no present option in it is written as
nil. -/
theorem Schema.keyCodec_faithful {schema : Schema} {key : Datum}
    (keyType : schema.isKeyType = true) (fits : key.fits schema = true)
    (countable : ∀ data, key.toWire .labelled = .ok data → data.lengthsFit = true)
    (shallow : key.nesting ≤ Wire.maxDepth) (definite : key.isDefinite = true) :
    schema.keyCodec.Faithful key := by
  intro bytes encoded
  have encodedKey : EncodedKey schema key bytes := ⟨keyType, fits, encoded, countable⟩
  have read := encodedKey.decodeKey_append []
  rw [List.append_nil, if_pos shallow, (Datum.settled_eq_self_iff key).mpr definite] at read
  exact read

end TypedStore
