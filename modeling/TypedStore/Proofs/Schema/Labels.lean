import TypedStore.Proofs.Schema.Recovery

/-!
# Variants that are written by their labels

Payloads in envelopes number the variants of unions, keys and plain payloads name them.  Whoever
reads wire values knows the numbers only.  So a datum without a variant is written alike in both
styles, and a datum that holds a variant anywhere, as an item of a list or deep inside a record,
is not read back from its labelled form at all.

Nothing else tells the two styles apart.
-/

namespace TypedStore

namespace Datum

mutual

/-- Whether there is a variant of a union anywhere in a datum.  Dynamic values are not looked
into: they number their variants in either style. -/
def holdsVariant : Datum → Bool
  | .present item => holdsVariant item
  | .list items => itemsHoldVariant items
  | .map entries => entriesHoldVariant entries
  | .tuple items => itemsHoldVariant items
  | .variant _ _ _ => true
  | _ => false

/-- `holdsVariant` for the items of a list or a tuple. -/
def itemsHoldVariant : List Datum → Bool
  | [] => false
  | item :: rest => holdsVariant item || itemsHoldVariant rest

/-- `holdsVariant` for the entries of a map. -/
def entriesHoldVariant : List (String × Datum) → Bool
  | [] => false
  | (_, item) :: rest => holdsVariant item || entriesHoldVariant rest

end

mutual

/-- Without variants the two styles are one. -/
theorem toWire_labelled : ∀ datum : Datum, datum.holdsVariant = false →
    datum.toWire .labelled = datum.toWire .numbered
  | .present item, plain => by
    rw [toWire, toWire]
    exact toWire_labelled item plain
  | .list items, plain => by
    rw [toWire, toWire, itemsToWire_labelled items plain]
  | .map entries, plain => by
    rw [toWire, toWire, entriesToWire_labelled entries plain]
  | .tuple items, plain => by
    rw [toWire, toWire, itemsToWire_labelled items plain]
  | .variant _ _ _, plain => Bool.noConfusion plain
  | .bool _, _ | .int _, _ | .f32 _, _ | .f64 _, _ | .char _, _ | .text _, _ | .unit, _
  | .absent, _ | .guarded _, _ | .dyn _, _ => by rw [toWire, toWire]

theorem itemsToWire_labelled : ∀ items : List Datum, itemsHoldVariant items = false →
    itemsToWire .labelled items = itemsToWire .numbered items
  | [], _ => rfl
  | item :: rest, plain => by
    rcases Bool.or_eq_false_iff.mp plain with ⟨first, others⟩
    rw [itemsToWire, itemsToWire, toWire_labelled item first, itemsToWire_labelled rest others]

theorem entriesToWire_labelled : ∀ entries : List (String × Datum),
    entriesHoldVariant entries = false →
    entriesToWire .labelled entries = entriesToWire .numbered entries
  | [], _ => rfl
  | (key, item) :: rest, plain => by
    rcases Bool.or_eq_false_iff.mp plain with ⟨first, others⟩
    rw [entriesToWire, entriesToWire, toWire_labelled item first,
      entriesToWire_labelled rest others]

end

/-- What is written as nil is an option or a unit, and holds no variant. -/
theorem holdsVariant_of_isNil : ∀ datum : Datum, datum.isNil = true → datum.holdsVariant = false
  | .present item, nil => holdsVariant_of_isNil item nil
  | .unit, _ | .absent, _ | .dyn _, _ => rfl
  | .bool _, nil | .int _, nil | .f32 _, nil | .f64 _, nil | .char _, nil | .text _, nil
  | .list _, nil | .map _, nil | .tuple _, nil | .variant _ _ _, nil | .guarded _, nil => by
    cases nil

end Datum

namespace Schema

open Datum

/-- A variant is read from an array, and none is labelled by one. -/
theorem readVariant_labelled (cases : List (String × PayloadReader)) (index : Nat) (label : String)
    (payload : Payload Wire) :
    readVariant cases (CaseStyle.labelled.variant index label payload) = none := by
  cases payload <;> rfl

mutual

/-- A labelled variant spoils what it stands in.  The induction is on the datum, as for
`ofWire?_toWire`. -/
theorem ofWire?_labelled : ∀ (datum : Datum) (schema : Schema) {data : Wire},
    datum.fits schema = true → datum.holdsVariant = true → datum.toWire .labelled = .ok data →
      schema.ofWire? data = none
  | .present item, schema, data, fits, holds, written => by
    rcases of_fits_present fits with ⟨inner, rfl, itemFits⟩
    rw [toWire] at written
    have other : data ≠ .nil := by
      intro nil
      have itemNil := (toWire_eq_nil_iff .labelled item written).mp nil
      exact Bool.false_ne_true ((holdsVariant_of_isNil item itemNil).symm.trans holds)
    rw [ofWire?_option other, ofWire?_labelled item inner itemFits holds written, Option.map_none]
  | .list items, schema, data, fits, holds, written => by
    rcases of_fits_list fits with ⟨inner, rfl, itemsFit⟩
    rw [toWire] at written
    rcases exists_of_map_eq_ok written with ⟨wires, wiresWritten, rfl⟩
    rw [ofWire?_list, mapM_labelled items inner itemsFit holds wiresWritten, Option.map_none]
  | .map entries, schema, data, fits, holds, written => by
    rcases of_fits_map fits with ⟨inner, rfl, _, entriesFit⟩
    rw [toWire] at written
    rcases exists_of_map_eq_ok written with ⟨wires, wiresWritten, rfl⟩
    rw [ofWire?_map, mapM_labelled_entries entries inner entriesFit holds wiresWritten,
      Option.map_none]
  | .tuple items, schema, data, fits, holds, written => by
    rw [toWire] at written
    rcases exists_of_map_eq_ok written with ⟨wires, wiresWritten, rfl⟩
    rcases of_fits_tuple fits with ⟨inner, rfl, itemsFit⟩ | ⟨name, fields, rfl, itemsFit⟩
    · rw [ofWire?_tuple, readEach_labelled items inner itemsFit holds wiresWritten,
        Option.map_none]
    · rw [ofWire?_record, readRecord, read_fieldsOf,
        readEach_labelled items _ itemsFit holds wiresWritten, Option.map_none]
  | .variant index label payload, schema, data, fits, _, written => by
    rcases of_fits_variant fits with ⟨name, cases, carried, rfl, _, _⟩
    rw [toWire] at written
    rcases exists_of_map_eq_ok written with ⟨wires, _, rfl⟩
    rw [ofWire?_union, readVariant_labelled]
  | .bool _, _, _, _, holds, _ | .int _, _, _, _, holds, _ | .f32 _, _, _, _, holds, _
  | .f64 _, _, _, _, holds, _ | .char _, _, _, _, holds, _ | .text _, _, _, _, holds, _
  | .unit, _, _, _, holds, _ | .absent, _, _, _, holds, _ | .guarded _, _, _, _, holds, _
  | .dyn _, _, _, _, holds, _ => by cases holds

theorem mapM_labelled : ∀ (items : List Datum) (schema : Schema) {wires : List Wire},
    allFit items schema = true → itemsHoldVariant items = true →
      itemsToWire .labelled items = .ok wires → wires.mapM schema.ofWire? = none
  | [], _, _, _, holds, _ => by cases holds
  | item :: rest, schema, wires, fits, holds, written => by
    rcases itemsToWire_cons written with ⟨first, others, firstWritten, othersWritten, rfl⟩
    rcases Bool.and_eq_true_iff.mp fits with ⟨itemFits, restFit⟩
    rw [List.mapM_cons]
    rcases Bool.or_eq_true_iff.mp holds with here | later
    · rw [ofWire?_labelled item schema itemFits here firstWritten]
      rfl
    · rw [mapM_labelled rest schema restFit later othersWritten]
      cases schema.ofWire? first <;> rfl

theorem readEach_labelled : ∀ (items : List Datum) (schemas : List Schema) {wires : List Wire},
    eachFits items schemas = true → itemsHoldVariant items = true →
      itemsToWire .labelled items = .ok wires → readEach (readersOf schemas) wires = none
  | [], _, _, _, holds, _ => by cases holds
  | _ :: _, [], _, fits, _, _ => by cases fits
  | item :: rest, schema :: schemas, wires, fits, holds, written => by
    rcases itemsToWire_cons written with ⟨first, others, firstWritten, othersWritten, rfl⟩
    rcases Bool.and_eq_true_iff.mp fits with ⟨itemFits, restFit⟩
    rw [readersOf, readEach]
    rcases Bool.or_eq_true_iff.mp holds with here | later
    · rw [ofWire?_labelled item schema itemFits here firstWritten]
      rfl
    · rw [readEach_labelled rest schemas restFit later othersWritten]
      cases schema.ofWire? first <;> rfl

theorem mapM_labelled_entries : ∀ (entries : List (String × Datum)) (schema : Schema)
    {wires : List (Wire × Wire)}, entriesFit entries schema = true →
      entriesHoldVariant entries = true → entriesToWire .labelled entries = .ok wires →
      (wires.mapM fun (key, value) => do
        let key ← textOfWire? key
        let value ← schema.ofWire? value
        return (key, value)) = none
  | [], _, _, _, holds, _ => by cases holds
  | (key, item) :: rest, schema, wires, fits, holds, written => by
    rcases entriesToWire_cons written with ⟨first, others, firstWritten, othersWritten, rfl⟩
    rcases Bool.and_eq_true_iff.mp fits with ⟨itemFits, restFit⟩
    rw [List.mapM_cons]
    rcases Bool.or_eq_true_iff.mp holds with here | later
    · dsimp only
      rw [ofWire?_labelled item schema itemFits here firstWritten]
      rfl
    · rw [mapM_labelled_entries rest schema restFit later othersWritten]
      dsimp only
      cases schema.ofWire? first <;> rfl

end

/-- What a schema reads from the labelled form of a datum. -/
theorem ofWire?_toWire_labelled {datum : Datum} {schema : Schema} {data : Wire}
    (static : schema.isStatic = true) (fits : datum.fits schema = true)
    (written : datum.toWire .labelled = .ok data) :
    schema.ofWire? data = if datum.holdsVariant then none else some datum.settled := by
  cases holds : datum.holdsVariant with
  | true => exact ofWire?_labelled datum schema fits holds written
  | false =>
    rw [toWire_labelled datum holds] at written
    exact ofWire?_toWire datum schema static fits written

end Schema
end TypedStore
