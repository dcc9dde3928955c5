import TypedStore.Proofs.Schema.Consumption
import TypedStore.Proofs.Schema.Recovery

/-!
# Keys come back from the front of bytes

`readDirect_write` is the round trip through the form that keys are written in,
for every schema without a dynamic part.  The reader takes the bytes of the key and
nothing of what follows, whatever that is, and the datum that it makes is the
settled one.

The proof follows the datum and puts readers together as the datum is put together.
`Datum.nesting` is the number of levels that this takes.
-/

namespace TypedStore

namespace Datum

mutual

/-- How many collections lie around the innermost datum when it is read straight from
bytes.  The label of a variant is no level. -/
def nesting : Datum → Nat
  | .present item => nesting item
  | .list items => itemsNesting items + 1
  | .map entries => entriesNesting entries + 1
  | .tuple items => itemsNesting items + 1
  | .variant _ _ payload => payloadNesting payload
  | _ => 0

/-- `nesting` for the items of a list or a tuple. -/
def itemsNesting : List Datum → Nat
  | [] => 0
  | item :: rest => max (nesting item) (itemsNesting rest)

/-- `nesting` for the entries of a map. -/
def entriesNesting : List (String × Datum) → Nat
  | [] => 0
  | (_, item) :: rest => max (nesting item) (entriesNesting rest)

/-- `nesting` for what a variant holds. -/
def payloadNesting : Payload Datum → Nat
  | .none => 0
  | .one item => nesting item
  | .many items => itemsNesting items + 1

end

theorem nesting_of_isNil : ∀ datum : Datum, datum.isNil = true → datum.nesting = 0
  | .present item, nil => by
    rw [nesting]
    exact nesting_of_isNil item nil
  | .unit, _ | .absent, _ | .dyn _, _ => by simp only [nesting]
  | .bool _, nil | .int _, nil | .f32 _, nil | .f64 _, nil | .char _, nil | .text _, nil
  | .list _, nil | .map _, nil | .tuple _, nil | .variant _ _ _, nil | .guarded _, nil => by
    cases nil

end Datum

namespace Schema

mutual

/-- Whether a schema holds no dynamic part, and no union in it uses a label twice. -/
def isKeyType : Schema → Bool
  | .option item => isKeyType item
  | .list item => isKeyType item
  | .map item => isKeyType item
  | .tuple items => itemsKeyTypes items
  | .record _ fields => fieldsKeyTypes fields
  | .union _ cases => decide (cases.map Prod.fst).Nodup && casesKeyTypes cases
  | .dyn => false
  | _ => true

/-- `isKeyType` for the components of a tuple. -/
def itemsKeyTypes : List Schema → Bool
  | [] => true
  | item :: rest => isKeyType item && itemsKeyTypes rest

/-- `isKeyType` for the fields of a record. -/
def fieldsKeyTypes : List (String × Schema) → Bool
  | [] => true
  | (_, item) :: rest => isKeyType item && fieldsKeyTypes rest

/-- `isKeyType` for the variants of a union. -/
def casesKeyTypes : List (String × Case Schema) → Bool
  | [] => true
  | (_, carried) :: rest => caseKeyType carried && casesKeyTypes rest

/-- `isKeyType` for what a variant carries. -/
def caseKeyType : Case Schema → Bool
  | .unit => true
  | .single body => isKeyType body
  | .tuple bodies => itemsKeyTypes bodies
  | .record fields => fieldsKeyTypes fields

end

theorem itemsKeyTypes_fields (fields : List (String × Schema)) :
    itemsKeyTypes (fields.map Prod.snd) = fieldsKeyTypes fields := by
  induction fields with
  | nil => rfl
  | cons field rest hypothesis =>
    rcases field with ⟨label, item⟩
    simp [itemsKeyTypes, fieldsKeyTypes, hypothesis]

theorem caseKeyType_of_getElem? {cases : List (String × Case Schema)} {index : Nat}
    {label : String} {carried : Case Schema} (keyTypes : casesKeyTypes cases = true)
    (found : cases[index]? = some (label, carried)) : caseKeyType carried = true := by
  induction cases generalizing index with
  | nil => cases found
  | cons first rest hypothesis =>
    rcases first with ⟨other, otherCarried⟩
    rcases Bool.and_eq_true_iff.mp keyTypes with ⟨head, tail⟩
    cases index with
    | zero =>
      cases found
      exact head
    | succ index => exact hypothesis tail found

/-! ## Data -/

open Datum

theorem length_of_eachFits {items : List Datum} {schemas : List Schema}
    (fits : eachFits items schemas = true) : items.length = schemas.length := by
  induction items generalizing schemas with
  | nil =>
    cases schemas with
    | nil => rfl
    | cons _ _ => cases fits
  | cons item rest hypothesis =>
    cases schemas with
    | nil => cases fits
    | cons schema schemas =>
      rw [List.length_cons, hypothesis (Bool.and_eq_true_iff.mp fits).2, List.length_cons]

theorem length_of_itemsToWire {style : CaseStyle} {items : List Datum} {wires : List Wire}
    (written : itemsToWire style items = .ok wires) : wires.length = items.length := by
  induction items generalizing wires with
  | nil =>
    cases written
    rfl
  | cons item rest hypothesis =>
    rcases itemsToWire_cons written with ⟨first, others, _, othersWritten, rfl⟩
    rw [List.length_cons, hypothesis othersWritten, List.length_cons]

theorem length_of_entriesToWire {style : CaseStyle} {entries : List (String × Datum)}
    {wires : List (Wire × Wire)} (written : entriesToWire style entries = .ok wires) :
    wires.length = entries.length := by
  induction entries generalizing wires with
  | nil =>
    cases written
    rfl
  | cons entry rest hypothesis =>
    rcases entry with ⟨key, item⟩
    rcases entriesToWire_cons written with ⟨first, others, _, othersWritten, rfl⟩
    rw [List.length_cons, hypothesis othersWritten, List.length_cons]

mutual

/-- A key is read from the front of any bytes that begin with its written form. -/
theorem readDirect_write : ∀ (datum : Datum) (schema : Schema) {data : Wire},
    schema.isKeyType = true → datum.fits schema = true → datum.toWire .labelled = .ok data →
      data.lengthsFit = true →
      Consumes (readDirect schema) datum.nesting data.write datum.settled
  | .bool value, schema, data, _, fits, written, _ => by
    cases schema with
    | bool =>
      cases written
      exact consumes_byHead (.bool value) (fun rest => by cases value <;> rfl) rfl
    | _ => cases fits
  | .int value, schema, data, _, fits, written, _ => by
    cases schema with
    | int kind =>
      cases written
      exact consumes_byHead _ (Wire.readHead_writeInt value) (if_pos fits)
    | _ => cases fits
  | .f32 bits, schema, data, _, fits, written, _ => by
    cases schema with
    | f32 =>
      cases written
      exact consumes_byHead _ (Wire.readHead_f32 bits) rfl
    | _ => cases fits
  | .f64 bits, schema, data, _, fits, written, _ => by
    cases schema with
    | f64 =>
      cases written
      exact consumes_byHead _ (Wire.readHead_f64 bits) rfl
    | _ => cases fits
  | .char value, schema, data, _, fits, written, countable => by
    cases schema with
    | char =>
      cases written
      have short := of_decide_eq_true countable
      refine consumes_byHead (.str (Bytes.utf8 value.toString)) (fun rest => ?_) ?_
      · rw [Wire.write, Wire.writeText, List.append_assoc, Wire.readHead_textHeader _ _ short]
      · change (Bytes.text? (Bytes.utf8 value.toString)).bind _ = _
        rw [Bytes.text?_utf8, Option.bind_some]
        change (onlyChar? value.toString).bind _ = _
        rw [onlyChar?_toString]
        rfl
    | _ => cases fits
  | .text value, schema, data, _, fits, written, countable => by
    cases schema with
    | text =>
      cases written
      have short := of_decide_eq_true countable
      refine consumes_byHead (.str (Bytes.utf8 value)) (fun rest => ?_) ?_
      · rw [Wire.write, Wire.writeText, List.append_assoc, Wire.readHead_textHeader _ _ short]
      · simp [ofHead?, Bytes.text?_utf8, settled]
    | _ => cases fits
  | .unit, schema, data, _, fits, written, _ => by
    cases schema with
    | unit =>
      cases written
      exact consumes_byHead _ (fun _ => rfl) rfl
    | _ => cases fits
  | .absent, schema, data, _, fits, written, _ => by
    cases schema with
    | option inner =>
      cases written
      intro levels rest
      simp only [nesting, Nat.zero_le, if_true]
      rw [readDirect]
      rfl
    | _ => cases fits
  | .guarded value, schema, data, _, fits, written, _ => by
    cases schema with
    | guarded name =>
      rw [toWire] at written
      split at written
      · cases written
      · cases written
        exact consumes_byHead _ (Wire.readHead_writeInt value) (if_pos fits)
    | _ => cases fits
  | .dyn value, schema, data, keyType, fits, _, _ => by
    cases schema with
    | dyn => cases keyType
    | _ => cases fits
  | .present item, schema, data, keyType, fits, written, countable => by
    rcases of_fits_present fits with ⟨inner, rfl, itemFits⟩
    rw [toWire] at written
    have nil := toWire_eq_nil_iff .labelled item written
    have takes := readDirect_write item inner keyType itemFits written countable
    rw [settled, nesting]
    by_cases itemNil : item.isNil = true
    · obtain rfl := nil.mpr itemNil
      rw [if_pos itemNil, nesting_of_isNil item itemNil]
      intro levels rest
      rw [readDirect, if_pos (Nat.zero_le levels)]
      rfl
    · rw [if_neg itemNil]
      intro levels rest
      rcases exists_readHead_write countable (fun same => itemNil (nil.mp same)) rest with
        ⟨head, after, begins, present⟩
      rw [readDirect_option begins present, takes]
      split <;> rfl
  | .list items, schema, data, keyType, fits, written, countable => by
    rcases of_fits_list fits with ⟨inner, rfl, itemsFit⟩
    rw [toWire] at written
    rcases exists_of_map_eq_ok written with ⟨wires, wiresWritten, rfl⟩
    rcases Bool.and_eq_true_iff.mp countable with ⟨few, wiresFit⟩
    have same := length_of_itemsToWire wiresWritten
    rw [Wire.write, settled, nesting]
    apply consumes_list _ (of_decide_eq_true few)
    rw [same]
    exact readTimes_writeItems items inner keyType itemsFit wiresWritten wiresFit
  | .map entries, schema, data, keyType, fits, written, countable => by
    rcases of_fits_map fits with ⟨inner, rfl, ascending, entriesFit⟩
    rw [toWire] at written
    rcases exists_of_map_eq_ok written with ⟨wires, wiresWritten, rfl⟩
    rcases Bool.and_eq_true_iff.mp countable with ⟨few, wiresFit⟩
    have same := length_of_entriesToWire wiresWritten
    have takes := readTimes_writeEntries entries inner keyType entriesFit wiresWritten wiresFit
    rw [← same] at takes
    rw [← ascending_settledEntries] at ascending
    rw [Wire.write, settled, nesting, ← mapDatum_of_ascending ascending]
    exact consumes_map takes (of_decide_eq_true few)
  | .tuple items, schema, data, keyType, fits, written, countable => by
    rw [toWire] at written
    rcases exists_of_map_eq_ok written with ⟨wires, wiresWritten, rfl⟩
    rcases Bool.and_eq_true_iff.mp countable with ⟨few, wiresFit⟩
    rw [Wire.write, settled, nesting]
    rcases of_fits_tuple fits with ⟨inner, rfl, itemsFit⟩ | ⟨name, fields, rfl, itemsFit⟩
    · have same := (length_of_itemsToWire wiresWritten).trans (length_of_eachFits itemsFit)
      rw [same] at few ⊢
      have takes := readInOrder_writeItems items inner keyType itemsFit wiresWritten wiresFit
      apply (consumes_tuple takes (of_decide_eq_true few)).map Datum.tuple
      intro levels bytes
      rw [readDirect]
    · have same := (length_of_itemsToWire wiresWritten).trans (length_of_eachFits itemsFit)
      rw [same] at few ⊢
      rw [isKeyType, ← itemsKeyTypes_fields] at keyType
      have takes := readInOrder_writeItems items _ keyType itemsFit wiresWritten wiresFit
      apply (consumes_record takes (of_decide_eq_true few)).map Datum.tuple
      intro levels bytes
      rw [readDirect]
  | .variant index label payload, schema, data, keyType, fits, written, countable => by
    rcases of_fits_variant fits with ⟨name, cases, carried, rfl, found, payloadFits⟩
    rcases Bool.and_eq_true_iff.mp keyType with ⟨distinct, casesKey⟩
    rw [toWire] at written
    rcases exists_of_map_eq_ok written with ⟨wires, wiresWritten, rfl⟩
    have carriedKey := caseKeyType_of_getElem? casesKey found
    rw [settled, nesting]
    rcases read_directCaseOf payload carried label index carriedKey payloadFits wiresWritten
        countable with ⟨rfl, rfl, bare⟩ | ⟨body, shape, takes⟩
    · rw [bare] at countable ⊢
      exact consumes_label (of_decide_eq_true distinct) found (of_decide_eq_true countable) rfl
    · rw [shape] at countable ⊢
      simp only [Wire.lengthsFit, Wire.entriesFit, Bool.and_eq_true] at countable
      rw [Wire.write, Wire.writeEntries, Wire.writeEntries, Wire.write, List.append_nil]
      exact consumes_labelled (of_decide_eq_true distinct) found
        (of_decide_eq_true countable.2.1.1) takes

theorem read_directCaseOf : ∀ (payload : Payload Datum) (carried : Case Schema) (label : String)
    (index : Nat) {wires : Payload Wire}, caseKeyType carried = true →
      payloadFits payload carried = true → payloadToWire .labelled payload = .ok wires →
      (CaseStyle.labelled.variant index label wires).lengthsFit = true →
      (payload = .none ∧ carried = .unit ∧
          CaseStyle.labelled.variant index label wires = .str label) ∨
        ∃ body, CaseStyle.labelled.variant index label wires = .map [(.str label, body)] ∧
          Consumes (fun levels => (directCaseOf label carried levels).read)
            (payloadNesting payload) body.write (settledPayload payload)
  | .none, carried, label, index, wires, _, fits, written, _ => by
    cases carried with
    | unit =>
      cases written
      exact .inl ⟨rfl, rfl, rfl⟩
    | _ => cases fits
  | .one item, carried, label, index, wires, keyType, fits, written, countable => by
    cases carried with
    | single body =>
      rcases exists_of_map_eq_ok written with ⟨data, dataWritten, rfl⟩
      have dataFit : data.lengthsFit = true := by
        simp only [CaseStyle.variant, Wire.lengthsFit, Wire.entriesFit,
          Bool.and_eq_true] at countable
        exact countable.2.1.2
      refine .inr ⟨data, rfl, ?_⟩
      apply (readDirect_write item body keyType fits dataWritten dataFit).map Payload.one
      intro levels bytes
      rfl
    | _ => cases fits
  | .many items, carried, label, index, wires, keyType, fits, written, countable => by
    rcases exists_of_map_eq_ok written with ⟨data, dataWritten, rfl⟩
    have dataFit : decide (data.length < 0x100000000) = true ∧ Wire.itemsFit data = true := by
      simp only [CaseStyle.variant, Wire.lengthsFit, Wire.entriesFit, Bool.and_eq_true] at countable
      exact countable.2.1.2
    rcases dataFit with ⟨few, itemsFit⟩
    refine .inr ⟨.array data, rfl, ?_⟩
    rw [Wire.write, payloadNesting, settledPayload]
    cases carried with
    | tuple bodies =>
      have same := (length_of_itemsToWire dataWritten).trans (length_of_eachFits fits)
      rw [same] at few ⊢
      have takes := readInOrder_writeItems items bodies keyType fits dataWritten itemsFit
      apply (consumes_tuple takes (of_decide_eq_true few)).map Payload.many
      intro levels bytes
      rfl
    | record fields =>
      have same := (length_of_itemsToWire dataWritten).trans (length_of_eachFits fits)
      rw [same] at few ⊢
      rw [caseKeyType, ← itemsKeyTypes_fields] at keyType
      have takes := readInOrder_writeItems items _ keyType fits dataWritten itemsFit
      apply (consumes_record takes (of_decide_eq_true few)).map Payload.many
      intro levels bytes
      rfl
    | _ => cases fits

theorem readTimes_writeItems : ∀ (items : List Datum) (schema : Schema) {wires : List Wire},
    schema.isKeyType = true → allFit items schema = true →
      itemsToWire .labelled items = .ok wires → Wire.itemsFit wires = true →
      Consumes (fun levels => Wire.readTimes (readDirect schema levels) items.length)
        (itemsNesting items) (Wire.writeItems wires) (settledItems items)
  | [], schema, wires, _, _, written, _ => by
    cases written
    exact consumes_nothing fun _ _ => rfl
  | item :: rest, schema, wires, keyType, fits, written, countable => by
    rcases itemsToWire_cons written with ⟨first, others, firstWritten, othersWritten, rfl⟩
    rcases Bool.and_eq_true_iff.mp fits with ⟨itemFits, restFit⟩
    rcases Bool.and_eq_true_iff.mp countable with ⟨firstFits, othersFit⟩
    exact (readDirect_write item schema keyType itemFits firstWritten firstFits).both
      (readTimes_writeItems rest schema keyType restFit othersWritten othersFit) List.cons
      fun _ _ => rfl

theorem readInOrder_writeItems : ∀ (items : List Datum) (schemas : List Schema)
    {wires : List Wire}, itemsKeyTypes schemas = true → eachFits items schemas = true →
      itemsToWire .labelled items = .ok wires → Wire.itemsFit wires = true →
      Consumes (fun levels => readInOrder (componentsOf schemas levels)) (itemsNesting items)
        (Wire.writeItems wires) (settledItems items)
  | [], [], wires, _, _, written, _ => by
    cases written
    exact consumes_nothing fun _ _ => rfl
  | [], _ :: _, _, _, fits, _, _ => by cases fits
  | _ :: _, [], _, _, fits, _, _ => by cases fits
  | item :: rest, schema :: schemas, wires, keyTypes, fits, written, countable => by
    rcases itemsToWire_cons written with ⟨first, others, firstWritten, othersWritten, rfl⟩
    rcases Bool.and_eq_true_iff.mp fits with ⟨itemFits, restFit⟩
    rcases Bool.and_eq_true_iff.mp countable with ⟨firstFits, othersFit⟩
    rcases Bool.and_eq_true_iff.mp keyTypes with ⟨itemKey, restKey⟩
    exact (readDirect_write item schema itemKey itemFits firstWritten firstFits).both
      (readInOrder_writeItems rest schemas restKey restFit othersWritten othersFit) List.cons
      fun _ _ => rfl

theorem readTimes_writeEntries : ∀ (entries : List (String × Datum)) (schema : Schema)
    {wires : List (Wire × Wire)}, schema.isKeyType = true → entriesFit entries schema = true →
      entriesToWire .labelled entries = .ok wires → Wire.entriesFit wires = true →
      Consumes (fun levels => Wire.readTimes (Wire.readPair readKey (readDirect schema levels))
        entries.length) (entriesNesting entries) (Wire.writeEntries wires) (settledEntries entries)
  | [], schema, wires, _, _, written, _ => by
    cases written
    exact consumes_nothing fun _ _ => rfl
  | (key, item) :: rest, schema, wires, keyType, fits, written, countable => by
    rcases entriesToWire_cons written with ⟨first, others, firstWritten, othersWritten, rfl⟩
    rcases Bool.and_eq_true_iff.mp fits with ⟨itemFits, restFit⟩
    rcases Bool.and_eq_true_iff.mp countable with ⟨entryFits, othersFit⟩
    rcases Bool.and_eq_true_iff.mp entryFits with ⟨keyFits, firstFits⟩
    have keyTakes := consumes_readKey (of_decide_eq_true keyFits)
    have itemTakes := readDirect_write item schema keyType itemFits firstWritten firstFits
    have restTakes := readTimes_writeEntries rest schema keyType restFit othersWritten othersFit
    have pairTakes : Consumes (fun levels => Wire.readPair readKey (readDirect schema levels))
        (max 0 item.nesting) (Wire.writeText key ++ first.write) (key, item.settled) :=
      keyTakes.both itemTakes Prod.mk fun _ _ => rfl
    rw [Nat.zero_max] at pairTakes
    rw [Wire.writeEntries, ← List.append_assoc]
    exact pairTakes.both restTakes List.cons fun _ _ => rfl

end

end Schema
end TypedStore
