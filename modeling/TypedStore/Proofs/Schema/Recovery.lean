import TypedStore.Proofs.Datum.Settled
import TypedStore.Schema.OfWire

/-!
# Data come back from their wire form

`ofWire?_toWire` is the round trip through the wire form that payloads use, for
every schema without a dynamic part.  The datum that comes back is the settled
one, which is the datum itself unless it holds a present option written as nil.

The proof follows the datum.  Its schema is read off the constructor, and each
way of putting data together has one lemma about the reader that takes it
apart again: items of a list, items of a tuple, entries of a map, and what a
variant carries.
-/

namespace TypedStore

namespace Schema

mutual

/-- Whether a schema holds no dynamic part, and the variants of its unions can be
numbered in four bytes. -/
def isStatic : Schema → Bool
  | .option item => isStatic item
  | .list item => isStatic item
  | .map item => isStatic item
  | .tuple items => itemsStatic items
  | .record _ fields => fieldsStatic fields
  | .union _ cases => decide (cases.length ≤ 0x100000000) && casesStatic cases
  | .dyn => false
  | _ => true

/-- `isStatic` for the components of a tuple. -/
def itemsStatic : List Schema → Bool
  | [] => true
  | item :: rest => isStatic item && itemsStatic rest

/-- `isStatic` for the fields of a record. -/
def fieldsStatic : List (String × Schema) → Bool
  | [] => true
  | (_, item) :: rest => isStatic item && fieldsStatic rest

/-- `isStatic` for the variants of a union. -/
def casesStatic : List (String × Case Schema) → Bool
  | [] => true
  | (_, carried) :: rest => caseStatic carried && casesStatic rest

/-- `isStatic` for what a variant carries. -/
def caseStatic : Case Schema → Bool
  | .unit => true
  | .single body => isStatic body
  | .tuple bodies => itemsStatic bodies
  | .record fields => fieldsStatic fields

end

theorem insertEntry_last (key : String) (datum : Datum) (entries : List (String × Datum))
    (greatest : ∀ entry ∈ entries, entry.1 < key) :
    insertEntry key datum entries = entries ++ [(key, datum)] := by
  induction entries with
  | nil => rfl
  | cons entry rest hypothesis =>
    rcases entry with ⟨other, item⟩
    have before : other < key := greatest (other, item) List.mem_cons_self
    have notAfter : ¬key < other := String.lt_asymm before
    have different : ¬key = other := fun same => String.lt_irrefl key (by
      rw [same] at before ⊢
      exact before)
    rw [insertEntry, if_neg notAfter, if_neg different,
      hypothesis fun entry member => greatest entry (List.mem_cons_of_mem _ member)]
    rfl

theorem foldl_insertEntry (entries start : List (String × Datum))
    (ascending : (start ++ entries).Pairwise fun first second => first.1 < second.1) :
    entries.foldl (fun sorted (key, datum) => insertEntry key datum sorted) start =
      start ++ entries := by
  induction entries generalizing start with
  | nil => simp
  | cons entry rest hypothesis =>
    rcases entry with ⟨key, datum⟩
    have parts := List.pairwise_append.mp ascending
    have last : ∀ entry ∈ start, entry.1 < key := fun entry member =>
      parts.2.2 entry member (key, datum) List.mem_cons_self
    rw [List.foldl_cons]
    dsimp only
    rw [insertEntry_last key datum start last, hypothesis]
    · simp
    · simpa using ascending

theorem mapDatum_of_ascending {entries : List (String × Datum)}
    (ascending : Datum.ascending entries = true) : mapDatum entries = .map entries := by
  rw [mapDatum, foldl_insertEntry entries [] (of_decide_eq_true ascending), List.nil_append]

theorem read_fieldsOf (fields : List (String × Schema)) :
    (fieldsOf fields).map Field.read = readersOf (fields.map Prod.snd) := by
  induction fields with
  | nil => simp only [fieldsOf, List.map_nil, readersOf]
  | cons field rest hypothesis =>
    rcases field with ⟨label, item⟩
    simp only [fieldsOf, List.map_cons, readersOf, hypothesis]

theorem getElem?_casesOf (cases : List (String × Case Schema)) (index : Nat) :
    (casesOf cases)[index]? = cases[index]?.map fun (label, carried) => (label, caseOf carried) := by
  induction cases generalizing index with
  | nil => simp only [casesOf, List.getElem?_nil, Option.map_none]
  | cons first rest hypothesis =>
    rcases first with ⟨label, carried⟩
    cases index with
    | zero => simp only [casesOf, List.getElem?_cons_zero, Option.map_some]
    | succ index => simp only [casesOf, List.getElem?_cons_succ, hypothesis]

theorem itemsStatic_fields (fields : List (String × Schema)) :
    itemsStatic (fields.map Prod.snd) = fieldsStatic fields := by
  induction fields with
  | nil => simp only [List.map_nil, itemsStatic, fieldsStatic]
  | cons field rest hypothesis =>
    rcases field with ⟨label, item⟩
    simp only [List.map_cons, itemsStatic, fieldsStatic, hypothesis]

theorem caseStatic_of_getElem? {cases : List (String × Case Schema)} {index : Nat} {label : String}
    {carried : Case Schema} (static : casesStatic cases = true)
    (found : cases[index]? = some (label, carried)) : caseStatic carried = true := by
  induction cases generalizing index with
  | nil => cases found
  | cons first rest hypothesis =>
    rcases first with ⟨other, otherCarried⟩
    rcases Bool.and_eq_true_iff.mp static with ⟨head, tail⟩
    cases index with
    | zero =>
      cases found
      exact head
    | succ index => exact hypothesis tail found

theorem onlyChar?_toString (character : Char) : onlyChar? character.toString = some character := by
  simp [onlyChar?]

/-! ## What a schema reads -/

theorem ofWire?_char (value : String) : char.ofWire? (.str value) = (onlyChar? value).map .char :=
  rfl

theorem ofWire?_option {item : Schema} {value : Wire} (present : value ≠ .nil) :
    (option item).ofWire? value = (item.ofWire? value).map .present := by
  cases value with
  | nil => exact absurd rfl present
  | _ => rfl

theorem ofWire?_list (item : Schema) (values : List Wire) :
    (list item).ofWire? (.array values) = (values.mapM item.ofWire?).map .list := rfl

theorem ofWire?_map (item : Schema) (entries : List (Wire × Wire)) :
    (map item).ofWire? (.map entries) =
      (entries.mapM fun (key, value) => do
        let key ← textOfWire? key
        let value ← item.ofWire? value
        return (key, value)).map mapDatum := rfl

theorem ofWire?_tuple (items : List Schema) (values : List Wire) :
    (tuple items).ofWire? (.array values) = (readEach (readersOf items) values).map .tuple := rfl

theorem ofWire?_record (name : String) (fields : List (String × Schema)) (value : Wire) :
    (record name fields).ofWire? value = (readRecord (fieldsOf fields) value).map .tuple := rfl

theorem ofWire?_union (name : String) (cases : List (String × Case Schema)) (value : Wire) :
    (union name cases).ofWire? value = readVariant (casesOf cases) value := rfl

/-! ## What a datum says about its schema -/

theorem of_fits_present {item : Datum} {schema : Schema}
    (fits : (Datum.present item).fits schema = true) :
    ∃ inner, schema = .option inner ∧ item.fits inner = true := by
  cases schema with
  | option inner => exact ⟨inner, rfl, fits⟩
  | _ => cases fits

theorem of_fits_list {items : List Datum} {schema : Schema}
    (fits : (Datum.list items).fits schema = true) :
    ∃ inner, schema = .list inner ∧ Datum.allFit items inner = true := by
  cases schema with
  | list inner => exact ⟨inner, rfl, fits⟩
  | _ => cases fits

theorem of_fits_map {entries : List (String × Datum)} {schema : Schema}
    (fits : (Datum.map entries).fits schema = true) :
    ∃ inner, schema = .map inner ∧ Datum.ascending entries = true ∧
      Datum.entriesFit entries inner = true := by
  cases schema with
  | map inner => exact ⟨inner, rfl, Bool.and_eq_true_iff.mp fits⟩
  | _ => cases fits

theorem of_fits_tuple {items : List Datum} {schema : Schema}
    (fits : (Datum.tuple items).fits schema = true) :
    (∃ inner, schema = .tuple inner ∧ Datum.eachFits items inner = true) ∨
      ∃ name fields, schema = .record name fields ∧
        Datum.eachFits items (fields.map Prod.snd) = true := by
  cases schema with
  | tuple inner => exact .inl ⟨inner, rfl, fits⟩
  | record name fields => exact .inr ⟨name, fields, rfl, fits⟩
  | _ => cases fits

theorem fits_variant (index : Nat) (label : String) (payload : Payload Datum) (name : String)
    (cases : List (String × Case Schema)) :
    (Datum.variant index label payload).fits (union name cases) =
      match cases[index]? with
      | some (wanted, carried) => decide (label = wanted) && Datum.payloadFits payload carried
      | none => false := rfl

theorem of_fits_variant {index : Nat} {label : String} {payload : Payload Datum} {schema : Schema}
    (fits : (Datum.variant index label payload).fits schema = true) :
    ∃ name cases carried, schema = .union name cases ∧ cases[index]? = some (label, carried) ∧
      Datum.payloadFits payload carried = true := by
  cases schema with
  | union name cases =>
    rw [fits_variant] at fits
    split at fits
    · next wanted carried found =>
      rcases Bool.and_eq_true_iff.mp fits with ⟨same, inner⟩
      obtain rfl := of_decide_eq_true same
      exact ⟨name, cases, carried, rfl, found, inner⟩
    · cases fits
  | _ => cases fits

theorem readVariant_numbered {cases : List (String × Case Schema)} {index : Nat} {label : String}
    {carried : Case Schema} (body : Wire) (found : cases[index]? = some (label, carried))
    (small : index < 0x10000000000000000) :
    readVariant (casesOf cases) (.array [.ofIndex index, body]) =
      (caseOf carried (some body)).map (Datum.variant index label) := by
  have number : ((WireInt.ofWord (UInt64.ofNat index)).val).toNat = index := by
    have word : (UInt64.ofNat index).toNat = index := UInt64.toNat_ofNat_of_lt' small
    simp only [WireInt.ofWord, word, Int.toNat_natCast]
  have natural : 0 ≤ (WireInt.ofWord (UInt64.ofNat index)).val := Int.natCast_nonneg _
  have held : (casesOf cases)[index]? = some (label, caseOf carried) := by
    rw [getElem?_casesOf, found, Option.map_some]
  simp only [readVariant, Wire.ofIndex, if_pos natural, number, Option.bind_eq_bind,
    Option.bind_some, held]
  cases caseOf carried (some body) <;> rfl

open Datum

mutual

theorem ofWire?_toWire : ∀ (datum : Datum) (schema : Schema) {data : Wire},
    schema.isStatic = true → datum.fits schema = true → datum.toWire .numbered = .ok data →
      schema.ofWire? data = some datum.settled
  | .bool value, schema, data, _, fits, written => by
    cases schema with
    | bool =>
      cases written
      rfl
    | _ => cases fits
  | .int value, schema, data, _, fits, written => by
    cases schema with
    | int kind =>
      cases written
      exact if_pos fits
    | _ => cases fits
  | .f32 bits, schema, data, _, fits, written => by
    cases schema with
    | f32 =>
      cases written
      rfl
    | _ => cases fits
  | .f64 bits, schema, data, _, fits, written => by
    cases schema with
    | f64 =>
      cases written
      rfl
    | _ => cases fits
  | .char value, schema, data, _, fits, written => by
    cases schema with
    | char =>
      cases written
      rw [ofWire?_char, onlyChar?_toString]
      rfl
    | _ => cases fits
  | .text value, schema, data, _, fits, written => by
    cases schema with
    | text =>
      cases written
      rfl
    | _ => cases fits
  | .unit, schema, data, _, fits, written => by
    cases schema with
    | unit =>
      cases written
      rfl
    | _ => cases fits
  | .absent, schema, data, _, fits, written => by
    cases schema with
    | option inner =>
      cases written
      rfl
    | _ => cases fits
  | .guarded value, schema, data, _, fits, written => by
    cases schema with
    | guarded kind =>
      rw [toWire] at written
      split at written
      · cases written
      · cases written
        exact if_pos fits
    | _ => cases fits
  | .dyn value, schema, data, static, fits, written => by
    cases schema with
    | dyn => cases static
    | _ => cases fits
  | .present item, schema, data, static, fits, written => by
    rcases of_fits_present fits with ⟨inner, rfl, itemFits⟩
    rw [toWire] at written
    have nil := toWire_eq_nil_iff .numbered item written
    have back := ofWire?_toWire item inner static itemFits written
    rw [settled]
    by_cases itemNil : item.isNil = true
    · obtain rfl := nil.mpr itemNil
      rw [if_pos itemNil]
      rfl
    · have other : data ≠ .nil := fun same => itemNil (nil.mp same)
      rw [if_neg itemNil, ofWire?_option other, back, Option.map_some]
  | .list items, schema, data, static, fits, written => by
    rcases of_fits_list fits with ⟨inner, rfl, itemsFit⟩
    rw [toWire] at written
    rcases exists_of_map_eq_ok written with ⟨wires, wiresWritten, rfl⟩
    rw [ofWire?_list, mapM_itemsToWire items inner static itemsFit wiresWritten]
    rfl
  | .map entries, schema, data, static, fits, written => by
    rcases of_fits_map fits with ⟨inner, rfl, ascending, entriesFit⟩
    rw [toWire] at written
    rcases exists_of_map_eq_ok written with ⟨wires, wiresWritten, rfl⟩
    have settledAscending : Datum.ascending (settledEntries entries) = true := by
      rw [ascending_settledEntries]
      exact ascending
    rw [ofWire?_map, mapM_entriesToWire entries inner static entriesFit wiresWritten,
      Option.map_some, mapDatum_of_ascending settledAscending, settled]
  | .tuple items, schema, data, static, fits, written => by
    rw [toWire] at written
    rcases exists_of_map_eq_ok written with ⟨wires, wiresWritten, rfl⟩
    rcases of_fits_tuple fits with ⟨inner, rfl, itemsFit⟩ | ⟨name, fields, rfl, itemsFit⟩
    · rw [ofWire?_tuple, readEach_itemsToWire items inner static itemsFit wiresWritten,
        Option.map_some, settled]
    · rw [isStatic, ← itemsStatic_fields] at static
      rw [ofWire?_record, readRecord, read_fieldsOf,
        readEach_itemsToWire items _ static itemsFit wiresWritten, Option.map_some, settled]
  | .variant index label payload, schema, data, static, fits, written => by
    rcases of_fits_variant fits with ⟨name, cases, carried, rfl, found, payloadFits⟩
    rcases Bool.and_eq_true_iff.mp static with ⟨few, casesStatic⟩
    rw [toWire] at written
    rcases exists_of_map_eq_ok written with ⟨wires, wiresWritten, rfl⟩
    rcases caseOf_payloadToWire payload carried index label
      (caseStatic_of_getElem? casesStatic found) payloadFits wiresWritten with ⟨body, shape, back⟩
    have small : index < 0x10000000000000000 := by
      have inside : index < cases.length := (List.getElem?_eq_some_iff.mp found).1
      have bound : cases.length ≤ 0x100000000 := of_decide_eq_true few
      omega
    rw [ofWire?_union, shape, readVariant_numbered body found small, back]
    rfl

theorem caseOf_payloadToWire : ∀ (payload : Payload Datum) (carried : Case Schema) (index : Nat)
    (label : String) {wires : Payload Wire}, caseStatic carried = true →
      payloadFits payload carried = true → payloadToWire .numbered payload = .ok wires →
      ∃ body, CaseStyle.numbered.variant index label wires = .array [.ofIndex index, body] ∧
        caseOf carried (some body) = some (settledPayload payload)
  | .none, carried, index, label, wires, _, fits, written => by
    cases carried with
    | unit =>
      cases written
      exact ⟨.array [], rfl, by rw [caseOf, readUnit, settledPayload]⟩
    | _ => cases fits
  | .one item, carried, index, label, wires, static, fits, written => by
    cases carried with
    | single body =>
      rcases exists_of_map_eq_ok written with ⟨data, dataWritten, rfl⟩
      refine ⟨.array [data], rfl, ?_⟩
      rw [caseOf, readSingle, ofWire?_toWire item body static fits dataWritten, Option.map_some,
        settledPayload]
    | _ => cases fits
  | .many items, carried, index, label, wires, static, fits, written => by
    rcases exists_of_map_eq_ok written with ⟨data, dataWritten, rfl⟩
    refine ⟨.array data, rfl, ?_⟩
    cases carried with
    | tuple bodies =>
      rw [caseOf, readTuple, readEach_itemsToWire items bodies static fits dataWritten,
        Option.map_some, settledPayload]
    | record fields =>
      rw [caseStatic, ← itemsStatic_fields] at static
      rw [caseOf, readLabelled, readRecord, read_fieldsOf,
        readEach_itemsToWire items _ static fits dataWritten, Option.map_some, settledPayload]
    | _ => cases fits

theorem mapM_itemsToWire : ∀ (items : List Datum) (schema : Schema) {wires : List Wire},
    schema.isStatic = true → allFit items schema = true → itemsToWire .numbered items = .ok wires →
      wires.mapM schema.ofWire? = some (settledItems items)
  | [], schema, wires, _, _, written => by
    cases written
    rfl
  | item :: rest, schema, wires, static, fits, written => by
    rcases itemsToWire_cons written with ⟨first, others, firstWritten, othersWritten, rfl⟩
    rcases Bool.and_eq_true_iff.mp fits with ⟨itemFits, restFit⟩
    rw [List.mapM_cons, ofWire?_toWire item schema static itemFits firstWritten,
      mapM_itemsToWire rest schema static restFit othersWritten]
    rfl

theorem readEach_itemsToWire : ∀ (items : List Datum) (schemas : List Schema) {wires : List Wire},
    itemsStatic schemas = true → eachFits items schemas = true →
      itemsToWire .numbered items = .ok wires →
      readEach (readersOf schemas) wires = some (settledItems items)
  | [], [], wires, _, _, written => by
    cases written
    rfl
  | [], _ :: _, _, _, fits, _ => by cases fits
  | _ :: _, [], _, _, fits, _ => by cases fits
  | item :: rest, schema :: schemas, wires, static, fits, written => by
    rcases itemsToWire_cons written with ⟨first, others, firstWritten, othersWritten, rfl⟩
    rcases Bool.and_eq_true_iff.mp fits with ⟨itemFits, restFit⟩
    rcases Bool.and_eq_true_iff.mp static with ⟨itemStatic, restStatic⟩
    rw [readersOf, readEach, ofWire?_toWire item schema itemStatic itemFits firstWritten,
      readEach_itemsToWire rest schemas restStatic restFit othersWritten]
    rfl

theorem mapM_entriesToWire : ∀ (entries : List (String × Datum)) (schema : Schema)
    {wires : List (Wire × Wire)}, schema.isStatic = true → entriesFit entries schema = true →
      entriesToWire .numbered entries = .ok wires →
      (wires.mapM fun (key, value) => do
        let key ← textOfWire? key
        let value ← schema.ofWire? value
        return (key, value)) = some (settledEntries entries)
  | [], schema, wires, _, _, written => by
    cases written
    rfl
  | (key, item) :: rest, schema, wires, static, fits, written => by
    rcases entriesToWire_cons written with ⟨first, others, firstWritten, othersWritten, rfl⟩
    rcases Bool.and_eq_true_iff.mp fits with ⟨itemFits, restFit⟩
    rw [List.mapM_cons, mapM_entriesToWire rest schema static restFit othersWritten]
    dsimp only
    rw [ofWire?_toWire item schema static itemFits firstWritten]
    rfl

end

end Schema
end TypedStore
