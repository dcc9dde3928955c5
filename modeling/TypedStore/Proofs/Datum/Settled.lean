import TypedStore.Datum.ToWire
import TypedStore.Proofs.Outcome

/-!
# What the wire form of a datum says

Writing forgets one thing.  An absent option is nil, and so is a present one
whose item is written as nil: a present unit, a present option that is itself
absent, a dynamic value that holds nil.  The wire form does not tell the two
apart, and no reader can.

`settled` is the datum that the wire form stands for: present options of this
kind have become absent, everything else is as it was.  `settled_eq_self_iff`
says when nothing is lost, and `toWire_settled` that a settled datum is written
in the same way as the one it comes from.
-/

namespace TypedStore

namespace Datum

mutual

/-- Whether a datum is written as nil. -/
def isNil : Datum → Bool
  | .unit => true
  | .absent => true
  | .present item => isNil item
  | .dyn value => dynIsNil value
  | _ => false

/-- `isNil` for dynamic values. -/
def dynIsNil : DynValue → Bool
  | .typed _ datum => isNil datum
  | .raw data _ => decide (data = .nil)

end

mutual

/-- The datum that the wire form stands for: a present option whose item is
written as nil has become absent. -/
def settled : Datum → Datum
  | .present item => if isNil item then .absent else .present (settled item)
  | .list items => .list (settledItems items)
  | .map entries => .map (settledEntries entries)
  | .tuple items => .tuple (settledItems items)
  | .variant index label payload => .variant index label (settledPayload payload)
  | datum => datum

/-- `settled` for the items of a list or a tuple. -/
def settledItems : List Datum → List Datum
  | [] => []
  | item :: rest => settled item :: settledItems rest

/-- `settled` for the entries of a map. -/
def settledEntries : List (String × Datum) → List (String × Datum)
  | [] => []
  | (key, item) :: rest => (key, settled item) :: settledEntries rest

/-- `settled` for what a variant holds. -/
def settledPayload : Payload Datum → Payload Datum
  | .none => .none
  | .one item => .one (settled item)
  | .many items => .many (settledItems items)

end

/-! ## Data that are written as nil -/

theorem variant_ne_nil (style : CaseStyle) (index : Nat) (label : String) (payload : Payload Wire) :
    style.variant index label payload ≠ .nil := by
  cases style <;> cases payload <;> exact fun same => Wire.noConfusion same

theorem itemsToWire_cons {style : CaseStyle} {item : Datum} {rest : List Datum} {data : List Wire}
    (written : itemsToWire style (item :: rest) = .ok data) :
    ∃ first others, item.toWire style = .ok first ∧ itemsToWire style rest = .ok others ∧
      data = first :: others := by
  rw [itemsToWire] at written
  obtain ⟨first, firstWritten, later⟩ := exists_of_bind_eq_ok written
  obtain ⟨others, othersWritten, last⟩ := exists_of_bind_eq_ok later
  exact ⟨first, others, firstWritten, othersWritten, (Except.ok.inj last).symm⟩

theorem entriesToWire_cons {style : CaseStyle} {key : String} {item : Datum}
    {rest : List (String × Datum)} {data : List (Wire × Wire)}
    (written : entriesToWire style ((key, item) :: rest) = .ok data) :
    ∃ first others, item.toWire style = .ok first ∧ entriesToWire style rest = .ok others ∧
      data = (.str key, first) :: others := by
  rw [entriesToWire] at written
  obtain ⟨first, firstWritten, later⟩ := exists_of_bind_eq_ok written
  obtain ⟨others, othersWritten, last⟩ := exists_of_bind_eq_ok later
  exact ⟨first, others, firstWritten, othersWritten, (Except.ok.inj last).symm⟩

mutual

/-- A datum is written as nil exactly when `isNil` says so. -/
theorem toWire_eq_nil_iff (style : CaseStyle) : ∀ (datum : Datum) {data : Wire},
    datum.toWire style = .ok data → (data = .nil ↔ datum.isNil = true)
  | .present item, data, written => by
    rw [toWire] at written
    rw [isNil]
    exact toWire_eq_nil_iff style item written
  | .dyn value, data, written => by
    rw [toWire] at written
    rw [isNil]
    exact dynToWire_eq_nil_iff value (of_mapError_eq_ok written)
  | .list items, data, written => by
    rw [toWire] at written
    obtain ⟨wires, -, rfl⟩ := exists_of_map_eq_ok written
    simp only [isNil, reduceCtorEq]
  | .map entries, data, written => by
    rw [toWire] at written
    obtain ⟨wires, -, rfl⟩ := exists_of_map_eq_ok written
    simp only [isNil, reduceCtorEq]
  | .tuple items, data, written => by
    rw [toWire] at written
    obtain ⟨wires, -, rfl⟩ := exists_of_map_eq_ok written
    simp only [isNil, reduceCtorEq]
  | .variant index label payload, data, written => by
    rw [toWire] at written
    obtain ⟨carried, -, rfl⟩ := exists_of_map_eq_ok written
    simp only [isNil, variant_ne_nil, reduceCtorEq]
  | .guarded value, data, written => by
    rw [toWire] at written
    split at written
    · cases written
    · cases written
      simp only [isNil, reduceCtorEq]
  | .unit, data, written | .absent, data, written => by
    cases written
    simp only [isNil]
  | .bool _, data, written | .int _, data, written | .f32 _, data, written
  | .f64 _, data, written | .char _, data, written | .text _, data, written => by
    cases written
    simp only [isNil, reduceCtorEq]

theorem dynToWire_eq_nil_iff : ∀ (value : DynValue) {data : Wire},
    dynToWire value = .ok data → (data = .nil ↔ dynIsNil value = true)
  | .typed _ datum, data, written => toWire_eq_nil_iff .numbered datum written
  | .raw raw _, data, written => by
    cases written
    simp only [dynIsNil, decide_eq_true_eq]

end

/-! ## Settled entries keep their keys -/

theorem keys_settledEntries (entries : List (String × Datum)) :
    (settledEntries entries).map Prod.fst = entries.map Prod.fst := by
  induction entries with
  | nil => rfl
  | cons entry rest hypothesis =>
    obtain ⟨key, item⟩ := entry
    simp only [settledEntries, List.map_cons, hypothesis]

theorem ascending_settledEntries (entries : List (String × Datum)) :
    ascending (settledEntries entries) = ascending entries := by
  have same : ∀ list : List (String × Datum), ascending list =
      decide ((list.map Prod.fst).Pairwise fun first second => first < second) := by
    intro list
    simp only [ascending, List.pairwise_map]
  rw [same, same, keys_settledEntries]

/-! ## Data that lose nothing -/

mutual

/-- Whether no present option in a datum is written as nil.  A dynamic value
inside it is not looked into, since settling leaves it alone. -/
def isDefinite : Datum → Bool
  | .present item => !isNil item && isDefinite item
  | .list items => itemsDefinite items
  | .map entries => entriesDefinite entries
  | .tuple items => itemsDefinite items
  | .variant _ _ payload => payloadDefinite payload
  | _ => true

/-- `isDefinite` for the items of a list or a tuple. -/
def itemsDefinite : List Datum → Bool
  | [] => true
  | item :: rest => isDefinite item && itemsDefinite rest

/-- `isDefinite` for the entries of a map. -/
def entriesDefinite : List (String × Datum) → Bool
  | [] => true
  | (_, item) :: rest => isDefinite item && entriesDefinite rest

/-- `isDefinite` for what a variant holds. -/
def payloadDefinite : Payload Datum → Bool
  | .none => true
  | .one item => isDefinite item
  | .many items => itemsDefinite items

end

mutual

/-- A datum is its own settled form exactly when no present option in it is
written as nil. -/
theorem settled_eq_self_iff : ∀ datum : Datum, datum.settled = datum ↔ datum.isDefinite = true
  | .present item => by
    rw [settled, isDefinite]
    cases item.isNil with
    | true => simp only [if_true, reduceCtorEq, Bool.not_true, Bool.false_and, Bool.false_eq_true]
    | false =>
      simp only [Bool.false_eq_true, if_false, Datum.present.injEq, Bool.not_false, Bool.true_and]
      exact settled_eq_self_iff item
  | .list items => by
    rw [settled, isDefinite, Datum.list.injEq]
    exact settledItems_eq_self_iff items
  | .map entries => by
    rw [settled, isDefinite, Datum.map.injEq]
    exact settledEntries_eq_self_iff entries
  | .tuple items => by
    rw [settled, isDefinite, Datum.tuple.injEq]
    exact settledItems_eq_self_iff items
  | .variant index label payload => by
    rw [settled, isDefinite, Datum.variant.injEq, eq_self, eq_self, true_and, true_and]
    exact settledPayload_eq_self_iff payload
  | .bool _ | .int _ | .f32 _ | .f64 _ | .char _ | .text _ | .unit | .absent | .guarded _
  | .dyn _ => by simp only [settled, isDefinite]

theorem settledItems_eq_self_iff : ∀ items : List Datum,
    settledItems items = items ↔ itemsDefinite items = true
  | [] => by simp only [settledItems, itemsDefinite]
  | item :: rest => by
    rw [settledItems, itemsDefinite, List.cons.injEq, Bool.and_eq_true]
    exact and_congr (settled_eq_self_iff item) (settledItems_eq_self_iff rest)

theorem settledEntries_eq_self_iff : ∀ entries : List (String × Datum),
    settledEntries entries = entries ↔ entriesDefinite entries = true
  | [] => by simp only [settledEntries, entriesDefinite]
  | (key, item) :: rest => by
    rw [settledEntries, entriesDefinite, List.cons.injEq, Prod.mk.injEq, eq_self, true_and,
      Bool.and_eq_true]
    exact and_congr (settled_eq_self_iff item) (settledEntries_eq_self_iff rest)

theorem settledPayload_eq_self_iff : ∀ payload : Payload Datum,
    settledPayload payload = payload ↔ payloadDefinite payload = true
  | .none => by simp only [settledPayload, payloadDefinite]
  | .one item => by
    rw [settledPayload, payloadDefinite, Payload.one.injEq]
    exact settled_eq_self_iff item
  | .many items => by
    rw [settledPayload, payloadDefinite, Payload.many.injEq]
    exact settledItems_eq_self_iff items

end

/-! ## The form of settled data -/

mutual

theorem toWire_of_isNil (style : CaseStyle) : ∀ datum : Datum, datum.isNil = true →
    datum.toWire style = .ok .nil
  | .present item, nil => by
    rw [toWire]
    exact toWire_of_isNil style item nil
  | .dyn value, nil => by
    rw [toWire, dynToWire_of_dynIsNil value nil]
    rfl
  | .unit, _ | .absent, _ => by rw [toWire]
  | .bool _, nil | .int _, nil | .f32 _, nil | .f64 _, nil | .char _, nil | .text _, nil
  | .list _, nil | .map _, nil | .tuple _, nil | .variant _ _ _, nil | .guarded _, nil => by
    cases nil

theorem dynToWire_of_dynIsNil : ∀ value : DynValue, dynIsNil value = true →
    dynToWire value = .ok .nil
  | .typed _ datum, nil => by
    rw [dynToWire]
    exact toWire_of_isNil .numbered datum nil
  | .raw data _, nil => by
    obtain rfl := of_decide_eq_true nil
    rw [dynToWire]

end

mutual

/-- Settling does not change how a datum is written. -/
theorem toWire_settled (style : CaseStyle) : ∀ datum : Datum,
    datum.settled.toWire style = datum.toWire style
  | .present item => by
    rw [settled]
    by_cases nil : item.isNil = true
    · rw [if_pos nil, toWire, toWire, toWire_of_isNil style item nil]
    · rw [if_neg nil, toWire, toWire]
      exact toWire_settled style item
  | .list items => by rw [settled, toWire, toWire, itemsToWire_settledItems style items]
  | .map entries => by rw [settled, toWire, toWire, entriesToWire_settledEntries style entries]
  | .tuple items => by rw [settled, toWire, toWire, itemsToWire_settledItems style items]
  | .variant index label payload => by
    rw [settled, toWire, toWire, payloadToWire_settledPayload style payload]
  | .bool _ | .int _ | .f32 _ | .f64 _ | .char _ | .text _ | .unit | .absent | .guarded _
  | .dyn _ => by simp only [settled]

theorem itemsToWire_settledItems (style : CaseStyle) : ∀ items : List Datum,
    itemsToWire style (settledItems items) = itemsToWire style items
  | [] => by rw [settledItems]
  | item :: rest => by
    rw [settledItems, itemsToWire, itemsToWire, toWire_settled style item,
      itemsToWire_settledItems style rest]

theorem entriesToWire_settledEntries (style : CaseStyle) : ∀ entries : List (String × Datum),
    entriesToWire style (settledEntries entries) = entriesToWire style entries
  | [] => by rw [settledEntries]
  | (key, item) :: rest => by
    rw [settledEntries, entriesToWire, entriesToWire, toWire_settled style item,
      entriesToWire_settledEntries style rest]

theorem payloadToWire_settledPayload (style : CaseStyle) : ∀ payload : Payload Datum,
    payloadToWire style (settledPayload payload) = payloadToWire style payload
  | .none => by rw [settledPayload]
  | .one item => by rw [settledPayload, payloadToWire, payloadToWire, toWire_settled style item]
  | .many items => by
    rw [settledPayload, payloadToWire, payloadToWire, itemsToWire_settledItems style items]

end

end Datum

end TypedStore
