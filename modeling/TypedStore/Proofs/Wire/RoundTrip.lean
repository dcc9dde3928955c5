import TypedStore.Proofs.Wire.Heads

/-!
# Wire values come back

`read_write` is the exact statement on reading a written value, whatever
follows it.  Nothing but the nesting can stand in the way: with enough levels
the value comes back and the reader stops where the writer did; with too few
there is no answer at all, not a part of one.

The format counts in four bytes.  `lengthsFit` says that nothing in a value is
longer than that; lengths beyond it are written modulo `2 ^ 32` and what
follows them is misread, so the statement is about values that fit.
-/

namespace TypedStore
namespace Wire

mutual

/-- Whether the length of every text, byte string, collection and extension fits in four bytes. -/
def lengthsFit : Wire → Bool
  | .str text => decide ((Bytes.utf8 text).length < 0x100000000)
  | .bin bytes => decide (bytes.length < 0x100000000)
  | .array items => decide (items.length < 0x100000000) && itemsFit items
  | .map entries => decide (entries.length < 0x100000000) && entriesFit entries
  | .ext _ data => decide (data.length < 0x100000000)
  | _ => true

/-- `lengthsFit` for the items of an array. -/
def itemsFit : List Wire → Bool
  | [] => true
  | item :: rest => lengthsFit item && itemsFit rest

/-- `lengthsFit` for the keys and values of a map. -/
def entriesFit : List (Wire × Wire) → Bool
  | [] => true
  | (key, value) :: rest => lengthsFit key && lengthsFit value && entriesFit rest

end

theorem ofTextBytes_utf8 (text : String) : ofTextBytes (Bytes.utf8 text) = .str text := by
  rw [ofTextBytes, Bytes.text?_utf8]

mutual

/-- A written value reads back, and the reader stops at its end, exactly when the levels suffice. -/
theorem read_write : ∀ (value : Wire) (levels : Nat) (rest : Bytes), value.lengthsFit = true →
    read levels (value.write ++ rest) = if value.depth ≤ levels then some (value, rest) else none
  | .nil, levels, rest, _ => by
    have head : readHead (write .nil ++ rest) = some (.nil, rest) := rfl
    rw [read, head]
    simp only [depth, Nat.zero_le, if_true]
  | .bool value, levels, rest, _ => by
    have head : readHead (write (.bool value) ++ rest) = some (.bool value, rest) := by
      cases value <;> rfl
    rw [read, head]
    simp only [depth, Nat.zero_le, if_true]
  | .int value, levels, rest, _ => by
    rw [write, read, readHead_writeInt]
    simp only [depth, Nat.zero_le, if_true]
  | .f32 bits, levels, rest, _ => by
    rw [write, read, readHead_f32]
    simp only [depth, Nat.zero_le, if_true]
  | .f64 bits, levels, rest, _ => by
    rw [write, read, readHead_f64]
    simp only [depth, Nat.zero_le, if_true]
  | .str text, levels, rest, fits => by
    have short : (Bytes.utf8 text).length < 0x100000000 := of_decide_eq_true fits
    rw [write, writeText, List.append_assoc, read, readHead_textHeader _ _ short]
    simp only [depth, Nat.zero_le, if_true, ofTextBytes_utf8]
  | .bin data, levels, rest, fits => by
    have short : data.length < 0x100000000 := of_decide_eq_true fits
    rw [write, List.append_assoc, read, readHead_binHeader _ _ short]
    simp only [depth, Nat.zero_le, if_true]
  | .array items, levels, rest, fits => by
    obtain ⟨short, inner⟩ := Bool.and_eq_true_iff.mp fits
    rw [write, List.append_assoc, read, readHead_arrayHeader _ _ (of_decide_eq_true short)]
    cases levels with
    | zero => rw [depth, if_neg (Nat.not_succ_le_zero _)]
    | succ levels =>
      dsimp only
      rw [readTimes_writeItems items levels rest inner]
      simp only [depth, Nat.add_le_add_iff_right]
      split <;> rfl
  | .map entries, levels, rest, fits => by
    obtain ⟨short, inner⟩ := Bool.and_eq_true_iff.mp fits
    rw [write, List.append_assoc, read, readHead_mapHeader _ _ (of_decide_eq_true short)]
    cases levels with
    | zero => rw [depth, if_neg (Nat.not_succ_le_zero _)]
    | succ levels =>
      dsimp only
      rw [readTimes_writeEntries entries levels rest inner]
      simp only [depth, Nat.add_le_add_iff_right]
      split <;> rfl
  | .ext type data, levels, rest, fits => by
    have short : data.length < 0x100000000 := of_decide_eq_true fits
    rw [write, List.append_assoc, List.cons_append, read, readHead_extHeader _ _ _ short]
    cases levels with
    | zero => rw [depth, if_neg (Nat.not_succ_le_zero _)]
    | succ levels => simp only [depth, Nat.succ_le_succ_iff, Nat.zero_le, if_true]

theorem readTimes_writeItems : ∀ (items : List Wire) (levels : Nat) (rest : Bytes),
    itemsFit items = true →
    readTimes (read levels) items.length (writeItems items ++ rest) =
      if depthItems items ≤ levels then some (items, rest) else none
  | [], levels, rest, _ => by
    simp only [depthItems, Nat.zero_le, if_true]
    rfl
  | item :: items, levels, rest, fits => by
    obtain ⟨first, others⟩ := Bool.and_eq_true_iff.mp fits
    rw [writeItems, List.append_assoc, List.length_cons, readTimes,
      read_write item levels _ first]
    simp only [depthItems, Nat.max_le]
    by_cases shallow : item.depth ≤ levels
    · rw [if_pos shallow]
      change (readTimes (read levels) items.length (writeItems items ++ rest)).bind _ = _
      rw [readTimes_writeItems items levels rest others]
      by_cases othersShallow : depthItems items ≤ levels
      · rw [if_pos othersShallow, if_pos ⟨shallow, othersShallow⟩]
        rfl
      · rw [if_neg othersShallow, if_neg fun both => othersShallow both.2]
        rfl
    · rw [if_neg shallow, if_neg fun both => shallow both.1]
      rfl

theorem readTimes_writeEntries : ∀ (entries : List (Wire × Wire)) (levels : Nat) (rest : Bytes),
    entriesFit entries = true →
    readTimes (readPair (read levels) (read levels)) entries.length
        (writeEntries entries ++ rest) =
      if depthEntries entries ≤ levels then some (entries, rest) else none
  | [], levels, rest, _ => by
    simp only [depthEntries, Nat.zero_le, if_true]
    rfl
  | (key, value) :: entries, levels, rest, fits => by
    obtain ⟨both, others⟩ := Bool.and_eq_true_iff.mp fits
    obtain ⟨keyFits, valueFits⟩ := Bool.and_eq_true_iff.mp both
    rw [writeEntries, List.append_assoc, List.append_assoc, List.length_cons, readTimes, readPair,
      read_write key levels _ keyFits]
    simp only [depthEntries, Nat.max_le]
    by_cases keyShallow : key.depth ≤ levels
    · rw [if_pos keyShallow]
      change ((read levels (write value ++ (writeEntries entries ++ rest))).bind _).bind _ = _
      rw [read_write value levels _ valueFits]
      by_cases valueShallow : value.depth ≤ levels
      · rw [if_pos valueShallow]
        change (readTimes (readPair (read levels) (read levels)) entries.length
          (writeEntries entries ++ rest)).bind _ = _
        rw [readTimes_writeEntries entries levels rest others]
        by_cases othersShallow : depthEntries entries ≤ levels
        · rw [if_pos othersShallow, if_pos ⟨⟨keyShallow, valueShallow⟩, othersShallow⟩]
          rfl
        · rw [if_neg othersShallow, if_neg fun all => othersShallow all.2]
          rfl
      · rw [if_neg valueShallow, if_neg fun all => valueShallow all.1.2]
        rfl
    · rw [if_neg keyShallow, if_neg fun all => keyShallow all.1.1]
      rfl

end

theorem write_ne_nil {value : Wire} (fits : value.lengthsFit = true) : value.write ≠ [] := by
  intro empty
  have back := read_write value value.depth [] fits
  have nothing : read value.depth [] = none := by
    rw [read]
    rfl
  rw [if_pos (Nat.le_refl _), empty, List.append_nil, nothing] at back
  cases back

end Wire
end TypedStore
