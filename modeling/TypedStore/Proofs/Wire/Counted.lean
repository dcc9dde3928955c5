import TypedStore.Proofs.Wire.RoundTrip

/-!
# Values that were read can be written

The format announces every length in at most four bytes, so a value that was read,
in whatever length forms, holds nothing longer than that.  `lengthsFit_of_read` says
so, and with it everything that is read has a written form that reads back.

A head is looked at once for each kind of marker; the value is then put together from
heads, level by level.
-/

namespace TypedStore

namespace Bytes

/-- Digits are smaller than the base. -/
theorem foldl_lt (bytes : Bytes) (start : Nat) :
    bytes.foldl (fun value byte => value * 256 + byte.toNat) start <
      (start + 1) * 256 ^ bytes.length := by
  induction bytes generalizing start with
  | nil => simp
  | cons byte rest hypothesis =>
    have digit := byte.toNat_lt
    have step : start * 256 + byte.toNat + 1 ≤ (start + 1) * 256 := by omega
    calc rest.foldl (fun value byte => value * 256 + byte.toNat) (start * 256 + byte.toNat)
        < (start * 256 + byte.toNat + 1) * 256 ^ rest.length := hypothesis _
      _ ≤ (start + 1) * 256 * 256 ^ rest.length := Nat.mul_le_mul_right _ step
      _ = (start + 1) * 256 ^ (rest.length + 1) := by
        rw [Nat.pow_succ, Nat.mul_assoc, Nat.mul_comm 256]

theorem toNat_lt (bytes : Bytes) : toNat bytes < 256 ^ bytes.length := by
  have bound := foldl_lt bytes 0
  rw [Nat.zero_add, Nat.one_mul] at bound
  exact bound

theorem foldl_injective {first second : Bytes} {start other : Nat}
    (length : first.length = second.length)
    (same : first.foldl (fun value byte => value * 256 + byte.toNat) start =
      second.foldl (fun value byte => value * 256 + byte.toNat) other) :
    start = other ∧ first = second := by
  induction first generalizing second start other with
  | nil =>
    cases List.length_eq_zero_iff.mp length.symm
    exact ⟨same, rfl⟩
  | cons byte rest hypothesis =>
    cases second with
    | nil => cases length
    | cons otherByte others =>
      rcases hypothesis (Nat.succ.inj length) same with ⟨digits, sameRest⟩
      have small := byte.toNat_lt
      have otherSmall := otherByte.toNat_lt
      dsimp only at digits
      have sameByte : byte = otherByte := UInt8.toNat_inj.mp (by omega)
      exact ⟨by omega, by rw [sameByte, sameRest]⟩

/-- Numerals of one width that stand for the same number are the same. -/
theorem eq_of_toNat {first second : Bytes} (length : first.length = second.length)
    (same : toNat first = toNat second) : first = second :=
  (foldl_injective length same).2

theorem length_of_take? {count : Nat} {bytes front rest : Bytes}
    (taken : take? count bytes = some (front, rest)) : front.length = count := by
  rw [take?] at taken
  split at taken
  · next enough =>
    rw [List.splitAt_eq] at taken
    cases taken
    exact List.length_take_of_le enough
  · cases taken

end Bytes

namespace Wire

/-- Whether the length that a head announces fits in four bytes. -/
def Head.lengthFits : Head → Prop
  | .str bytes => bytes.length < 0x100000000
  | .bin bytes => bytes.length < 0x100000000
  | .array length => length < 0x100000000
  | .map length => length < 0x100000000
  | .ext _ data => data.length < 0x100000000
  | _ => True

/-! ## Heads -/

section Heads

variable {width length : Nat} {bytes rest : Bytes} {head : Head}

theorem lt_of_readNat {number : Nat} (found : readNat width bytes = some (number, rest))
    (narrow : width ≤ 4) : number < 0x100000000 := by
  rcases Option.map_eq_some_iff.mp found with ⟨⟨front, after⟩, taken, same⟩
  cases same
  have bound := Bytes.toNat_lt front
  rw [Bytes.length_of_take? taken] at bound
  exact Nat.lt_of_lt_of_le bound (Nat.pow_le_pow_right (by decide) narrow)

theorem lengthFits_of_readData {make : Bytes → Head}
    (found : readData make length bytes = some (head, rest)) (small : length < 0x100000000)
    (fits : ∀ data : Bytes, data.length < 0x100000000 → (make data).lengthFits) :
    head.lengthFits := by
  rcases Option.map_eq_some_iff.mp found with ⟨⟨data, after⟩, taken, same⟩
  cases same
  apply fits
  rw [Bytes.length_of_take? taken]
  exact small

theorem lengthFits_of_readSized {make : Bytes → Head}
    (found : readSized make width bytes = some (head, rest)) (narrow : width ≤ 4)
    (fits : ∀ data : Bytes, data.length < 0x100000000 → (make data).lengthFits) :
    head.lengthFits := by
  rcases Option.bind_eq_some_iff.mp found with ⟨⟨length, after⟩, counted, read⟩
  exact lengthFits_of_readData read (lt_of_readNat counted narrow) fits

theorem lengthFits_of_readCount {make : Nat → Head}
    (found : readCount make width bytes = some (head, rest)) (narrow : width ≤ 4)
    (fits : ∀ length, length < 0x100000000 → (make length).lengthFits) : head.lengthFits := by
  rcases Option.map_eq_some_iff.mp found with ⟨⟨length, after⟩, counted, same⟩
  cases same
  exact fits length (lt_of_readNat counted narrow)

theorem lengthFits_of_readExt (found : readExt length bytes = some (head, rest))
    (small : length < 0x100000000) : head.lengthFits := by
  cases bytes with
  | nil => cases found
  | cons type data => exact lengthFits_of_readData found small fun _ short => short

theorem lengthFits_of_readSizedExt (found : readSizedExt width bytes = some (head, rest))
    (narrow : width ≤ 4) : head.lengthFits := by
  rcases Option.bind_eq_some_iff.mp found with ⟨⟨length, after⟩, counted, read⟩
  exact lengthFits_of_readExt read (lt_of_readNat counted narrow)

/-- A number announces no length. -/
theorem lengthFits_of_map {made : Nat × Bytes → Head × Bytes}
    (found : (readNat width bytes).map made = some (head, rest))
    (plain : ∀ found, (made found).1.lengthFits) : head.lengthFits := by
  rcases Option.map_eq_some_iff.mp found with ⟨number, -, same⟩
  have fits := plain number
  rw [same] at fits
  exact fits

theorem lengthFits_of_readMarked {marker : UInt8}
    (found : readMarked marker bytes = some (head, rest)) : head.lengthFits := by
  unfold readMarked at found
  split at found
  all_goals first
    | exact lengthFits_of_readSized found (by decide) fun _ short => short
    | exact lengthFits_of_readCount found (by decide) fun _ short => short
    | exact lengthFits_of_readExt found (by decide)
    | exact lengthFits_of_readSizedExt found (by decide)
    | exact lengthFits_of_map found fun _ => trivial
    | cases found; exact trivial
    | cases found

theorem lengthFits_of_readHead (found : readHead bytes = some (head, rest)) :
    head.lengthFits := by
  cases bytes with
  | nil => cases found
  | cons marker bytes =>
    have small := marker.toNat_lt
    rw [readHead_cons] at found
    split at found
    · cases found
      exact trivial
    split at found
    · cases found
      exact Nat.lt_of_le_of_lt (Nat.sub_le _ _) (by omega)
    split at found
    · cases found
      exact Nat.lt_of_le_of_lt (Nat.sub_le _ _) (by omega)
    split at found
    · exact lengthFits_of_readData found (by omega) fun _ short => short
    split at found
    · exact lengthFits_of_readMarked found
    · cases found
      exact trivial

end Heads

/-! ## Values -/

theorem lengthsFit_ofTextBytes {bytes : Bytes} (short : bytes.length < 0x100000000) :
    (ofTextBytes bytes).lengthsFit = true := by
  rw [ofTextBytes]
  split
  · next text found =>
    apply decide_eq_true
    rw [Bytes.utf8_of_text? found]
    exact short
  · exact decide_eq_true short

/-- What is read so many times is so many values, each of them read. -/
theorem readTimes_spec {α : Type} {reader : Bytes → Option (α × Bytes)} {holds : α → Prop}
    (each : ∀ bytes item rest, reader bytes = some (item, rest) → holds item) (count : Nat)
    {bytes rest : Bytes} {items : List α}
    (found : readTimes reader count bytes = some (items, rest)) :
    items.length = count ∧ ∀ item ∈ items, holds item := by
  induction count generalizing bytes items with
  | zero =>
    cases found
    simp
  | succ count hypothesis =>
    rcases Option.bind_eq_some_iff.mp found with ⟨⟨item, after⟩, first, later⟩
    rcases Option.bind_eq_some_iff.mp later with ⟨⟨others, last⟩, more, same⟩
    cases same
    have rest := hypothesis more
    refine ⟨by simp [rest.1], ?_⟩
    intro other member
    rcases List.mem_cons.mp member with rfl | there
    · exact each _ _ _ first
    · exact rest.2 other there

theorem itemsFit_iff {items : List Wire} :
    itemsFit items = true ↔ ∀ item ∈ items, item.lengthsFit = true := by
  induction items with
  | nil => simp [itemsFit]
  | cons item rest hypothesis => simp [itemsFit, hypothesis]

theorem entriesFit_iff {entries : List (Wire × Wire)} : entriesFit entries = true ↔
    ∀ entry ∈ entries, entry.1.lengthsFit = true ∧ entry.2.lengthsFit = true := by
  induction entries with
  | nil => simp [entriesFit]
  | cons entry rest hypothesis =>
    rcases entry with ⟨key, value⟩
    simp [entriesFit, hypothesis]

/-- Nothing in a value that was read is longer than the format can count. -/
theorem lengthsFit_of_read (levels : Nat) {bytes rest : Bytes} {value : Wire}
    (found : read levels bytes = some (value, rest)) : value.lengthsFit = true := by
  induction levels using Nat.strongRecOn generalizing bytes rest value with
  | ind levels hypothesis =>
    unfold read at found
    cases begun : readHead bytes with
    | none =>
      rw [begun] at found
      cases found
    | some begins =>
      rcases begins with ⟨head, after⟩
      have fits := lengthFits_of_readHead begun
      rw [begun] at found
      cases head with
      | nil | bool _ | int _ _ | f32 _ | f64 _ =>
        cases found
        rfl
      | str data =>
        cases found
        exact lengthsFit_ofTextBytes fits
      | bin data =>
        cases found
        exact decide_eq_true fits
      | array length =>
        cases levels with
        | zero => cases found
        | succ levels =>
          rcases Option.map_eq_some_iff.mp found with ⟨⟨items, last⟩, read, same⟩
          cases same
          rcases readTimes_spec (fun _ _ _ => hypothesis levels (Nat.lt_succ_self levels)) length
            read with ⟨count, each⟩
          have few : items.length < 0x100000000 := by
            rw [count]
            exact fits
          exact Bool.and_eq_true_iff.mpr ⟨decide_eq_true few, itemsFit_iff.mpr each⟩
      | map length =>
        cases levels with
        | zero => cases found
        | succ levels =>
          rcases Option.map_eq_some_iff.mp found with ⟨⟨entries, last⟩, read, same⟩
          cases same
          have pair : ∀ bytes (entry : Wire × Wire) rest,
              readPair (Wire.read levels) (Wire.read levels) bytes = some (entry, rest) →
                entry.1.lengthsFit = true ∧ entry.2.lengthsFit = true := by
            rintro bytes ⟨key, value⟩ rest both
            rcases Option.bind_eq_some_iff.mp both with ⟨⟨first, between⟩, keyRead, later⟩
            rcases Option.bind_eq_some_iff.mp later with ⟨⟨second, final⟩, valueRead, same⟩
            cases same
            exact ⟨hypothesis levels (Nat.lt_succ_self levels) keyRead,
              hypothesis levels (Nat.lt_succ_self levels) valueRead⟩
          rcases readTimes_spec pair length read with ⟨count, each⟩
          have few : entries.length < 0x100000000 := by
            rw [count]
            exact fits
          exact Bool.and_eq_true_iff.mpr ⟨decide_eq_true few, entriesFit_iff.mpr each⟩
      | ext type data =>
        cases levels with
        | zero => cases found
        | succ levels =>
          cases found
          exact decide_eq_true fits

end Wire
end TypedStore
