import Mathlib.Algebra.Ring.Nat
import TypedStore.Wire.Printer
import TypedStore.Wire.Reader

/-!
# Reading heads back

Everything that the printer puts before the first nested value is understood by
`Wire.readHead`, whatever follows it.  Short forms are recognised by the range
of their marker, all others by the marker itself; `readHead_cons` restates the
choice in numbers, so that the arithmetic of markers is done once.

An integer comes back with the kind of form it was written in: signed exactly
when it is negative.  The statements on headers assume that the length fits in
four bytes, the most that the format can say.
-/

namespace TypedStore
namespace Bytes

/-- Digits are read on from a number that stands before them. -/
theorem foldl_ofNat (width n start : Nat) :
    (ofNat width n).foldl (fun value byte => value * 256 + byte.toNat) start =
      start * 256 ^ width + n % 256 ^ width := by
  induction width generalizing start with
  | zero => simp [ofNat, Nat.mod_one]
  | succ width hypothesis =>
    have digit : (UInt8.ofNat (n / Nat.pow 256 width)).toNat = n / 256 ^ width % 256 := rfl
    have power : 256 ^ (width + 1) = 256 ^ width * 256 := Nat.pow_succ 256 width
    have split : n % 256 ^ (width + 1) =
        n % 256 ^ width + 256 ^ width * (n / 256 ^ width % 256) := by
      rw [power, Nat.mod_mul]
    rw [ofNat, List.foldl_cons, hypothesis, digit, split, power, Nat.add_mul, Nat.mul_assoc,
      Nat.mul_comm 256 (256 ^ width), Nat.mul_comm (n / 256 ^ width % 256)]
    omega

/-- A numeral stands for the number it was made of, as far as its width holds that number. -/
theorem toNat_ofNat (width n : Nat) : toNat (ofNat width n) = n % 256 ^ width := by
  rw [toNat, foldl_ofNat, Nat.zero_mul, Nat.zero_add]

theorem take?_append {count : Nat} (front rest : Bytes) (length : front.length = count) :
    take? count (front ++ rest) = some (front, rest) := by
  subst length
  rw [take?, if_pos (by simp), List.splitAt_eq, List.take_left, List.drop_left]

end Bytes

namespace Wire

theorem readNat_ofNat (width n : Nat) (rest : Bytes) :
    readNat width (Bytes.ofNat width n ++ rest) = some (n % 256 ^ width, rest) := by
  rw [readNat, Bytes.take?_append _ _ (Bytes.length_ofNat width n), Option.map_some]
  dsimp only
  rw [Bytes.toNat_ofNat]

theorem readData_append (make : Bytes → Head) (data rest : Bytes) :
    readData make data.length (data ++ rest) = some (make data, rest) := by
  rw [readData, Bytes.take?_append data rest rfl, Option.map_some]

/-! ## Markers -/

/-- The choice of `readHead`, its marker compared as a number. -/
theorem readHead_cons (marker : UInt8) (rest : Bytes) :
    readHead (marker :: rest) =
      if marker.toNat < 0x80 then some (.int false (.ofByte marker), rest)
      else if marker.toNat < 0x90 then some (.map (marker.toNat - 0x80), rest)
      else if marker.toNat < 0xa0 then some (.array (marker.toNat - 0x90), rest)
      else if marker.toNat < 0xc0 then readData .str (marker.toNat - 0xa0) rest
      else if marker.toNat < 0xe0 then readMarked marker rest
      else some (.int true (.ofSigned (Int64.ofInt marker.toInt8.toInt)), rest) := by
  simp only [readHead, UInt8.lt_iff_toNat_lt]
  rfl

theorem toNat_marker {n : Nat} (small : n < 0x100) : (UInt8.ofNat n).toNat = n :=
  UInt8.toNat_ofNat_of_lt' small

theorem readHead_shortText (n : Nat) (rest : Bytes) (small : n < 0x20) :
    readHead (UInt8.ofNat (0xa0 + n) :: rest) = readData .str n rest := by
  rw [readHead_cons, toNat_marker (by omega), if_neg (by omega), if_neg (by omega),
    if_neg (by omega), if_pos (by omega), Nat.add_sub_cancel_left]

theorem readHead_shortArray (n : Nat) (rest : Bytes) (small : n < 0x10) :
    readHead (UInt8.ofNat (0x90 + n) :: rest) = some (.array n, rest) := by
  rw [readHead_cons, toNat_marker (by omega), if_neg (by omega), if_neg (by omega),
    if_pos (by omega), Nat.add_sub_cancel_left]

theorem readHead_shortMap (n : Nat) (rest : Bytes) (small : n < 0x10) :
    readHead (UInt8.ofNat (0x80 + n) :: rest) = some (.map n, rest) := by
  rw [readHead_cons, toNat_marker (by omega), if_neg (by omega), if_pos (by omega),
    Nat.add_sub_cancel_left]

/-! ## Integers -/

theorem ofByte_ofNat {value : WireInt} {bits : Nat} (same : value.val = bits)
    (small : bits < 0x100) : WireInt.ofByte (UInt8.ofNat bits) = value := by
  obtain ⟨whole, low, high⟩ := value
  dsimp only at same
  subst same
  simp only [WireInt.ofByte, WireInt.mk.injEq]
  rw [toNat_marker small]

theorem ofWord_ofNat {value : WireInt} {bits : Nat} (same : value.val = bits) :
    WireInt.ofWord (UInt64.ofNat bits) = value := by
  obtain ⟨whole, low, high⟩ := value
  dsimp only at same
  subst same
  have small : bits < 0x10000000000000000 := by omega
  simp only [WireInt.ofWord, WireInt.mk.injEq]
  rw [UInt64.toNat_ofNat_of_lt' small]

theorem ofSigned_ofInt {value : WireInt} (low : -0x8000000000000000 ≤ value.val)
    (high : value.val < 0x8000000000000000) :
    WireInt.ofSigned (Int64.ofInt value.val) = value := by
  obtain ⟨whole, lowest, highest⟩ := value
  simp only [WireInt.ofSigned, WireInt.mk.injEq]
  exact Int64.toInt_ofInt_of_le low high

theorem readUnsigned_ofNat {value : WireInt} {bits : Nat} (width : Nat) (rest : Bytes)
    (same : value.val = bits) (small : bits < 256 ^ width) :
    readUnsigned width (Bytes.ofNat width bits ++ rest) = some (.int false value, rest) := by
  rw [readUnsigned, readNat_ofNat, Option.map_some, Nat.mod_eq_of_lt small]
  dsimp only
  rw [ofWord_ofNat same]

/-- The two's complement of a number, cut to a width that holds the number, stands for it. -/
theorem bmod_complement {width : Nat} {value : Int}
    (known : width = 1 ∨ width = 2 ∨ width = 4 ∨ width = 8)
    (low : -(Nat.pow 2 (8 * width) : Int) ≤ 2 * value)
    (high : 2 * value < (Nat.pow 2 (8 * width) : Int)) :
    Int.bmod (((value % 0x10000000000000000).toNat % 256 ^ width : Nat) : Int)
      (Nat.pow 2 (8 * width)) = value := by
  rcases known with rfl | rfl | rfl | rfl <;>
    simp only [Nat.reduceMul, Nat.pow_eq, Nat.reducePow, Int.bmod] at low high ⊢ <;>
    omega

theorem readSigned_ofNat {value : WireInt} (width : Nat) (rest : Bytes)
    (known : width = 1 ∨ width = 2 ∨ width = 4 ∨ width = 8)
    (low : -(Nat.pow 2 (8 * width) : Int) ≤ 2 * value.val)
    (high : 2 * value.val < (Nat.pow 2 (8 * width) : Int)) :
    readSigned width (Bytes.ofNat width (value.val % 0x10000000000000000).toNat ++ rest) =
      some (.int true value, rest) := by
  have wide : (Nat.pow 2 (8 * width) : Int) ≤ 0x10000000000000000 := by
    rcases known with rfl | rfl | rfl | rfl <;> decide
  rw [readSigned, readNat_ofNat, Option.map_some]
  dsimp only
  rw [bmod_complement known low high, ofSigned_ofInt (by omega) (by omega)]

theorem readHead_small {value : WireInt} {bits : Nat} (rest : Bytes) (same : value.val = bits)
    (small : bits < 0x80) : readHead (UInt8.ofNat bits :: rest) = some (.int false value, rest) := by
  rw [readHead_cons, toNat_marker (by omega), if_pos small, ofByte_ofNat same (by omega)]

theorem readHead_smallNegative {value : WireInt} (rest : Bytes) (low : -0x20 ≤ value.val)
    (negative : value.val < 0) :
    readHead (UInt8.ofNat (value.val % 0x10000000000000000).toNat :: rest) =
      some (.int true value, rest) := by
  have marker : (UInt8.ofNat (value.val % 0x10000000000000000).toNat).toNat =
      (0x100 + value.val).toNat := by
    rw [UInt8.toNat_ofNat']
    omega
  have signed : (UInt8.ofNat (value.val % 0x10000000000000000).toNat).toInt8.toInt = value.val := by
    rw [← Int8.toInt_toBitVec, UInt8.toBitVec_toInt8, BitVec.toInt_eq_toNat_bmod,
      UInt8.toNat_toBitVec, marker]
    simp only [Int.bmod, Nat.reducePow]
    omega
  rw [readHead_cons, marker, if_neg (by omega), if_neg (by omega), if_neg (by omega),
    if_neg (by omega), if_neg (by omega), signed, ofSigned_ofInt (by omega) (by omega)]

/-- The head of an integer's written form is that integer, in a signed form exactly when it is
negative. -/
theorem readHead_writeInt (value : WireInt) (rest : Bytes) :
    readHead (writeInt value ++ rest) = some (.int (decide (value.val < 0)) value, rest) := by
  have lowest := value.lowest_le
  have highest := value.lt_highest
  unfold writeInt
  dsimp only
  split
  · next natural =>
    have bits : value.val = ((value.val % 0x10000000000000000).toNat : Nat) := by omega
    rw [decide_eq_false (by omega)]
    split
    · next small => exact readHead_small rest bits small
    split
    · next small => exact readUnsigned_ofNat 1 rest bits small
    split
    · next small => exact readUnsigned_ofNat 2 rest bits small
    split
    · next small => exact readUnsigned_ofNat 4 rest bits small
    · exact readUnsigned_ofNat 8 rest bits (by omega)
  · next negative =>
    rw [decide_eq_true (by omega)]
    split
    · next low => exact readHead_smallNegative rest low (by omega)
    split
    · exact readSigned_ofNat 1 rest (by decide) (by simp; omega) (by simp; omega)
    split
    · exact readSigned_ofNat 2 rest (by decide) (by simp; omega) (by simp; omega)
    split
    · exact readSigned_ofNat 4 rest (by decide) (by simp; omega) (by simp; omega)
    · exact readSigned_ofNat 8 rest (by decide) (by simp; omega) (by simp; omega)

/-! ## Floats -/

theorem readHead_f32 (bits : UInt32) (rest : Bytes) :
    readHead (numbered 0xca 4 bits.toNat ++ rest) = some (.f32 bits, rest) := by
  have small : bits.toNat % 256 ^ 4 = bits.toNat := Nat.mod_eq_of_lt bits.toNat_lt
  change (readNat 4 (Bytes.ofNat 4 bits.toNat ++ rest)).map
    (fun found => (Head.f32 (UInt32.ofNat found.1), found.2)) = _
  rw [readNat_ofNat, small, Option.map_some]
  dsimp only
  rw [UInt32.ofNat_toNat]

theorem readHead_f64 (bits : UInt64) (rest : Bytes) :
    readHead (numbered 0xcb 8 bits.toNat ++ rest) = some (.f64 bits, rest) := by
  have small : bits.toNat % 256 ^ 8 = bits.toNat := Nat.mod_eq_of_lt bits.toNat_lt
  change (readNat 8 (Bytes.ofNat 8 bits.toNat ++ rest)).map
    (fun found => (Head.f64 (UInt64.ofNat found.1), found.2)) = _
  rw [readNat_ofNat, small, Option.map_some]
  dsimp only
  rw [UInt64.ofNat_toNat]

/-! ## Headers that hold a length -/

theorem readSized_append (make : Bytes → Head) (width : Nat) (data rest : Bytes)
    (small : data.length < 256 ^ width) :
    readSized make width (Bytes.ofNat width data.length ++ (data ++ rest)) =
      some (make data, rest) := by
  rw [readSized, readNat_ofNat, Nat.mod_eq_of_lt small]
  exact readData_append make data rest

theorem readCount_append (make : Nat → Head) (width length : Nat) (rest : Bytes)
    (small : length < 256 ^ width) :
    readCount make width (Bytes.ofNat width length ++ rest) = some (make length, rest) := by
  rw [readCount, readNat_ofNat, Option.map_some, Nat.mod_eq_of_lt small]

theorem readExt_append (type : Int8) (data rest : Bytes) :
    readExt data.length (type.toUInt8 :: (data ++ rest)) = some (.ext type data, rest) := by
  rw [readExt, readData_append, Int8.toInt8_toUInt8]

theorem readSizedExt_append (width : Nat) (type : Int8) (data rest : Bytes)
    (small : data.length < 256 ^ width) :
    readSizedExt width (Bytes.ofNat width data.length ++ type.toUInt8 :: (data ++ rest)) =
      some (.ext type data, rest) := by
  rw [readSizedExt, readNat_ofNat, Nat.mod_eq_of_lt small]
  exact readExt_append type data rest

theorem readHead_textHeader (data rest : Bytes) (fits : data.length < 0x100000000) :
    readHead (textHeader data.length ++ (data ++ rest)) = some (.str data, rest) := by
  unfold textHeader
  split
  · next small =>
    rw [List.singleton_append, readHead_shortText _ _ small]
    exact readData_append .str data rest
  split
  · next small => exact readSized_append .str 1 data rest small
  split
  · next small => exact readSized_append .str 2 data rest small
  · exact readSized_append .str 4 data rest fits

theorem readHead_binHeader (data rest : Bytes) (fits : data.length < 0x100000000) :
    readHead (binHeader data.length ++ (data ++ rest)) = some (.bin data, rest) := by
  unfold binHeader
  split
  · next small => exact readSized_append .bin 1 data rest small
  split
  · next small => exact readSized_append .bin 2 data rest small
  · exact readSized_append .bin 4 data rest fits

theorem readHead_arrayHeader (length : Nat) (rest : Bytes) (fits : length < 0x100000000) :
    readHead (arrayHeader length ++ rest) = some (.array length, rest) := by
  unfold arrayHeader
  split
  · next small => exact readHead_shortArray length rest small
  split
  · next small => exact readCount_append .array 2 length rest small
  · exact readCount_append .array 4 length rest fits

theorem readHead_mapHeader (length : Nat) (rest : Bytes) (fits : length < 0x100000000) :
    readHead (mapHeader length ++ rest) = some (.map length, rest) := by
  unfold mapHeader
  split
  · next small => exact readHead_shortMap length rest small
  split
  · next small => exact readCount_append .map 2 length rest small
  · exact readCount_append .map 4 length rest fits

theorem readHead_extHeader (type : Int8) (data rest : Bytes) (fits : data.length < 0x100000000) :
    readHead (extHeader data.length ++ type.toUInt8 :: (data ++ rest)) =
      some (.ext type data, rest) := by
  have fixed : ∀ (marker : UInt8) (length : Nat), data.length = length →
      (∀ rest, readHead (marker :: rest) = readExt length rest) →
      readHead ([marker] ++ type.toUInt8 :: (data ++ rest)) = some (.ext type data, rest) := by
    intro marker length exact announced
    rw [List.singleton_append, announced, ← exact]
    exact readExt_append type data rest
  unfold extHeader
  split
  · next one => exact fixed 0xd4 1 one fun _ => rfl
  split
  · next two => exact fixed 0xd5 2 two fun _ => rfl
  split
  · next four => exact fixed 0xd6 4 four fun _ => rfl
  split
  · next eight => exact fixed 0xd7 8 eight fun _ => rfl
  split
  · next sixteen => exact fixed 0xd8 16 sixteen fun _ => rfl
  split
  · next small => exact readSizedExt_append 1 type data rest small
  split
  · next small => exact readSizedExt_append 2 type data rest small
  · exact readSizedExt_append 4 type data rest fits

end Wire
end TypedStore
