import TypedStore.Proofs.Schema.KeyRecovery
import TypedStore.Proofs.Schema.Recovery
import TypedStore.Proofs.Wire.RoundTrip

/-!
# Lists of any depth

Readers stop at `Wire.maxDepth` levels of nesting and writers never stop.  The lists
here have one item each, so that their data are small and well formed at every depth.
-/

namespace TypedStore

/-- Lists in lists, so many levels deep, around nothing. -/
def Schema.nested : Nat → Schema
  | 0 => .unit
  | depth + 1 => .list (nested depth)

/-- The list of one item at every level. -/
def Datum.nested : Nat → Datum
  | 0 => .unit
  | depth + 1 => .list [nested depth]

/-- What such a list is written as. -/
def Wire.nested : Nat → Wire
  | 0 => .nil
  | depth + 1 => .array [nested depth]

theorem Schema.isStatic_nested (depth : Nat) : (Schema.nested depth).isStatic = true := by
  induction depth with
  | zero => rfl
  | succ depth hypothesis => exact hypothesis

theorem Schema.isKeyType_nested (depth : Nat) : (Schema.nested depth).isKeyType = true := by
  induction depth with
  | zero => rfl
  | succ depth hypothesis => exact hypothesis

theorem Schema.length_utf8_tag_nested (depth : Nat) :
    (Bytes.utf8 (Schema.nested depth).tag).length = 17 * depth + 2 := by
  induction depth with
  | zero => rfl
  | succ depth hypothesis =>
    change (Schema.nested depth).tag.utf8ByteSize = _ at hypothesis
    change ("alloc::vec::Vec<" ++ (Schema.nested depth).tag ++ ">").utf8ByteSize = _
    rw [String.utf8ByteSize_append, String.utf8ByteSize_append, hypothesis]
    change 16 + (17 * depth + 2) + 1 = _
    omega

theorem Datum.fits_nested (depth : Nat) :
    (Datum.nested depth).fits (Schema.nested depth) = true := by
  induction depth with
  | zero => rfl
  | succ depth hypothesis => exact Bool.and_eq_true_iff.mpr ⟨hypothesis, rfl⟩

theorem Datum.toWire_nested (style : CaseStyle) (depth : Nat) :
    (Datum.nested depth).toWire style = .ok (Wire.nested depth) := by
  induction depth with
  | zero => rfl
  | succ depth hypothesis =>
    rw [Datum.nested, Datum.toWire, Datum.itemsToWire, hypothesis]
    rfl

theorem Datum.nesting_nested (depth : Nat) : (Datum.nested depth).nesting = depth := by
  induction depth with
  | zero => rfl
  | succ depth hypothesis =>
    rw [Datum.nested, Datum.nesting, Datum.itemsNesting, Datum.itemsNesting, hypothesis,
      Nat.max_zero]

theorem Wire.depth_nested (depth : Nat) : (Wire.nested depth).depth = depth := by
  induction depth with
  | zero => rfl
  | succ depth hypothesis =>
    rw [Wire.nested, Wire.depth, Wire.depthItems, Wire.depthItems, hypothesis, Nat.max_zero]

theorem Wire.lengthsFit_nested (depth : Nat) : (Wire.nested depth).lengthsFit = true := by
  induction depth with
  | zero => rfl
  | succ depth hypothesis =>
    rw [Wire.nested, Wire.lengthsFit, Wire.itemsFit, Wire.itemsFit, hypothesis]
    rfl

end TypedStore
