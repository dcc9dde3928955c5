import TypedStore.Bytes

/-!
# Wire values

A `Wire` is a MessagePack value: the self-describing data that every payload
and every key consists of.  Maps keep the order and the repetitions of their
entries, floats keep their bits, and integers are those that eight bytes can
hold, signed or unsigned, so each value has a written form.

Wire values are compared structurally.  `same_iff` shows that the executable
comparison is equality, which gives the type decidable equality although it
is nested in lists and pairs.
-/

namespace TypedStore

/-- An integer that fits a signed or an unsigned word of eight bytes. -/
structure WireInt where
  val : Int
  lowest_le : -0x8000000000000000 ≤ val
  lt_highest : val < 0x10000000000000000
  deriving DecidableEq

namespace WireInt

/-- The integer as a wire integer, if it fits. -/
def ofInt? (value : Int) : Option WireInt :=
  if fits : -0x8000000000000000 ≤ value ∧ value < 0x10000000000000000 then
    some ⟨value, fits.1, fits.2⟩
  else none

theorem ofInt?_val (value : WireInt) : ofInt? value.val = some value :=
  dif_pos ⟨value.lowest_le, value.lt_highest⟩

/-- A byte is a wire integer. -/
def ofByte (byte : UInt8) : WireInt :=
  ⟨byte.toNat, by omega, by have := byte.toNat_lt; omega⟩

/-- An unsigned word is a wire integer. -/
def ofWord (word : UInt64) : WireInt :=
  ⟨word.toNat, by omega, by have := word.toNat_lt; omega⟩

/-- A signed word is a wire integer. -/
def ofSigned (word : Int64) : WireInt :=
  ⟨word.toInt, Int64.le_toInt word, by have := Int64.toInt_lt word; omega⟩

instance : Inhabited WireInt := ⟨ofByte 0⟩

end WireInt

/-- A MessagePack value. -/
inductive Wire where
  | nil
  | bool (value : Bool)
  | int (value : WireInt)
  /-- A single precision float, by its bits. -/
  | f32 (bits : UInt32)
  /-- A double precision float, by its bits. -/
  | f64 (bits : UInt64)
  | str (text : String)
  | bin (bytes : Bytes)
  | array (items : List Wire)
  /-- Entries in written order, repetitions kept. -/
  | map (entries : List (Wire × Wire))
  /-- Application data under a type number of one signed byte. -/
  | ext (type : Int8) (data : Bytes)
  deriving Inhabited

namespace Wire

/-- A byte as a wire value. -/
def ofByte (byte : UInt8) : Wire :=
  .int (.ofByte byte)

/-- A small natural number as a wire value. -/
def ofIndex (index : Nat) : Wire :=
  .int (.ofWord (UInt64.ofNat index))

/-- The text of a string value; every other kind of value has none. -/
def text? : Wire → Option String
  | .str text => some text
  | _ => none

mutual

/-- Structural comparison of values. -/
def same : Wire → Wire → Bool
  | .nil, .nil => true
  | .bool first, .bool second => first == second
  | .int first, .int second => decide (first = second)
  | .f32 first, .f32 second => decide (first = second)
  | .f64 first, .f64 second => decide (first = second)
  | .str first, .str second => decide (first = second)
  | .bin first, .bin second => decide (first = second)
  | .array first, .array second => sameItems first second
  | .map first, .map second => sameEntries first second
  | .ext first data, .ext second other => decide (first = second) && decide (data = other)
  | _, _ => false

/-- Structural comparison of the items of two arrays. -/
def sameItems : List Wire → List Wire → Bool
  | [], [] => true
  | first :: firsts, second :: seconds => same first second && sameItems firsts seconds
  | _, _ => false

/-- Structural comparison of the entries of two maps. -/
def sameEntries : List (Wire × Wire) → List (Wire × Wire) → Bool
  | [], [] => true
  | (firstKey, first) :: firsts, (secondKey, second) :: seconds =>
    same firstKey secondKey && same first second && sameEntries firsts seconds
  | _, _ => false

end

mutual

theorem same_iff : ∀ first second : Wire, same first second = true ↔ first = second
  | .nil, second => by cases second <;> simp [same]
  | .bool _, second => by cases second <;> simp [same]
  | .int _, second => by cases second <;> simp [same]
  | .f32 _, second => by cases second <;> simp [same]
  | .f64 _, second => by cases second <;> simp [same]
  | .str _, second => by cases second <;> simp [same]
  | .bin _, second => by cases second <;> simp [same]
  | .array items, second => by cases second <;> simp [same, sameItems_iff items]
  | .map entries, second => by cases second <;> simp [same, sameEntries_iff entries]
  | .ext _ _, second => by cases second <;> simp [same]

theorem sameItems_iff : ∀ first second : List Wire, sameItems first second = true ↔ first = second
  | [], second => by cases second <;> simp [sameItems]
  | item :: rest, second => by
    cases second <;> simp [sameItems, same_iff item, sameItems_iff rest]

theorem sameEntries_iff :
    ∀ first second : List (Wire × Wire), sameEntries first second = true ↔ first = second
  | [], second => by cases second <;> simp [sameEntries]
  | (key, value) :: rest, second => by
    cases second <;>
      simp [sameEntries, same_iff key, same_iff value, sameEntries_iff rest, Prod.ext_iff]

end

instance : DecidableEq Wire :=
  fun first second => decidable_of_iff _ (same_iff first second)

mutual

/-- How many arrays, maps and extensions lie around the innermost value, the
value itself included. -/
def depth : Wire → Nat
  | .array items => depthItems items + 1
  | .map entries => depthEntries entries + 1
  | .ext _ _ => 1
  | _ => 0

/-- The greatest depth among the items of an array. -/
def depthItems : List Wire → Nat
  | [] => 0
  | item :: rest => max (depth item) (depthItems rest)

/-- The greatest depth among the keys and values of a map. -/
def depthEntries : List (Wire × Wire) → Nat
  | [] => 0
  | (key, value) :: rest => max (max (depth key) (depth value)) (depthEntries rest)

end

end Wire

end TypedStore
