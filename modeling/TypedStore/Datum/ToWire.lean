import TypedStore.Datum

/-!
# Wire form of data

Data are written through their wire form.  Tuples and records become arrays,
an absent option becomes nil and a present one its item.  Variants have two
forms: payloads number them, `[index, items]`, and keys name them, a bare
label or a map of one entry.  A dynamic value always takes the form of
payloads.

Only a guarded integer can refuse.  A refusal inside a dynamic value is
reported once more for every dynamic value around it.
-/

namespace TypedStore

/-- How variants of unions are written. -/
inductive CaseStyle where
  | numbered
  | labelled
  deriving DecidableEq, Repr

/-- Why a datum has no wire form. -/
inductive WriteFault where
  /-- A guarded integer is negative. -/
  | refused
  /-- A dynamic value holds data that have no wire form. -/
  | held (inner : WriteFault)
  deriving DecidableEq, Repr

namespace WriteFault

/-- The wording of a fault met while building a payload. -/
def converting (inner : String) : String :=
  "error while decoding value: " ++ inner

/-- The wording of a fault. -/
def text : WriteFault → String
  | .refused => "refuses to serialize"
  | .held inner => "Serialization error: " ++ converting inner.text

end WriteFault

/-- A variant, given the wire forms of what it holds. -/
def CaseStyle.variant (style : CaseStyle) (index : Nat) (label : String) :
    Payload Wire → Wire
  | .none =>
    match style with
    | .numbered => .array [.ofIndex index, .array []]
    | .labelled => .str label
  | .one item =>
    match style with
    | .numbered => .array [.ofIndex index, .array [item]]
    | .labelled => .map [(.str label, item)]
  | .many items =>
    match style with
    | .numbered => .array [.ofIndex index, .array items]
    | .labelled => .map [(.str label, .array items)]

namespace Datum

mutual

/-- The wire form of a datum. -/
def toWire (style : CaseStyle) : Datum → Except WriteFault Wire
  | .bool value => .ok (.bool value)
  | .int value => .ok (.int value)
  | .f32 bits => .ok (.f32 bits)
  | .f64 bits => .ok (.f64 bits)
  | .char value => .ok (.str value.toString)
  | .text value => .ok (.str value)
  | .unit => .ok .nil
  | .absent => .ok .nil
  | .present item => toWire style item
  | .list items => (itemsToWire style items).map .array
  | .map entries => (entriesToWire style entries).map .map
  | .tuple items => (itemsToWire style items).map .array
  | .variant index label payload =>
    (payloadToWire style payload).map (style.variant index label)
  | .guarded value => if value.val < 0 then .error .refused else .ok (.int value)
  | .dyn value => (dynToWire value).mapError .held

/-- The wire forms of the items of a list or a tuple. -/
def itemsToWire (style : CaseStyle) : List Datum → Except WriteFault (List Wire)
  | [] => .ok []
  | item :: rest => do
    let item ← toWire style item
    let rest ← itemsToWire style rest
    return item :: rest

/-- The wire forms of the entries of a map. -/
def entriesToWire (style : CaseStyle) :
    List (String × Datum) → Except WriteFault (List (Wire × Wire))
  | [] => .ok []
  | (key, item) :: rest => do
    let item ← toWire style item
    let rest ← entriesToWire style rest
    return (.str key, item) :: rest

/-- The wire forms of what a variant holds. -/
def payloadToWire (style : CaseStyle) : Payload Datum → Except WriteFault (Payload Wire)
  | .none => .ok .none
  | .one item => (toWire style item).map .one
  | .many items => (itemsToWire style items).map .many

/-- The wire form of what a dynamic value holds. -/
def dynToWire : DynValue → Except WriteFault Wire
  | .typed _ datum => toWire .numbered datum
  | .raw data _ => .ok data

end

end Datum

end TypedStore
