/-!
# TOML documents

The values of a TOML document and the rules by which its lines build them up.
Keys and headers are paths.  A header makes the table it names, a dotted key
the tables it passes through, and both may need tables that nobody has
written yet.  How a table came about decides what may still be added to it,
so each one carries its `Origin`.

Nothing is ever replaced: what would write a place twice, or reach into a
value, is refused.
-/

namespace TypedStore
namespace Toml

/-- How a table came about. -/
inductive Origin where
  /-- A header names it. -/
  | header
  /-- It stands on the way to the table of a header. -/
  | implied
  /-- A dotted key passes through it. -/
  | dotted
  /-- It is written out in braces, and complete. -/
  | inline
  deriving DecidableEq, Repr

/-- A value. -/
inductive Value where
  | text (value : String)
  | integer (value : Int64)
  /-- A float by its bits in double precision. -/
  | float (bits : UInt64)
  | flag (value : Bool)
  /-- A date, a time or both, as written. -/
  | moment (text : String)
  | array (items : List Value)
  /-- Tables that repeated headers made, each with its entries. -/
  | tables (items : List (List (String × Value)))
  | table (origin : Origin) (entries : List (String × Value))
  deriving Inhabited

namespace Value

/-- The text of a text. -/
def text? : Value → Option String
  | .text value => some value
  | _ => none

/-- The truth value of a flag. -/
def flag? : Value → Option Bool
  | .flag value => some value
  | _ => none

/-- The value of an integer. -/
def integer? : Value → Option Int64
  | .integer value => some value
  | _ => none

/-- The value of an integer that is not negative. -/
def word? (value : Value) : Option UInt64 := do
  let number ← value.integer?
  if 0 ≤ number.toInt then some (UInt64.ofNat number.toInt.toNat) else none

/-- The value of an integer that is not negative and fits four bytes. -/
def halfWord? (value : Value) : Option UInt32 := do
  let number ← value.word?
  if number.toNat < 0x100000000 then some (UInt32.ofNat number.toNat) else none

end Value

/-- The entries of a table in the order in which they were first written. -/
abbrev Entries := List (String × Value)

namespace Entries

/-- The value under a key. -/
def get? (entries : Entries) (key : String) : Option Value :=
  entries.lookup key

/-- The value under a key, read by a reader of values.  A key that is missing
is no fault; a value that the reader refuses is. -/
def read? {α : Type} (read : Value → Option α) (key : String) (entries : Entries) :
    Option (Option α) :=
  match entries.get? key with
  | none => some none
  | some value => (read value).map some

/-- Replace the value of a key, or add an entry. -/
def set (key : String) (value : Value) : Entries → Entries
  | [] => [(key, value)]
  | (other, old) :: rest =>
    if other = key then (key, value) :: rest else (other, old) :: set key value rest

/-- Add an entry under a new key. -/
def addNew (key : String) (value : Value) (entries : Entries) : Option Entries :=
  match entries.get? key with
  | some _ => none
  | none => some (entries ++ [(key, value)])

/-- Change the last table of several. -/
def changeLast (change : Entries → Option Entries) : List Entries → Option (List Entries)
  | [] => none
  | [last] => (change last).map fun last => [last]
  | first :: rest => (changeLast change rest).map fun rest => first :: rest

/-- Put a value under a dotted key.  The tables passed through are made by
dotted keys alone, and so is the one that takes the value: `owned` says that
of the table at hand. -/
def put : (owned : Bool) → (path : List String) → String → Value → Entries → Option Entries
  | owned, [], key, value, entries => if owned then entries.addNew key value else none
  | _, step :: path, key, value, entries =>
    match entries.get? step with
    | none =>
      (put true path key value []).map fun inner => entries.set step (.table .dotted inner)
    | some (.table .dotted inner) =>
      (put true path key value inner).map fun inner => entries.set step (.table .dotted inner)
    | some (.table .implied inner) =>
      (put false path key value inner).map fun inner => entries.set step (.table .implied inner)
    | some (.tables items) =>
      (changeLast (put false path key value) items).map fun items =>
        entries.set step (.tables items)
    | some _ => none

/-- Change the table that a header path leads to; of repeated tables it leads
to the last. -/
def changeAt (change : Entries → Option Entries) : (path : List String) → Entries → Option Entries
  | [], entries => change entries
  | step :: path, entries =>
    match entries.get? step with
    | none =>
      (changeAt change path []).map fun inner => entries.set step (.table .implied inner)
    | some (.table .inline _) => none
    | some (.table origin inner) =>
      (changeAt change path inner).map fun inner => entries.set step (.table origin inner)
    | some (.tables items) =>
      (changeLast (changeAt change path) items).map fun items => entries.set step (.tables items)
    | some _ => none

/-- Open the table of a header that is written once. -/
def openTable (key : String) (entries : Entries) : Option Entries :=
  match entries.get? key with
  | none => some (entries.set key (.table .header []))
  | some (.table .implied inner) => some (entries.set key (.table .header inner))
  | some _ => none

/-- Open one more table of a header that may be repeated. -/
def openRepeated (key : String) (entries : Entries) : Option Entries :=
  match entries.get? key with
  | none => some (entries.set key (.tables [[]]))
  | some (.tables items) => some (entries.set key (.tables (items ++ [[]])))
  | some _ => none

/-- The entries of a table written in braces. -/
def ofPairs (pairs : List (List String × String × Value)) : Option Entries :=
  pairs.foldlM (fun entries (path, key, value) => put true path key value entries) []

end Entries

/-- A document while its lines are read. -/
structure Draft where
  root : Entries := []
  /-- The path of the table that keys belong to. -/
  place : List String := []

namespace Draft

/-- Put a value under a dotted key of the table at hand. -/
def put (draft : Draft) (path : List String) (key : String) (value : Value) : Option Draft :=
  (Entries.changeAt (Entries.put true path key value) draft.place draft.root).map fun root =>
    { draft with root }

/-- Turn to the table of a header. -/
def turn (draft : Draft) (path : List String) (key : String) (repeated : Bool) : Option Draft :=
  let change := if repeated then Entries.openRepeated key else Entries.openTable key
  (Entries.changeAt change path draft.root).map fun root => { root, place := path ++ [key] }

end Draft

end Toml
end TypedStore
