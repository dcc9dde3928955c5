import TypedStore.Adapter
import TypedStore.Source
import TypedStore.Sqlite.Options
import TypedStore.Sqlite.Table

/-!
# The table engine

A `Sqlite` handle works on a table that it may share with other handles.
Keys and values are stored as byte strings; walks follow the order of writing
and `next` takes the row with the smallest key.  Rows that hold anything else
are passed over, or discarded by `next`, as far as their cells cannot be read
as bytes.

The handle remembers the number of rows for a while.  Every operation that
may change the table forgets it, whether or not it changed anything.
-/

namespace TypedStore

/-- An open handle on a table. -/
structure Sqlite where
  countCache : Duration
  /-- The number of rows last counted, and when, in nanoseconds. -/
  cached : Option (Nat × Nat)
  /-- The clock, in nanoseconds since a fixed time. -/
  clock : Source Nat
  closed : Bool

namespace Sqlite

/-- The handle that settings ask for, once they are found good. -/
def open? (options : SqliteOptions) (clock : Source Nat) : Except StoreError Sqlite := do
  match options.check with
  | .error fault => throw (.config fault)
  | .ok () =>
    if options.isExecutable then
      return { countCache := options.countCache, cached := none, clock, closed := false }
    else throw (.backend "statement not accepted")

/-- A handle and the table it works on. -/
abbrev State := SqlTable × Sqlite

variable {κ : Type} (codec : KeyCodec κ)

/-- Forget the number of rows. -/
def forget (handle : Sqlite) : Sqlite :=
  { handle with cached := none }

/-- The cell of a key that can be written. -/
def cell? (key : κ) : Option SqlValue :=
  (codec.bytes? key).map .blob

/-- The value under a key. -/
def load (key : κ) : State → Option Bytes
  | (table, handle) => do
    if handle.closed then none
    else
      let key ← cell? codec key
      let (_, value) ← table.find? key
      value.bytes?

/-- Insert or replace a value. -/
def store (key : κ) (value : Bytes) : State → State
  | (table, handle) =>
    if handle.closed then (table, handle)
    else
      match cell? codec key with
      | none => (table, handle)
      | some key => (table.upsert key (.blob value), handle.forget)

/-- Insert a value under an absent key. -/
def storeIfAbsent (key : κ) (value : Bytes) : State → Bool × State
  | (table, handle) =>
    if handle.closed then (false, table, handle)
    else
      match cell? codec key with
      | none => (false, table, handle)
      | some key =>
        if (table.find? key).isSome then (false, table, handle.forget)
        else (true, table.upsert key (.blob value), handle.forget)

/-- Remove keys, those that can be written. -/
def delete (keys : List κ) : State → State
  | (table, handle) =>
    if keys.isEmpty || handle.closed then (table, handle)
    else ((keys.filterMap (cell? codec)).foldl SqlTable.erase table, handle.forget)

/-- A row as readers see it: its key must be readable, and a null value reads
as no bytes. -/
def readRow (row : SqlValue × SqlValue) : Option (κ × Bytes) := do
  let key ← row.1.bytes?
  let value ← if row.2 = .null then some [] else row.2.bytes?
  let key ← codec.key? key
  return (key, value)

/-- The rows that can be read, in the order of writing. -/
def visible : State → List (κ × Bytes)
  | (table, handle) => if handle.closed then [] else table.rows.filterMap (readRow codec)

/-- Take rows from the smallest key on until one can be read; `fuel` is the
number of rows. -/
def popReadable : (fuel : Nat) → SqlTable → Option (κ × Bytes) × SqlTable
  | 0, table => (none, table)
  | fuel + 1, table =>
    match table.popSmallest with
    | (none, table) => (none, table)
    | (some row, table) =>
      match readRow codec row with
      | some entry => (some entry, table)
      | none => popReadable fuel table

/-- Remove the first readable row by key, and all before it, and return it. -/
def next : State → Option (κ × Bytes) × State
  | (table, handle) =>
    if handle.closed then (none, table, handle)
    else
      let (entry, table) := popReadable codec table.size table
      (entry, table, handle.forget)

/-- Whether a number counted at some time is still believed. -/
def isFresh (handle : Sqlite) (countedAt now : Nat) : Bool :=
  decide (now - countedAt < handle.countCache.toNanos)

/-- Look at the clock once. -/
def tick (handle : Sqlite) : Nat × Sqlite :=
  (handle.clock.current, { handle with clock := handle.clock.advance })

/-- Count the rows and remember the number. -/
def count (table : SqlTable) (handle : Sqlite) : Nat × State :=
  let (now, handle) := handle.tick
  (table.size, table, { handle with cached := some (table.size, now) })

/-- The number of rows, remembered or counted. -/
def len : State → Nat × State
  | (table, handle) =>
    if handle.closed then (0, table, handle)
    else
      match handle.cached with
      | none => count table handle
      | some (rows, countedAt) =>
        let (now, handle) := handle.tick
        if handle.isFresh countedAt now then (rows, table, handle) else count table handle

/-- Remove all rows. -/
def clear : State → State
  | (table, handle) => if handle.closed then (table, handle) else (.empty, handle.forget)

/-- Close the handle. -/
def close : State → Except StoreError Unit × State
  | (table, handle) =>
    if handle.closed then (.error .closed, table, handle)
    else (.ok (), table, { handle with closed := true })

/-- The operations of the engine. -/
def storage : Storage State κ Bytes where
  load key state := (load codec key state, state)
  store := store codec
  storeIfAbsent := storeIfAbsent codec
  delete := delete codec
  range visit gathered state := ((visit.walk (visible codec state) gathered).1, state)
  next := next codec
  keys state := ((visible codec state).map Prod.fst, state)
  len := len
  clear := clear
  close := close
  size state := state.1.size

end Sqlite

end TypedStore
