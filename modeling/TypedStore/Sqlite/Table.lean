import TypedStore.Bytes

/-!
# Tables of keys and values

The rows of one table with a key and a value column, in the order in which
they were written.  A key that is not null stands in one row only; replacing
a row moves it to the end.  Cells may hold more than the engine writes: other
programs may have put texts, integers or nulls there.

Ordered by key, nulls come first, then integers, texts and byte strings.
-/

namespace TypedStore

/-- What one cell holds. -/
inductive SqlValue where
  | null
  | integer (value : Int)
  | text (value : String)
  | blob (value : Bytes)
  deriving DecidableEq

namespace SqlValue

/-- The bytes of a text or a byte string. -/
def bytes? : SqlValue → Option Bytes
  | .text value => some (Bytes.utf8 value)
  | .blob value => some value
  | _ => none

/-- The place of the kinds in the order. -/
def rank : SqlValue → Nat
  | .null => 0
  | .integer _ => 1
  | .text _ => 2
  | .blob _ => 3

/-- The order of cells. -/
def before (first second : SqlValue) : Bool :=
  match first, second with
  | .integer first, .integer second => decide (first < second)
  | .text first, .text second => decide (Bytes.utf8 first < Bytes.utf8 second)
  | .blob first, .blob second => decide (first < second)
  | first, second => decide (first.rank < second.rank)

/-- A cell as a literal. -/
def literal : SqlValue → String
  | .null => "NULL"
  | .integer value => toString value
  | .text value => "'" ++ "''".intercalate (value.splitOn "'") ++ "'"
  | .blob value => "X'" ++ String.ofList ((Bytes.hex value).toList.map Char.toUpper) ++ "'"

end SqlValue

/-- Rows in the order in which they were written; no two have the same key,
unless it is null. -/
structure SqlTable where
  rows : List (SqlValue × SqlValue)
  unique : rows.Pairwise fun first second => first.1 = second.1 → first.1 = .null

namespace SqlTable

/-- The table without rows. -/
def empty : SqlTable := ⟨[], List.Pairwise.nil⟩

instance : Inhabited SqlTable := ⟨empty⟩

/-- The number of rows. -/
def size (table : SqlTable) : Nat :=
  table.rows.length

/-- Remove the row of a key.  Null is equal to nothing, so the rows of null
keys stay. -/
def erase (table : SqlTable) (key : SqlValue) : SqlTable :=
  ⟨table.rows.filter fun row => decide (row.1 = key → row.1 = .null),
    table.unique.sublist List.filter_sublist⟩

/-- Write a row at the end, in place of the one of the same key. -/
def upsert (table : SqlTable) (key value : SqlValue) : SqlTable :=
  ⟨(table.erase key).rows ++ [(key, value)], by
    rw [List.pairwise_append]
    refine ⟨(table.erase key).unique, List.pairwise_singleton _ _, ?_⟩
    intro first member second last
    simp only [List.mem_singleton] at last
    subst last
    exact of_decide_eq_true (List.mem_filter.1 member).2⟩

/-- The row of a key that is not null. -/
def find? (table : SqlTable) (key : SqlValue) : Option (SqlValue × SqlValue) :=
  table.rows.find? fun row => decide (row.1 = key ∧ row.1 ≠ .null)

/-- The place of the row with the smallest key, the first of several. -/
def smallest? : List (SqlValue × SqlValue) → Option Nat
  | [] => none
  | row :: rest =>
    match smallest? rest with
    | none => some 0
    | some place =>
      match rest[place]? with
      | some other => if other.1.before row.1 then some (place + 1) else some 0
      | none => some 0

/-- Remove the row with the smallest key and return it. -/
def popSmallest (table : SqlTable) : Option (SqlValue × SqlValue) × SqlTable :=
  match smallest? table.rows with
  | none => (none, table)
  | some place =>
    (table.rows[place]?,
      ⟨table.rows.eraseIdx place, table.unique.sublist (List.eraseIdx_sublist table.rows place)⟩)

/-- A table of the given rows. -/
def ofList (rows : List (SqlValue × SqlValue)) : SqlTable :=
  rows.foldl (fun table (key, value) => table.upsert key value) empty

/-- Put rows in ascending order of their keys. -/
def sorted (table : SqlTable) : List (SqlValue × SqlValue) :=
  table.rows.mergeSort fun first second => !second.1.before first.1

end SqlTable

end TypedStore
