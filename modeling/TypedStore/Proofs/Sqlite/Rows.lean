import Mathlib.Data.List.Perm.Basic
import TypedStore.Proofs.Listing.Entries
import TypedStore.Sqlite.Table

/-!
# Tables as lists of rows

A table works on a key that is not null as a listing does.  The smallest row is
some row of the table, which is all that matters when every row can be read;
which one it is depends on the order of cells, and nothing here does.
-/

namespace TypedStore
namespace SqlTable

theorem rows_erase (table : SqlTable) {key : SqlValue} (notNull : key ≠ .null) :
    (table.erase key).rows = table.rows.filter fun row => decide (row.1 ≠ key) := by
  apply List.filter_congr
  intro row _
  rw [decide_eq_decide]
  constructor
  · intro onlyNull same
    exact notNull (same.symm.trans (onlyNull same))
  · intro different same
    exact absurd same different

theorem rows_upsert (table : SqlTable) {key : SqlValue} (notNull : key ≠ .null)
    (value : SqlValue) :
    (table.upsert key value).rows =
      (table.rows.filter fun row => decide (row.1 ≠ key)) ++ [(key, value)] := by
  rw [← table.rows_erase notNull]
  rfl

theorem find?_eq_listing (table : SqlTable) {key : SqlValue} (notNull : key ≠ .null) :
    table.find? key = (Listing.find? key table.rows).map fun value => (key, value) := by
  rw [find?]
  generalize table.rows = rows
  induction rows with
  | nil => rfl
  | cons row rest hypothesis =>
    rcases row with ⟨other, value⟩
    rw [Listing.find?, List.find?_cons]
    by_cases same : key = other
    · have here : decide (other = key ∧ other ≠ .null) = true := by
        refine decide_eq_true ⟨same.symm, ?_⟩
        rw [← same]
        exact notNull
      rw [here, if_pos same, same]
      rfl
    · have notHere : decide (other = key ∧ other ≠ .null) = false :=
        decide_eq_false fun both => same both.1.symm
      rw [notHere, if_neg same]
      exact hypothesis

/-- A row that is written is found. -/
theorem find?_upsert (table : SqlTable) {key : SqlValue} (notNull : key ≠ .null)
    (value : SqlValue) : (table.upsert key value).find? key = some (key, value) := by
  have others : ((table.rows.filter fun row => decide (row.1 ≠ key)).find? fun row =>
      decide (row.1 = key ∧ row.1 ≠ .null)) = none := by
    apply List.find?_eq_none.mpr
    intro row member found
    exact (of_decide_eq_true (List.mem_filter.mp member).2) (of_decide_eq_true found).1
  have own : decide (key = key ∧ key ≠ .null) = true := decide_eq_true ⟨rfl, notNull⟩
  rw [find?, table.rows_upsert notNull, List.find?_append, others, Option.none_or, List.find?_cons,
    own]

theorem smallest?_lt {rows : List (SqlValue × SqlValue)} {place : Nat}
    (found : smallest? rows = some place) : place < rows.length := by
  induction rows generalizing place with
  | nil => cases found
  | cons row rest hypothesis =>
    have first : 0 < (row :: rest).length := Nat.succ_pos _
    rw [smallest?] at found
    cases later : smallest? rest with
    | none =>
      rw [later] at found
      cases found
      exact first
    | some other =>
      have bound := hypothesis later
      rw [later] at found
      dsimp only at found
      rw [List.getElem?_eq_getElem bound] at found
      dsimp only at found
      split at found
      · cases found
        exact Nat.succ_lt_succ bound
      · cases found
        exact first

theorem smallest?_ne_none {row : SqlValue × SqlValue} {rest : List (SqlValue × SqlValue)} :
    smallest? (row :: rest) ≠ none := by
  intro nothing
  rw [smallest?] at nothing
  cases later : smallest? rest with
  | none =>
    rw [later] at nothing
    cases nothing
  | some place =>
    rw [later] at nothing
    dsimp only at nothing
    rw [List.getElem?_eq_getElem (smallest?_lt later)] at nothing
    dsimp only at nothing
    split at nothing <;> cases nothing

/-- Taking the smallest row takes one row and leaves the others. -/
theorem popSmallest_spec (table : SqlTable) :
    (table.rows = [] ∧ table.popSmallest = (none, table)) ∨
      ∃ row, table.popSmallest.1 = some row ∧
        table.rows.Perm (row :: table.popSmallest.2.rows) := by
  cases found : smallest? table.rows with
  | none =>
    refine .inl ⟨?_, ?_⟩
    · cases rows : table.rows with
      | nil => rfl
      | cons row rest =>
        rw [rows] at found
        exact absurd found smallest?_ne_none
    · rw [popSmallest, found]
  | some place =>
    have bound := smallest?_lt found
    refine .inr ⟨table.rows[place], ?_, ?_⟩
    · rw [popSmallest, found]
      exact List.getElem?_eq_getElem bound
    · rw [popSmallest, found]
      exact (List.getElem_cons_eraseIdx_perm bound).symm

end SqlTable
end TypedStore
