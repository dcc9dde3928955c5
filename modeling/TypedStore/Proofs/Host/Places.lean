import TypedStore.Host.Disk
import TypedStore.Proofs.Listing.Entries

/-!
# Places on a disk

A place that can be reached stays so when something is put there, since no way
leads through the place it leads to.  Nothing else on the disk is asked about.
-/

namespace TypedStore
namespace Disk

theorem leadsThrough_self (place : String) : leadsThrough place place = false := by
  rw [leadsThrough, ← Bool.not_eq_true, String.startsWith_string_iff]
  intro starts
  have longer := starts.length_le
  rw [String.toList_append, List.length_append] at longer
  have slash : "/".toList.length = 1 := rfl
  omega

theorem item?_put_self (disk : Disk) (path : String) (item : DiskItem) :
    (disk.put path item).item? path = some item := by
  rw [item?_put, if_pos rfl]

/-- What is put at a place does not bar the way to it. -/
theorem isBarred_put {disk : Disk} {path : String} (free : disk.isBarred path = false)
    (item : DiskItem) : (disk.put path item).isBarred path = false := by
  rw [isBarred, List.any_eq_false] at free ⊢
  rintro ⟨other, standing⟩ member
  have order := disk.items.entries_insert_perm (disk.place path) item
  rcases List.mem_append.mp (order.mem_iff.mp member) with old | new
  · exact free _ (List.mem_filter.mp old).1
  · cases List.mem_singleton.mp new
    change ¬(leadsThrough (disk.place path) (disk.place path) && _) = true
    rw [leadsThrough_self]
    exact Bool.false_ne_true

/-! ## Tables in a file -/

/-- A file that was opened holds a database and can be reached. -/
theorem openFile_spec {disk after : Disk} {path : String}
    (opened : disk.openFile path = .ok after) :
    (∃ tables, after.item? path = some (.database tables)) ∧ after.isBarred path = false := by
  rw [openFile] at opened
  cases barred : disk.isBarred path with
  | true =>
    rw [barred] at opened
    cases opened
  | false =>
    rw [barred, if_neg Bool.false_ne_true] at opened
    split at opened
    · next tables standing =>
      cases opened
      exact ⟨⟨tables, standing⟩, barred⟩
    · cases opened
    · split at opened
      · cases opened
      · cases opened
        exact ⟨⟨_, item?_put_self _ _ _⟩, isBarred_put barred _⟩

theorem table_putTable {disk : Disk} {path : String} {tables : Listing String SqlTable}
    (standing : disk.item? path = some (.database tables)) (name : String) (table : SqlTable) :
    (disk.putTable path name table).table path name = table := by
  rw [putTable, standing, Disk.table, item?_put_self]
  dsimp only
  rw [Listing.get?_insert, if_pos rfl]
  rfl

theorem item?_putTable {disk : Disk} {path : String} {tables : Listing String SqlTable}
    (standing : disk.item? path = some (.database tables)) (name : String) (table : SqlTable) :
    ∃ later, (disk.putTable path name table).item? path = some (.database later) := by
  rw [putTable, standing]
  exact ⟨_, item?_put_self _ _ _⟩

theorem isBarred_putTable {disk : Disk} {path : String} (free : disk.isBarred path = false)
    (name : String) (table : SqlTable) : (disk.putTable path name table).isBarred path = false := by
  rw [putTable]
  split
  · exact isBarred_put free _
  · exact free

/-- Tables go by their names in lower case. -/
theorem table_congr (disk : Disk) (path : String) {first second : String}
    (same : SqliteOptions.folded first = SqliteOptions.folded second) :
    disk.table path first = disk.table path second := by
  rw [Disk.table, Disk.table, same]

end Disk
end TypedStore
