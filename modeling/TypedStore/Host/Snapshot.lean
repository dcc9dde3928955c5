import TypedStore.Host.Disk
import TypedStore.Wire.Printer
import TypedStore.Wire.Reader

/-!
# Snapshots of places

What stands at a place of a disk as one byte string, so that a program can
keep it between two runs.  A snapshot is a wire value: a list that starts with
the kind of the place.  A handle that works on the place is not part of it.
-/

namespace TypedStore

namespace Snapshot

/-- Keys and values as a wire value. -/
def ofTree (tree : Tree) : Wire :=
  .map (tree.entries.map fun (key, value) => (.bin key, .bin value))

/-- Read a byte string. -/
def bytes? : Wire → Option Bytes
  | .bin bytes => some bytes
  | _ => none

/-- Read keys and values. -/
def tree? : Wire → Option Tree
  | .map entries =>
    (entries.mapM fun (key, value) => do return (← bytes? key, ← bytes? value)).map Tree.ofList
  | _ => none

/-- A cell as a wire value. -/
def ofCell : SqlValue → Wire
  | .null => .nil
  | .integer value => ((WireInt.ofInt? value).map Wire.int).getD .nil
  | .text value => .str value
  | .blob value => .bin value

/-- Read a cell. -/
def cell? : Wire → Option SqlValue
  | .nil => some .null
  | .int value => some (.integer value.val)
  | .str value => some (.text value)
  | .bin value => some (.blob value)
  | _ => none

/-- A table as a wire value, its rows in their order. -/
def ofTable (table : SqlTable) : Wire :=
  .map (table.rows.map fun (key, value) => (ofCell key, ofCell value))

/-- Read a table. -/
def table? : Wire → Option SqlTable
  | .map rows =>
    (rows.mapM fun (key, value) => do return (← cell? key, ← cell? value)).map SqlTable.ofList
  | _ => none

end Snapshot

namespace DiskItem

/-- What stands at a place as a wire value. -/
def toWire : DiskItem → Wire
  | .file => .array [.str "file"]
  | .directory image _ =>
    .array [.str "directory", .bool image.compression, Snapshot.ofTree image.entries,
      Snapshot.ofTree image.records]
  | .database tables =>
    .array [.str "database",
      .map (tables.entries.map fun (name, table) => (.str name, Snapshot.ofTable table))]

/-- Read what stands at a place. -/
def ofWire? : Wire → Option DiskItem
  | .array [.str "directory", .bool compression, entries, records] => do
    return .directory
      { entries := ← Snapshot.tree? entries, records := ← Snapshot.tree? records, compression }
      false
  | .array [.str "database", .map tables] => do
    let tables ← tables.mapM fun (name, table) => do
      return (← name.text?, ← Snapshot.table? table)
    return .database (tables.foldl (fun listing (name, table) => listing.insert name table) .empty)
  | _ => none

/-- What stands at a place as a byte string. -/
def snapshot (item : DiskItem) : Bytes :=
  item.toWire.write

/-- What a byte string is a snapshot of; any other is some file. -/
def ofSnapshot (bytes : Bytes) : DiskItem :=
  match Wire.read Wire.maxDepth bytes with
  | some (wire, []) => (ofWire? wire).getD .file
  | _ => .file

end DiskItem

end TypedStore
