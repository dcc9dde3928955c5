import TypedStore.Listing
import TypedStore.Lsm
import TypedStore.Sqlite

/-!
# Disks

What stays when handles go: directories of the log-structured engine and
files of the table engine, under their paths.  A directory serves one handle
at a time; a file may serve any number.  Nothing can be made below a file.

Paths that lead to the same place are one path: those that do not start at
the root start at the working directory, and empty names, single dots and
double dots on the way are resolved.
-/

namespace TypedStore

/-- What stands at a path. -/
inductive DiskItem where
  /-- A file of some other kind. -/
  | file
  | directory (image : Lsm.Image) (inUse : Bool)
  /-- Tables by their names in lower case. -/
  | database (tables : Listing String SqlTable)

/-- Places and what stands there. -/
structure Disk where
  /-- What stands at each place. -/
  items : Listing String DiskItem := .empty
  /-- The working directory. -/
  home : String := "/"

namespace Disk

/-- One more name on the way down from the root, the last name first. -/
def descend (way : List String) (name : String) : List String :=
  if name == "" || name == "." then way
  else if name == ".." then way.drop 1
  else name :: way

/-- The place that a path leads to. -/
def place (disk : Disk) (path : String) : String :=
  let whole := if path.startsWith "/" then path else disk.home ++ "/" ++ path
  "/" ++ "/".intercalate ((whole.splitOn "/").foldl descend []).reverse

/-- What stands at a path. -/
def item? (disk : Disk) (path : String) : Option DiskItem :=
  disk.items.get? (disk.place path)

/-- Put something at a path. -/
def put (disk : Disk) (path : String) (item : DiskItem) : Disk :=
  { disk with items := disk.items.insert (disk.place path) item }

/-- Remove what stands at a path. -/
def erase (disk : Disk) (path : String) : Disk :=
  { disk with items := disk.items.erase (disk.place path) }

/-- What was put at a path stands there; what stands elsewhere is not
touched. -/
theorem item?_put (disk : Disk) (path other : String) (item : DiskItem) :
    (disk.put path item).item? other =
      if disk.place other = disk.place path then some item else disk.item? other := by
  have same : ({ disk with items := disk.items.insert (disk.place path) item } : Disk).place other =
      disk.place other := rfl
  simp only [item?, put, same, Listing.get?_insert]

/-- Whether the way to one place leads through another. -/
def leadsThrough (place other : String) : Bool :=
  place.startsWith (other ++ "/")

/-- Whether the way to a path is barred by a file. -/
def isBarred (disk : Disk) (path : String) : Bool :=
  disk.items.entries.any fun (other, item) =>
    leadsThrough (disk.place path) other &&
      match item with
      | .directory _ _ => false
      | _ => true

/-- Whether something stands below a path, so that it is a directory. -/
def isParent (disk : Disk) (path : String) : Bool :=
  disk.items.keys.any fun other => leadsThrough other (disk.place path)

/-- The contents of the directory at a path, a fresh one if nothing is there.
A directory in use is refused. -/
def openDirectory (path : String) (compression : Bool) (disk : Disk) :
    Except StoreError Lsm.Image :=
  if disk.isBarred path then .error (.backend "not a directory")
  else
    match disk.item? path with
    | none => .ok { compression }
    | some (.directory image false) => .ok image
    | some (.directory _ true) => .error (.backend "the database is in use")
    | some _ => .error (.backend "not a directory")

/-- Make sure that a database file stands at a path. -/
def openFile (path : String) (disk : Disk) : Except StoreError Disk :=
  if disk.isBarred path then .error (.io "not a directory")
  else
    match disk.item? path with
    | some (.database _) => .ok disk
    | some _ => .error (.backend "not a database")
    | none =>
      if disk.isParent path || path.endsWith "/" then .error (.backend "not a file")
      else .ok (disk.put path (.database .empty))

/-- The table of this name in a file; none is the same as an empty one. -/
def table (path name : String) (disk : Disk) : SqlTable :=
  match disk.item? path with
  | some (.database tables) => (tables.get? (SqliteOptions.folded name)).getD .empty
  | _ => .empty

/-- Change the table of this name in a file. -/
def putTable (path name : String) (table : SqlTable) (disk : Disk) : Disk :=
  match disk.item? path with
  | some (.database tables) =>
    disk.put path (.database (tables.insert (SqliteOptions.folded name) table))
  | _ => disk

end Disk

end TypedStore
