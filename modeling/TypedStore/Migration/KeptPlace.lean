import TypedStore.Migration.Plan

/-!
# Places that are kept

The places of a disk that a plan works on, and the files in which a program
keeps their snapshots between two runs.  A directory keeps its snapshot in a
file of its own inside it; a database is its snapshot.
-/

namespace TypedStore

/-- A place of a disk and the file that its snapshot is kept in. -/
structure KeptPlace where
  place : String
  file : String

namespace KeptPlace

/-- The directory above a file. -/
def directory (kept : KeptPlace) : String :=
  let names := (kept.file.splitOn "/").dropLast
  if names.isEmpty then "." else "/".intercalate names ++ "/"

/-- The place of an end of a migration, if it is on a disk. -/
def ofEndpoint? : Endpoint → Option KeptPlace
  | .lsm dir _ _ _ => some ⟨dir, dir ++ "/snapshot"⟩
  | .sqlite path _ => some ⟨path, path⟩
  | .redis _ => none

/-- The places that a plan works on. -/
def ofPlan (plan : MigrationPlan) : List KeptPlace :=
  [plan.source, plan.target].filterMap ofEndpoint?

end KeptPlace

end TypedStore
