/-!
# Settings of a migration

Which entries are copied, under which keys, and for how long.  A pattern is
either empty or a star, and then every key passes, or it is the one key that
does.  Keys that begin with the source prefix get the target prefix instead,
as long as both prefixes and the rest of the key have at least one character.
-/

namespace TypedStore

/-- Settings of a migration. -/
structure MigrationSettings where
  /-- How many entries are written between two pauses; none of them is
  visible in the result. -/
  batchSize : UInt64 := 1000
  /-- After how many entries progress is reported. -/
  logInterval : UInt64 := 100
  /-- The limit for the whole run; zero stands for none. -/
  timeoutSeconds : UInt64 := 1800
  keyPattern : String := "*"
  sourcePrefix : String := ""
  targetPrefix : String := ""
  deriving DecidableEq

/-- Whether a key passes a pattern. -/
def keyMatches (pattern key : String) : Bool :=
  pattern.isEmpty || pattern == "*" || key == pattern

/-- What follows `start` in a list of characters that begins with it. -/
def afterStart? : (start characters : List Char) → Option (List Char)
  | [], characters => some characters
  | _ :: _, [] => none
  | wanted :: start, character :: characters =>
    if wanted = character then afterStart? start characters else none

/-- The key under which an entry is written. -/
def renameKey (sourcePrefix targetPrefix key : String) : String :=
  if sourcePrefix.isEmpty || targetPrefix.isEmpty then key
  else
    match afterStart? sourcePrefix.toList key.toList with
    | none | some [] => key
    | some rest => targetPrefix ++ String.ofList rest

namespace MigrationSettings

/-- The limit for the whole run in seconds. -/
def timeout (settings : MigrationSettings) : Option UInt64 :=
  if settings.timeoutSeconds = 0 then none else some settings.timeoutSeconds

/-- Whether an entry is copied. -/
def selects (settings : MigrationSettings) (key : String) : Bool :=
  keyMatches settings.keyPattern key

/-- The key under which an entry is written. -/
def rename (settings : MigrationSettings) (key : String) : String :=
  renameKey settings.sourcePrefix settings.targetPrefix key

end MigrationSettings

end TypedStore
