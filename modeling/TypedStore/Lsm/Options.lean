import TypedStore.Bytes
import TypedStore.Duration
import TypedStore.Text.Quoted

/-!
# Settings of the log-structured engine

The settings with their defaults, and the text that describes them.  The key
itself never shows; the description says only whether there is one.
-/

namespace TypedStore

/-- Settings of the log-structured engine. -/
structure LsmOptions where
  /-- The directory of the database; none stands for a fresh one. -/
  dir : Option String := none
  /-- Whether the files go away with the handle. -/
  temporary : Bool := true
  compression : Bool := false
  cacheCapacity : UInt64 := 536870912
  flushEvery : Duration := .ofMillis 500
  syncWrites : Bool := false
  encryptionKey : Option Bytes := none
  keyRotation : Duration := .ofSeconds 864000
  maintenanceInterval : Duration := .ofSeconds 10
  deriving DecidableEq

namespace LsmOptions

/-- Keep the database in a directory. -/
def withDir (dir : String) (options : LsmOptions) : LsmOptions :=
  { options with dir := some dir, temporary := false }

/-- The milliseconds between two flushes: at least one, in a word; none when
every write is flushed. -/
def flushMillis (options : LsmOptions) : Option UInt64 :=
  if options.syncWrites then none
  else some (UInt64.ofNat (max options.flushEvery.toMillis 1))

/-- The time between two rounds of maintenance. -/
def maintenancePeriod (options : LsmOptions) : Duration :=
  let shortest := Duration.ofMillis 10
  if options.maintenanceInterval.toNanos < shortest.toNanos then shortest
  else options.maintenanceInterval

/-- The text of a truth value. -/
def flagText (flag : Bool) : String :=
  if flag then "true" else "false"

/-- The text that describes the settings. -/
def description (options : LsmOptions) : String :=
  "LsmOptions \x7b dir: " ++ Text.quoted (options.dir.getD "<default>")
    ++ ", temporary: " ++ flagText options.temporary
    ++ ", compression: " ++ flagText options.compression
    ++ ", cache_capacity: " ++ toString options.cacheCapacity.toNat
    ++ ", flush_every: " ++ options.flushEvery.text
    ++ ", sync_writes: " ++ flagText options.syncWrites
    ++ ", encrypted: " ++ flagText options.encryptionKey.isSome
    ++ ", key_rotation: " ++ options.keyRotation.text
    ++ ", maintenance_interval: " ++ options.maintenanceInterval.text ++ " \x7d"

end LsmOptions

end TypedStore
