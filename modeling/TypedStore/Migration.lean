import TypedStore.Migration.Settings
import TypedStore.Migration.Stats
import TypedStore.Source
import TypedStore.TypedMap

/-!
# Migrations

Copying the entries of one map into another.  All entries of the source are
read before anything is written, so the two maps may share an engine; they
work on one common state.  For each entry, in the order of the walk: the limit
is looked at, the key must pass the pattern, the value is written under the
renamed key, and on request the key is read back.  Without a target the run
is dry and writes nothing.

A key may be renamed onto another one; the later entry wins.
-/

namespace TypedStore

namespace Migration

/-- The largest time a clock can show, in nanoseconds. -/
def clockEnd : Nat := 0x8000000000000000 * 1000000000

/-- The time at which a run that starts now is ended, if it has a limit; a
time that no clock shows is refused. -/
def deadline? (settings : MigrationSettings) (started : Nat) : Option (Option Nat) :=
  match settings.timeout with
  | none => some none
  | some seconds =>
    let stop := started + seconds.toNat * 1000000000
    if stop < clockEnd then some (some stop) else none

/-- Whether the limit is reached.  The clock is read only if there is one. -/
def reached (deadline : Option Nat) (clock : Source Nat) : Bool × Source Nat :=
  match deadline with
  | none => (false, clock)
  | some stop => (decide (stop ≤ clock.current), clock.advance)

variable {σ ν : Type}

/-- Write an entry under its new key, and on request read the key back. -/
def copyEntry (target : TypedMap σ String ν) (settings : MigrationSettings) (verify : Bool)
    (entry : String × ν) (stats : MigrationStats) (state : σ) : MigrationStats × σ :=
  let newKey := settings.rename entry.1
  let state := target.store newKey entry.2 state
  let (found, state) := if verify then target.has newKey state else (true, state)
  if found then ({ stats with migrated := stats.migrated + 1 }, state)
  else ({ stats with errors := stats.errors ++ [.unreadable entry.1] }, state)

/-- Deal with one entry that has been read. -/
def step (target : Option (TypedMap σ String ν)) (settings : MigrationSettings) (verify : Bool)
    (entry : String × ν) (stats : MigrationStats) (state : σ) : MigrationStats × σ :=
  let stats := { stats with total := stats.total + 1 }
  if settings.selects entry.1 then
    match target with
    | none => ({ stats with migrated := stats.migrated + 1 }, state)
    | some target => copyEntry target settings verify entry stats state
  else ({ stats with skipped := stats.skipped + 1 }, state)

/-- Deal with entries one after another, up to the limit. -/
def copyAll (target : Option (TypedMap σ String ν)) (settings : MigrationSettings)
    (verify : Bool) (deadline : Option Nat) :
    List (String × ν) → MigrationStats → Source Nat → σ → MigrationStats × Source Nat × σ
  | [], stats, clock, state => (stats, clock, state)
  | entry :: rest, stats, clock, state =>
    match reached deadline clock with
    | (true, clock) => ({ stats with timedOut := true }, clock, state)
    | (false, clock) =>
      let (stats, state) := step target settings verify entry stats state
      copyAll target settings verify deadline rest stats clock state

/-- A span of nanoseconds. -/
def span (nanos : Nat) : Duration :=
  ⟨UInt64.ofNat (nanos / 1000000000), nanos % 1000000000, Nat.mod_lt _ (by decide)⟩

/-- Copy the entries of a map.  The clock is read at the start, before each
entry if there is a limit, and at the end. -/
def run (source : TypedMap σ String ν) (target : Option (TypedMap σ String ν))
    (settings : MigrationSettings) (verify : Bool) (clock : Source Nat) (state : σ) :
    Option (MigrationStats × Source Nat × σ) := do
  let started := clock.current
  let deadline ← deadline? settings started
  let (entries, state) := source.storage.entries state
  let (stats, clock, state) :=
    copyAll target settings verify deadline entries {} clock.advance state
  return ({ stats with elapsed := span (clock.current - started) }, clock.advance, state)

end Migration

end TypedStore
