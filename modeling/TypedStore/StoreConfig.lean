import TypedStore.Lsm.Options
import TypedStore.Memory.Options
import TypedStore.Redis.Options
import TypedStore.Sqlite.Options

/-!
# Configurations

A `StoreConfig` picks an engine and carries its settings; `available` names
the engines there are.
-/

namespace TypedStore

/-- An engine and its settings. -/
inductive StoreConfig where
  | inMemory
  | fastHash (options : FastHashOptions)
  | lsm (options : LsmOptions)
  | redis (options : RedisOptions)
  | sqlite (options : SqliteOptions)
  deriving DecidableEq

namespace StoreConfig

/-- The engine that is used when none is chosen. -/
instance : Inhabited StoreConfig := ⟨.inMemory⟩

/-- The name of the chosen engine. -/
def name : StoreConfig → String
  | .inMemory => "in-memory"
  | .fastHash _ => "fast-hash"
  | .lsm _ => "lsm"
  | .redis _ => "redis"
  | .sqlite _ => "sqlite"

/-- One configuration of each engine, with settings by default. -/
def defaults : List StoreConfig :=
  [.inMemory, .fastHash {}, .lsm {}, .redis {}, .sqlite {}]

/-- The names of all engines. -/
def available : List String :=
  defaults.map name

/-- The text that describes a configuration. -/
def description : StoreConfig → String
  | .inMemory => "InMemory"
  | .fastHash options => options.description
  | .lsm options => options.description
  | .redis options => options.description
  | .sqlite options => options.description

end StoreConfig

end TypedStore
