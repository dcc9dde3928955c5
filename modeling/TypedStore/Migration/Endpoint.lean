import TypedStore.StoreConfig
import TypedStore.Toml

/-!
# Endpoints of a migration

Where entries are read from or written to, as a plan describes it, and the
configuration of the engine that this stands for.  Times are whole seconds,
and a pool size or a time of zero counts as not given.

In a plan an endpoint is a table whose `backend` entry chooses the engine;
entries that the engine does not know are ignored.  It may also be a list of
the engine's name and its settings in their order, the last ones left out.
-/

namespace TypedStore

/-- The settings of a remote endpoint. -/
structure RedisEndpoint where
  addr : String := "localhost:6379"
  username : Option String := none
  password : Option String := none
  db : Int64 := 0
  poolSize : Option UInt64 := none
  maxRetries : Option UInt32 := none
  tls : Bool := false
  keyPrefix : Option String := none
  timeoutSeconds : Option UInt64 := none
  expireSeconds : Option UInt64 := none
  deriving DecidableEq

/-- Where entries are read from or written to. -/
inductive Endpoint where
  | lsm (dir : String) (compression : Bool) (encryptionKey : Option String) (syncWrites : Bool)
  | redis (settings : RedisEndpoint)
  | sqlite (path : String) (table : Option String)
  deriving DecidableEq

/-- Why an endpoint does not give a configuration. -/
inductive EndpointFault where
  | usernameWithoutPassword
  deriving DecidableEq, Repr

/-- The wording of a fault. -/
def EndpointFault.text : EndpointFault → String
  | .usernameWithoutPassword => "redis username given without a password"

namespace RedisEndpoint

/-- A number that counts only when it is not zero. -/
def nonzero (number : Option UInt64) : Option UInt64 :=
  number.filter (· != 0)

/-- The settings of the engine. -/
def options (endpoint : RedisEndpoint) : Except EndpointFault RedisOptions := do
  let defaults : RedisOptions := {}
  let options : RedisOptions :=
    { defaults with addr := endpoint.addr, db := endpoint.db, tls := endpoint.tls }
  let options ←
    match endpoint.username, endpoint.password with
    | some username, some password => pure (options.withCredentials username password)
    | none, some password => pure (options.withPassword password)
    | some _, none => throw .usernameWithoutPassword
    | none, none => pure options
  return { options with
    poolSize := (nonzero endpoint.poolSize).getD options.poolSize
    maxRetries := endpoint.maxRetries.getD options.maxRetries
    keyPrefix := endpoint.keyPrefix.getD options.keyPrefix
    timeout := ((nonzero endpoint.timeoutSeconds).map .ofSeconds).getD options.timeout
    expire := (nonzero endpoint.expireSeconds).map .ofSeconds }

/-- The names of the settings in their order. -/
def labels : List String :=
  ["addr", "username", "password", "db", "pool_size", "max_retries", "tls", "prefix",
    "timeout_secs", "expire_secs"]

/-- Read the settings from entries. -/
def ofEntries? (entries : Toml.Entries) : Option RedisEndpoint := do
  let defaults : RedisEndpoint := {}
  return {
    addr := (← entries.read? Toml.Value.text? "addr").getD defaults.addr
    username := ← entries.read? Toml.Value.text? "username"
    password := ← entries.read? Toml.Value.text? "password"
    db := (← entries.read? Toml.Value.integer? "db").getD defaults.db
    poolSize := ← entries.read? Toml.Value.word? "pool_size"
    maxRetries := ← entries.read? Toml.Value.halfWord? "max_retries"
    tls := (← entries.read? Toml.Value.flag? "tls").getD defaults.tls
    keyPrefix := ← entries.read? Toml.Value.text? "prefix"
    timeoutSeconds := ← entries.read? Toml.Value.word? "timeout_secs"
    expireSeconds := ← entries.read? Toml.Value.word? "expire_secs" }

end RedisEndpoint

namespace Endpoint

/-- The configuration of the engine. -/
def config : Endpoint → Except EndpointFault StoreConfig
  | .lsm dir compression encryptionKey syncWrites =>
    let defaults : LsmOptions := {}
    .ok (.lsm { defaults.withDir dir with
      compression, syncWrites
      encryptionKey := encryptionKey.map Bytes.utf8 })
  | .redis endpoint => endpoint.options.map .redis
  | .sqlite path table =>
    let defaults : SqliteOptions := {}
    .ok (.sqlite { defaults with path := some path, table := table.getD defaults.table })

/-- The place in a few words. -/
def description : Endpoint → String
  | .lsm dir _ _ _ => "lsm " ++ dir
  | .redis endpoint =>
    "redis " ++ endpoint.addr ++ " (db " ++ toString endpoint.db.toInt ++ ", prefix "
      ++ endpoint.keyPrefix.getD "default" ++ ")"
  | .sqlite path _ => "sqlite " ++ path

/-- The settings of a log-structured endpoint in their order. -/
def lsmLabels : List String :=
  ["dir", "compression", "encryption_key", "sync_writes"]

/-- The settings of a table endpoint in their order. -/
def sqliteLabels : List String :=
  ["path", "table"]

/-- The names of the settings of an engine. -/
def labels? (backend : String) : Option (List String) :=
  [("lsm", lsmLabels), ("redis", RedisEndpoint.labels), ("sqlite", sqliteLabels)].lookup backend

/-- Read an endpoint of a chosen engine from entries. -/
def ofEntries? (backend : String) (entries : Toml.Entries) : Option Endpoint := do
  match backend with
  | "lsm" =>
    return .lsm (← ← entries.read? Toml.Value.text? "dir")
      ((← entries.read? Toml.Value.flag? "compression").getD false)
      (← entries.read? Toml.Value.text? "encryption_key")
      ((← entries.read? Toml.Value.flag? "sync_writes").getD false)
  | "redis" => return .redis (← RedisEndpoint.ofEntries? entries)
  | "sqlite" =>
    return .sqlite (← ← entries.read? Toml.Value.text? "path")
      (← entries.read? Toml.Value.text? "table")
  | _ => none

/-- Read an endpoint. -/
def ofToml? : Toml.Value → Option Endpoint
  | .table _ entries => do
    let backend ← Toml.Entries.get? entries "backend"
    ofEntries? (← backend.text?) entries
  | .array (.text backend :: items) => do
    let labels ← labels? backend
    if items.length ≤ labels.length then ofEntries? backend (labels.zip items) else none
  | _ => none

end Endpoint

end TypedStore
