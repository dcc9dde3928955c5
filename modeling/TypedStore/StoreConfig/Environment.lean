import TypedStore.StoreConfig
import TypedStore.Text.Blank
import TypedStore.Text.Lowercase

/-!
# Configurations from variables

The engine and its settings may be given as variables of the environment in
which a program runs.  A variable that is not set leaves the setting as it is
by default.  Numbers and flags may stand between white space, and flags are
words in letters of either case; the fault reported for an unreadable
variable shows it as it was given.

Variables are read in a fixed order, and the first fault is the one reported.
-/

namespace TypedStore

/-- The variables that are set. -/
abbrev Environment := String → Option String

namespace Environment

/-- Read a variable, if it is set, by a reader of texts without surrounding
white space. -/
def parsed {α : Type} (environment : Environment) (name : String) (read? : String → Option α) :
    Except ConfigFault (Option α) :=
  match environment name with
  | none => .ok none
  | some raw =>
    match read? (Text.trim raw) with
    | some value => .ok (some value)
    | none => .error (.invalidSetting name raw)

/-- The truth value that a word stands for. -/
def flag? (word : String) : Option Bool :=
  let word := Text.lowercase word
  if ["1", "true", "yes", "on"].contains word then some true
  else if ["0", "false", "no", "off"].contains word then some false
  else none

/-- A number of milliseconds. -/
def millis? (text : String) : Option Duration :=
  (Number.readWord? text).map Duration.ofMillis

/-- Settings of the hash engine. -/
def fastHash (environment : Environment) : Except ConfigFault FastHashOptions := do
  let capacity ← environment.parsed "TIDEMAP_FAST_HASH_CAPACITY" Number.readWord?
  return { capacity := capacity.getD ({} : FastHashOptions).capacity }

/-- Settings of the log-structured engine. -/
def lsm (environment : Environment) : Except ConfigFault LsmOptions := do
  let options : LsmOptions :=
    match environment "TIDEMAP_LSM_DIR" with
    | some dir => LsmOptions.withDir dir {}
    | none => {}
  let compression ← environment.parsed "TIDEMAP_LSM_COMPRESSION" flag?
  let syncWrites ← environment.parsed "TIDEMAP_LSM_SYNC_WRITES" flag?
  let cacheCapacity ← environment.parsed "TIDEMAP_LSM_CACHE_BYTES" Number.readWord?
  return { options with
    compression := compression.getD options.compression
    syncWrites := syncWrites.getD options.syncWrites
    cacheCapacity := cacheCapacity.getD options.cacheCapacity
    encryptionKey := (environment "TIDEMAP_LSM_ENCRYPTION_KEY").map Bytes.utf8 }

/-- The credentials for the remote engine.  A user name needs a password. -/
def credentials (environment : Environment) (options : RedisOptions) :
    Except ConfigFault RedisOptions :=
  match environment "TIDEMAP_REDIS_USERNAME", environment "TIDEMAP_REDIS_PASSWORD" with
  | some username, some password => .ok (options.withCredentials username password)
  | none, some password => .ok (options.withPassword password)
  | some _, none => .error .usernameVariableAlone
  | none, none => .ok options

/-- Settings of the remote engine. -/
def redis (environment : Environment) : Except ConfigFault RedisOptions := do
  let defaults : RedisOptions := {}
  let options ←
    environment.credentials
      { defaults with addr := (environment "TIDEMAP_REDIS_ADDR").getD defaults.addr }
  let db ← environment.parsed "TIDEMAP_REDIS_DB" Number.readSigned?
  let poolSize ← environment.parsed "TIDEMAP_REDIS_POOL_SIZE" Number.readWord?
  let tls ← environment.parsed "TIDEMAP_REDIS_TLS" flag?
  let timeout ← environment.parsed "TIDEMAP_REDIS_TIMEOUT_MS" millis?
  let expire ← environment.parsed "TIDEMAP_REDIS_EXPIRE_MS" millis?
  return { options with
    db := db.getD options.db
    poolSize := poolSize.getD options.poolSize
    keyPrefix := (environment "TIDEMAP_REDIS_PREFIX").getD options.keyPrefix
    tls := tls.getD options.tls
    timeout := timeout.getD options.timeout
    expire }

/-- Settings of the table engine.  An empty path, or the name of a database in
memory, is no path. -/
def sqlite (environment : Environment) : SqliteOptions :=
  let defaults : SqliteOptions := {}
  { defaults with
    path := (environment "TIDEMAP_SQLITE_PATH").filter fun path =>
      path != ":memory:" && !path.isEmpty
    table := (environment "TIDEMAP_SQLITE_TABLE").getD defaults.table }

/-- The configuration that the variables give. -/
def config (environment : Environment) : Except ConfigFault StoreConfig :=
  let name := Text.lowercase ((environment "TIDEMAP_BACKEND").getD StoreConfig.inMemory.name)
  if ["in-memory", "memory"].contains name then .ok .inMemory
  else if ["fast-hash", "fasthash", "swiss"].contains name then
    environment.fastHash.map .fastHash
  else if name = "lsm" then environment.lsm.map .lsm
  else if name = "redis" then environment.redis.map .redis
  else if name = "sqlite" then .ok (.sqlite environment.sqlite)
  else .error (.unknownBackend name)

end Environment

end TypedStore
