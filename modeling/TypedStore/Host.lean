import TypedStore.Host.Disk
import TypedStore.Memory
import TypedStore.Redis
import TypedStore.Redis.Server
import TypedStore.Storage.Combine
import TypedStore.StoreConfig

/-!
# Hosts

A `Host` is where engines run: it has a disk, servers that can be reached, a
clock, supplies of nonces and data keys, and the handles that are open, each
under a number.  A configuration is opened into a handle, and storages are
had from the number of a handle: `bytes` for what an engine keeps, `typed` for
values of a schema.  Typed storages over byte engines name the registry that
they use, so several may share one.
-/

namespace TypedStore

/-- An open handle of any engine. -/
inductive Engine where
  /-- Values in memory, kept as they are. -/
  | values (memory : Memory Datum Datum)
  /-- Byte strings in memory. -/
  | memory (memory : Memory Datum Bytes)
  /-- The log-structured engine, and the time at which it was opened. -/
  | lsm (options : LsmOptions) (openedAt : Nat) (handle : Lsm)
  /-- A table in a file, or one of its own. -/
  | sqlite (options : SqliteOptions) (own : SqlTable) (handle : Sqlite)
  | redis (greeting : RedisGreeting) (client : Nat) (handle : Redis)

/-- Why a configuration was not opened. -/
inductive OpenFault where
  | refused (error : StoreError)
  /-- The room to reserve cannot be counted; a program does not survive
  this. -/
  | roomUncountable
  deriving DecidableEq

/-- Where engines run. -/
structure Host where
  disk : Disk := {}
  servers : Listing String RedisServer := .empty
  engines : Listing Nat Engine := .empty
  registries : Listing Nat Registry := .empty
  /-- How many clients have connected to servers. -/
  clients : Nat := 0
  /-- Nanoseconds since a fixed time. -/
  now : Nat
  nonces : Source Nonce
  dataKeys : Source DataKey

namespace Host

/-- Keep a handle under a number. -/
def put (host : Host) (slot : Nat) (engine : Engine) : Host :=
  { host with engines := host.engines.insert slot engine }

/-- The registry of a number. -/
def registry (host : Host) (number : Nat) : Registry :=
  (host.registries.get? number).getD .empty

/-- Change the registry of a number. -/
def putRegistry (host : Host) (number : Nat) (registry : Registry) : Host :=
  { host with registries := host.registries.insert number registry }

/-- The seconds that the clock shows. -/
def seconds (host : Host) : UInt64 :=
  UInt64.ofNat (host.now / 1000000000)

/-- The server at an address; where there is none, nothing answers. -/
def server (host : Host) (address : String) : RedisServer :=
  (host.servers.get? address).getD { answers := false }

/-- Change the server at an address. -/
def putServer (host : Host) (address : String) (server : RedisServer) : Host :=
  { host with servers := host.servers.insert address server }

/-- Supplies for a new vault, and the host with what is left of its own. -/
def supply (host : Host) : Surroundings × Host :=
  let (nonces, laterNonces) := host.nonces.split
  let (dataKeys, laterKeys) := host.dataKeys.split
  (⟨.constant host.seconds, nonces, dataKeys⟩,
    { host with nonces := laterNonces, dataKeys := laterKeys })

/-- Give a directory back when its handle goes; temporary ones vanish. -/
def release (options : LsmOptions) (image : Lsm.Image) (host : Host) : Host :=
  match options.dir with
  | none => host
  | some dir =>
    let disk :=
      if options.temporary then host.disk.erase dir
      else host.disk.put dir (.directory image false)
    { host with disk }

/-- Open the log-structured engine. -/
def openLsm (aead : Aead) (slot : Nat) (options : LsmOptions) (host : Host) :
    Except OpenFault Unit × Host :=
  match Lsm.checkKey options with
  | .error error => (.error (.refused error), host)
  | .ok () =>
    let image :=
      match options.dir with
      | some dir => host.disk.openDirectory dir options.compression
      | none => .ok { compression := options.compression }
    match image with
    | .error error => (.error (.refused error), host)
    | .ok image =>
      let (outside, host) := host.supply
      match Lsm.open? aead options image outside with
      | .error error => (.error (.refused error), host.release options image)
      | .ok handle =>
        let disk :=
          match options.dir with
          | some dir => host.disk.put dir (.directory image true)
          | none => host.disk
        (.ok (), { host with disk }.put slot (.lsm options host.now handle))

/-- Open the table engine.  The settings are checked before the file is
made. -/
def openSqlite (slot : Nat) (options : SqliteOptions) (host : Host) :
    Except OpenFault Unit × Host :=
  match options.check with
  | .error fault => (.error (.refused (.config fault)), host)
  | .ok () =>
    let disk :=
      match options.path with
      | some path => host.disk.openFile path
      | none => .ok host.disk
    match disk with
    | .error error => (.error (.refused error), host)
    | .ok disk =>
      let host := { host with disk }
      match Sqlite.open? options (.constant host.now) with
      | .error error => (.error (.refused error), host)
      | .ok handle => (.ok (), host.put slot (.sqlite options .empty handle))

/-- Connect the remote engine. -/
def openRedis (slot : Nat) (options : RedisOptions) (host : Host) :
    Except OpenFault Unit × Host :=
  let (greeting, server) := RedisServer.connect options (host.server options.addr)
  match greeting with
  | .error error => (.error (.refused error), host)
  | .ok greeting =>
    let host := { host with clients := host.clients + 1 }.putServer options.addr server
    (.ok (), host.put slot (.redis greeting host.clients (Redis.connected options)))

/-- Open a configuration into a handle of the given number. -/
def openConfig (aead : Aead) (slot : Nat) (config : StoreConfig) (host : Host) :
    Except OpenFault Unit × Host :=
  match config with
  | .inMemory => (.ok (), host.put slot (.values .empty))
  | .fastHash options =>
    if options.isReservable then (.ok (), host.put slot (.memory .empty))
    else (.error .roomUncountable, host)
  | .lsm options => host.openLsm aead slot options
  | .sqlite options => host.openSqlite slot options
  | .redis options => host.openRedis slot options

/-- Let a handle go. -/
def drop (slot : Nat) (host : Host) : Host :=
  let remaining := { host with engines := host.engines.erase slot }
  match host.engines.get? slot with
  | some (.lsm options _ handle) =>
    if handle.closed then remaining else remaining.release options handle.image
  | _ => remaining

/-- The table that a handle works on. -/
def table (options : SqliteOptions) (own : SqlTable) (host : Host) : SqlTable :=
  match options.path with
  | some path => host.disk.table path options.table
  | none => own

/-- Change the table that a handle works on. -/
def putTable (slot : Nat) (options : SqliteOptions) (table : SqlTable) (handle : Sqlite)
    (host : Host) : Host :=
  match options.path with
  | some path =>
    { host with disk := host.disk.putTable path options.table table }.put slot
      (.sqlite options .empty handle)
  | none => host.put slot (.sqlite options table handle)

variable (aead : Aead) (codec : KeyCodec Datum)

/-- The log-structured engine of a handle; closing it gives the directory
back. -/
def lsmStorage (slot : Nat) (options : LsmOptions) (openedAt : Nat) (handle : Lsm) :
    Storage Host Datum Bytes :=
  { (Lsm.storage aead codec).within (fun _ => handle)
      (fun host handle => host.put slot (.lsm options openedAt handle)) with
    close := fun host =>
      match handle.close with
      | (.ok (), closed) =>
        (.ok (), (host.put slot (.lsm options openedAt closed)).release options handle.image)
      | (.error error, closed) => (.error error, host.put slot (.lsm options openedAt closed)) }

/-- The byte strings that the handle of a number keeps. -/
def bytes (slot : Nat) : Storage Host Datum Bytes :=
  .choose fun host =>
    match host.engines.get? slot with
    | some (.memory memory) =>
      Memory.storage.within (fun _ => memory) fun host memory => host.put slot (.memory memory)
    | some (.lsm options openedAt handle) => lsmStorage aead codec slot options openedAt handle
    | some (.sqlite options own handle) =>
      (Sqlite.storage codec).within (fun host => (host.table options own, handle))
        fun host (table, handle) => host.putTable slot options table handle
    | some (.redis greeting client handle) =>
      let address := handle.options.addr
      (Redis.storage (RedisServer.link greeting client) codec).within
        (fun host => (handle, host.server address))
        fun host (handle, server) =>
          (host.putServer address server).put slot (.redis greeting client handle)
    | _ => .vacant

/-- Values of a schema in the handle of a number, by a registry. -/
def typed (slot registry : Nat) (schema : Schema) : Storage Host Datum Datum :=
  .choose fun host =>
    match host.engines.get? slot with
    | some (.values memory) =>
      Memory.storage.within (fun _ => memory) fun host memory => host.put slot (.values memory)
    | _ =>
      (Adapter.storage schema.valueCodec (bytes aead codec slot)).within
        (fun host => (host.registry registry, host))
        fun _ (used, host) => host.putRegistry registry used

/-- Rounds of maintenance of a handle. -/
def maintainTimes : (rounds : Nat) → Lsm → Lsm
  | 0, handle => handle
  | rounds + 1, handle => maintainTimes rounds (handle.maintain aead)

/-- Show a vault another time. -/
def setClock (seconds : UInt64) (handle : Lsm) : Lsm :=
  match handle.protection with
  | .plain _ => handle
  | .sealed vault =>
    { handle with
      protection :=
        .sealed { vault with outside := { vault.outside with clock := .constant seconds } } }

/-- The rounds of maintenance that are due between two times: one at the end
of each period since the opening. -/
def roundsDue (options : LsmOptions) (openedAt before after : Nat) : Nat :=
  let period := options.maintenancePeriod.toNanos
  (after - openedAt) / period - (before - openedAt) / period

/-- Let time pass: clocks go on, and maintenance is done when it is due. -/
def elapse (nanos : Nat) (host : Host) : Host :=
  let before := host.now
  let host := { host with now := before + nanos }
  host.engines.entries.foldl (fun host (slot, engine) =>
    match engine with
    | .lsm options openedAt handle =>
      let rounds := roundsDue options openedAt before host.now
      host.put slot
        (.lsm options openedAt (maintainTimes aead rounds (setClock host.seconds handle)))
    | .sqlite options own handle =>
      host.put slot (.sqlite options own { handle with clock := .constant host.now })
    | _ => host) host

end Host

end TypedStore
