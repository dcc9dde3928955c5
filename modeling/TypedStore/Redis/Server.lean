import TypedStore.Redis.Link
import TypedStore.Redis.Options

/-!
# A server in memory

A key-value server kept as a byte-ordered map, with what is needed to see how
a client behaves when things go wrong.  Every command is logged.  Faults wait
in a queue: the first lets some commands pass and then strikes the next one,
which is not run; the server answers with an error, or drops the connection,
or falls silent on it for good.

A scan goes through all keys in order, and through ghosts, which only scans
see.  A page covers a fixed number of places; a server may repeat the key
before a page at its end.
-/

namespace TypedStore

/-- What a fault does to the command that it strikes. -/
inductive RedisFaultKind where
  | refuse (message : String)
  | drop
  | hang
  deriving DecidableEq

/-- A fault and the number of commands that pass before it. -/
structure RedisFault where
  after : Nat
  kind : RedisFaultKind
  deriving DecidableEq

/-- A server in memory. -/
structure RedisServer where
  keyspace : Tree := .empty
  /-- Keys that scans list although they are absent. -/
  ghosts : Tree := .empty
  faults : List RedisFault := []
  /-- Connections on which the server is silent, by client and place. -/
  hung : List (Nat × Nat) := []
  /-- Whether a page repeats the key before it. -/
  repeats : Bool := false
  /-- Whether new connections are answered. -/
  answers : Bool := true
  /-- The commands seen, the latest first. -/
  log : List String := []

namespace RedisServer

/-- All keys that a scan goes through, in order. -/
def scanned (server : RedisServer) : List Bytes :=
  (server.keyspace.entries.foldl (fun keys (key, _) => keys.insert key [])
    server.ghosts).entries.map Prod.fst

/-- The page of a scan at a cursor. -/
def scan (server : RedisServer) (cursor : UInt64) (pattern : Bytes) (count : Nat) : RedisReply :=
  let keys := server.scanned
  let start := cursor.toNat
  let page := (keys.drop start).take count
  let repeated := if server.repeats && 0 < start then (keys[start - 1]?).toList else []
  let next := if start + count < keys.length then start + count else 0
  .page (UInt64.ofNat next) ((page ++ repeated).filter (Glob.isMatch pattern))

/-- Note a command in the log. -/
def note (server : RedisServer) (text : String) : RedisServer :=
  { server with log := text :: server.log }

/-- The fault that strikes the next command, if one does, and the queue after
that command. -/
def nextFault (faults : List RedisFault) : Option RedisFaultKind × List RedisFault :=
  match faults with
  | [] => (none, [])
  | fault :: rest =>
    match fault.after with
    | 0 => (some fault.kind, rest)
    | after + 1 => (none, { fault with after } :: rest)

/-- Run a command without faults. -/
def run (server : RedisServer) (command : RedisCommand) : RedisReply × RedisServer :=
  let (reply, keyspace) := command.apply server.scan server.keyspace
  (reply, { server with keyspace })

/-- Note the commands of a new connection. -/
def greet (server : RedisServer) (greeting : RedisGreeting) : RedisServer :=
  greeting.commands.foldl note server

/-- A command that arrives over a connection of a client.  A dropped
connection is made anew at once. -/
def receive (greeting : RedisGreeting) (client connection : Nat) (command : RedisCommand)
    (server : RedisServer) : RedisOutcome × RedisServer :=
  if server.hung.contains (client, connection) then (.silent, server)
  else
    let (fault, faults) := nextFault server.faults
    let server := { server with faults }.note command.logText
    match fault with
    | none =>
      let (reply, server) := server.run command
      (.reply reply, server)
    | some (.refuse message) => (.refused message, server)
    | some .drop => (.broken, server.greet greeting)
    | some .hang => (.silent, { server with hung := (client, connection) :: server.hung })

/-- The link of a client to a server in memory. -/
def link (greeting : RedisGreeting) (client : Nat) : RedisLink RedisServer where
  send := receive greeting client
  pageBound server := server.scanned.length + 1
  entryBound server := server.keyspace.size

/-- Connect a client: one greeting for each connection of its pool.  A server
that does not answer runs into the time limit. -/
def connect (options : RedisOptions) (server : RedisServer) :
    Except StoreError RedisGreeting × RedisServer :=
  match options.url with
  | .error fault => (.error (.config fault), server)
  | .ok url =>
    match RedisGreeting.ofUrl url with
    | .error error => (.error error, server)
    | .ok greeting =>
      if server.answers then
        (.ok greeting,
          (List.range options.connections).foldl (fun server _ => server.greet greeting) server)
      else (.error (.timeout (.connecting options.addr)), server)

/-- The entries as a dump shows them. -/
def dump (server : RedisServer) : List (String × Bytes) :=
  server.keyspace.entries.map fun (key, value) => (visibleBytes key, value)

end RedisServer

end TypedStore
