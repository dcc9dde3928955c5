import TypedStore.Redis.Glob
import TypedStore.Url

/-!
# Settings of the remote engine

The settings with their defaults, the text that describes them, in which the
password never shows, and the URL of the server that they stand for.
-/

namespace TypedStore

/-- Settings of the remote engine. -/
structure RedisOptions where
  /-- The address of the server, a host and a port. -/
  addr : String := "localhost:6379"
  username : Option String := none
  password : Option String := none
  db : Int64 := 0
  poolSize : UInt64 := 3
  /-- How often a command is tried again after its connection broke. -/
  maxRetries : UInt32 := 3
  tls : Bool := false
  tlsInsecure : Bool := false
  /-- What stands before every key. -/
  keyPrefix : String := "tidemap_"
  /-- The limit for one round trip. -/
  timeout : Duration := .ofSeconds 5
  expire : Option Duration := none
  /-- How many keys a page of a scan should look at. -/
  scanCount : UInt64 := 2048
  deriving DecidableEq

namespace RedisOptions

/-- Authenticate with a user name and a password. -/
def withCredentials (username password : String) (options : RedisOptions) : RedisOptions :=
  { options with username := some username, password := some password }

/-- Authenticate with a password only. -/
def withPassword (password : String) (options : RedisOptions) : RedisOptions :=
  { options with username := none, password := some password }

/-- The URL of the server.  A fault of the address comes before faults of the
credentials. -/
def url (options : RedisOptions) : Except ConfigFault Url := do
  let scheme := if options.tls then "rediss" else "redis"
  let url ←
    match Url.parse scheme (options.addr ++ "/" ++ toString options.db.toInt) with
    | .ok url => pure url
    | .error fault => throw (.invalidAddress options.addr fault)
  let url ←
    match options.username with
    | none => pure url
    | some username =>
      if options.password.isNone then throw .usernameWithoutPassword
      else
        match url.setUsername? username with
        | some url => pure url
        | none => throw .usernameNotPossible
  let url ←
    match options.password with
    | none => pure url
    | some password =>
      match url.setPassword? password with
      | some url => pure url
      | none => throw .passwordNotPossible
  if options.tls && options.tlsInsecure then return { url with fragment := some "insecure" }
  else return url

/-- The pattern of all keys that begin with the prefix. -/
def pattern (options : RedisOptions) : Bytes :=
  Bytes.utf8 (Glob.escape options.keyPrefix ++ "*")

/-- The expiry of a written entry in milliseconds: at least one, in a word. -/
def expireMillis (options : RedisOptions) : Option UInt64 :=
  options.expire.map fun expire => UInt64.ofNat (max expire.toMillis 1)

/-- The number of connections. -/
def connections (options : RedisOptions) : Nat :=
  max options.poolSize.toNat 1

/-- How many keys a page looks at. -/
def pageSize (options : RedisOptions) : Nat :=
  max options.scanCount.toNat 1

/-- The text of a text that may be missing. -/
def optionalText : Option String → String
  | some text => "Some(" ++ Text.quoted text ++ ")"
  | none => "None"

/-- The text of a truth value. -/
def truthText (value : Bool) : String :=
  if value then "true" else "false"

/-- The text that describes the settings. -/
def description (options : RedisOptions) : String :=
  "RedisOptions \x7b addr: " ++ Text.quoted options.addr
    ++ ", username: " ++ optionalText options.username
    ++ ", password: " ++ optionalText (options.password.map fun _ => "***")
    ++ ", db: " ++ toString options.db.toInt
    ++ ", pool_size: " ++ toString options.poolSize.toNat
    ++ ", max_retries: " ++ toString options.maxRetries.toNat
    ++ ", tls: " ++ truthText options.tls
    ++ ", tls_insecure: " ++ truthText options.tlsInsecure
    ++ ", prefix: " ++ Text.quoted options.keyPrefix
    ++ ", timeout: " ++ options.timeout.text
    ++ ", expire: " ++ (match options.expire with
      | some expire => "Some(" ++ expire.text ++ ")"
      | none => "None")
    ++ ", scan_count: " ++ toString options.scanCount.toNat ++ " \x7d"

end RedisOptions

/-- What a client takes from a URL to greet a server. -/
structure RedisGreeting where
  db : Int64
  username : Option String
  password : Option String
  deriving DecidableEq

namespace RedisGreeting

/-- The value of a query parameter, the last of its name. -/
def parameter? (name query : String) : Option String :=
  ((query.splitOn "&").reverse.find? fun item =>
      String.ofList (item.toList.takeWhile (· != '=')) == name).map fun item =>
    String.ofList ((item.toList.dropWhile (· != '=')).drop 1)

/-- The credentials and the database that a URL names.  The path must be a
database number, the credentials must be UTF-8, and only known fragments and
protocols are taken. -/
def ofUrl (url : Url) : Except StoreError RedisGreeting := do
  if !url.hasHost then throw (.backend "missing host name")
  if url.scheme == "rediss" then
    match url.fragment with
    | none => pure ()
    | some fragment =>
      if fragment != "insecure" then throw (.backend "unknown fragment")
  let path := url.path.toList.dropWhile (· == '/')
  let path := String.ofList ((path.reverse.dropWhile (· == '/')).reverse)
  let db ←
    if path.isEmpty then pure 0
    else
      match Number.readSigned? path with
      | some db => pure db
      | none => throw (.backend "invalid database number")
  let username ←
    if url.username.isEmpty then pure none
    else
      match Percent.decode? url.username with
      | some username => pure (some username)
      | none => throw (.backend "user name is not UTF-8")
  let password ←
    if url.password.isEmpty then pure none
    else
      match Percent.decode? url.password with
      | some password => pure (some password)
      | none => throw (.backend "password is not UTF-8")
  match url.query.bind (parameter? "protocol") with
  | none => pure ()
  | some protocol =>
    if !(["2", "3", "resp2", "resp3"].contains protocol) then throw (.backend "unknown protocol")
  return { db, username, password }

/-- The commands sent on every new connection, as a log shows them. -/
def commands (greeting : RedisGreeting) : List String :=
  (match greeting.password with
    | none => []
    | some password =>
      [" ".intercalate (("AUTH" :: greeting.username.toList ++ [password]).map fun word =>
        visible word)])
    ++ (if greeting.db = 0 then [] else ["SELECT " ++ toString greeting.db.toInt])
where
  /-- A word as a log shows it. -/
  visible (word : String) : String :=
    String.join ((Bytes.utf8 word).map fun byte =>
      if 32 ≤ byte ∧ byte ≤ 126 ∧ byte ≠ 92 then (Char.ofNat byte.toNat).toString
      else "\\x" ++ Bytes.hex [byte])

end RedisGreeting

end TypedStore
