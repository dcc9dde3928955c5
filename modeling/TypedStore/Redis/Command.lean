import TypedStore.Bytes
import TypedStore.Redis.Glob
import TypedStore.Tree

/-!
# Commands of a key-value server

The commands that the remote engine sends, the replies to them, and what they
do to a keyspace.  Walking through the keys with `SCAN` depends on how the
server cuts its keyspace into pages, so it is left to the server.
-/

namespace TypedStore

/-- A command. -/
inductive RedisCommand where
  | get (key : Bytes)
  | mget (keys : List Bytes)
  /-- Write a value, perhaps only under an absent key, perhaps with an expiry
  in milliseconds. -/
  | set (key value : Bytes) (onlyIfAbsent : Bool) (expireMillis : Option UInt64)
  | del (keys : List Bytes)
  | getdel (key : Bytes)
  | scan (cursor : UInt64) (pattern : Bytes) (count : Nat)
  deriving DecidableEq

/-- A reply to a command. -/
inductive RedisReply where
  | nil
  | done
  | integer (value : Nat)
  | bulk (value : Bytes)
  | values (values : List (Option Bytes))
  | page (cursor : UInt64) (keys : List Bytes)
  deriving DecidableEq

namespace RedisCommand

/-- The name of a command. -/
def name : RedisCommand → String
  | .get _ => "GET"
  | .mget _ => "MGET"
  | .set _ _ _ _ => "SET"
  | .del _ => "DEL"
  | .getdel _ => "GETDEL"
  | .scan _ _ _ => "SCAN"

/-- The words of a command. -/
def words : RedisCommand → List Bytes
  | .get key => [Bytes.utf8 "GET", key]
  | .mget keys => Bytes.utf8 "MGET" :: keys
  | .set key value onlyIfAbsent expire =>
    [Bytes.utf8 "SET", key, value]
      ++ (if onlyIfAbsent then [Bytes.utf8 "NX"] else [])
      ++ (match expire with
        | some millis => [Bytes.utf8 "PX", Bytes.utf8 (toString millis.toNat)]
        | none => [])
  | .del keys => Bytes.utf8 "DEL" :: keys
  | .getdel key => [Bytes.utf8 "GETDEL", key]
  | .scan cursor pattern count =>
    [Bytes.utf8 "SCAN", Bytes.utf8 (toString cursor.toNat), Bytes.utf8 "MATCH", pattern,
      Bytes.utf8 "COUNT", Bytes.utf8 (toString count)]

/-- Apply a command to a keyspace, given the server's way to answer a scan. -/
def apply (scan : UInt64 → Bytes → Nat → RedisReply) (keyspace : Tree) :
    RedisCommand → RedisReply × Tree
  | .get key =>
    match keyspace.get? key with
    | some value => (.bulk value, keyspace)
    | none => (.nil, keyspace)
  | .mget keys => (.values (keys.map keyspace.get?), keyspace)
  | .set key value onlyIfAbsent _ =>
    if onlyIfAbsent && (keyspace.get? key).isSome then (.nil, keyspace)
    else (.done, keyspace.insert key value)
  | .del keys =>
    let after := keys.foldl Tree.erase keyspace
    (.integer (keyspace.size - after.size), after)
  | .getdel key =>
    match keyspace.get? key with
    | some value => (.bulk value, keyspace.erase key)
    | none => (.nil, keyspace)
  | .scan cursor pattern count => (scan cursor pattern count, keyspace)

end RedisCommand

/-- Bytes as a log shows them: printable ASCII except the backslash as it is,
all else by number. -/
def visibleBytes (bytes : Bytes) : String :=
  String.join (bytes.map fun byte =>
    if 32 ≤ byte ∧ byte ≤ 126 ∧ byte ≠ 92 then (Char.ofNat byte.toNat).toString
    else "\\x" ++ Bytes.hex [byte])

/-- A command as a log shows it. -/
def RedisCommand.logText (command : RedisCommand) : String :=
  " ".intercalate (command.words.map visibleBytes)

end TypedStore
