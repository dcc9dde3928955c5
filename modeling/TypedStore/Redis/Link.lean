import TypedStore.Redis.Command

/-!
# Links to a server

A `RedisLink` carries one command over one connection to a server.  The
outcome tells how the attempt ended, not whether the server applied the
command: a connection may break before or after the command took effect.
Nothing else is assumed of a server here.
-/

namespace TypedStore

/-- How an attempt to run a command ends. -/
inductive RedisOutcome where
  | reply (reply : RedisReply)
  /-- The server answers with an error. -/
  | refused (message : String)
  /-- The connection breaks. -/
  | broken
  /-- No answer comes within the time limit. -/
  | silent
  deriving DecidableEq

/-- A way to send commands to a server of state `σ`. -/
structure RedisLink (σ : Type) where
  send : (connection : Nat) → RedisCommand → σ → RedisOutcome × σ
  /-- No walk through the keys takes more pages than this. -/
  pageBound : σ → Nat
  /-- The server holds no more entries than this. -/
  entryBound : σ → Nat

end TypedStore
