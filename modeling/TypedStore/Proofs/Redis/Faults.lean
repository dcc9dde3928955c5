import TypedStore.Proofs.Redis.Walks

/-!
# Servers whose connections fail

What becomes of an attempt to run a command is decided by a list of fates, one
for each attempt to come.  A connection may break after the command took effect
or before it; a handle cannot tell the two apart, and tries again in both.  The
server keeps the list of attempts made, so that a statement can say which of
them took effect unnoticed.

How scans are answered is left open: `paging` may give any pages at all, also
such that depend on the attempts made.  `withinBudget` says that a handle with
some budget of retries gets every command answered; `executeWithin_settles` is
the law of one command on such a server, and the operations build on it alone.
-/

namespace TypedStore

/-- What becomes of an attempt. -/
inductive AttemptFate where
  | answered
  /-- The connection breaks, after the command took effect or before. -/
  | lost (applied : Bool)
  /-- The server answers with an error and does nothing. -/
  | refused (message : String)
  /-- The server does nothing, and no answer comes. -/
  | silent
  deriving DecidableEq

namespace AttemptFate

/-- Whether the command takes effect. -/
def applies : AttemptFate → Bool
  | .answered => true
  | .lost applied => applied
  | .refused _ => false
  | .silent => false

/-- What the handle sees. -/
def outcome (reply : RedisReply) : AttemptFate → RedisOutcome
  | .answered => .reply reply
  | .lost _ => .broken
  | .refused message => .refused message
  | .silent => .silent

/-- Whether at most `budget` connections break in a row and nothing else goes
wrong; `left` of them may break before the next answer. -/
def withinBudget (budget : Nat) : (left : Nat) → List AttemptFate → Bool
  | _, [] => true
  | _, .answered :: rest => withinBudget budget budget rest
  | left + 1, .lost _ :: rest => withinBudget budget left rest
  | _, _ => false

end AttemptFate

/-- A server whose attempts have fates; when they are used up, every attempt is
answered. -/
structure FaultyServer where
  keyspace : Tree
  fates : List AttemptFate := []
  /-- The attempts made, the latest first. -/
  attempts : List (RedisCommand × AttemptFate) := []

/-- A way to cut a keyspace into pages. -/
structure Paging where
  /-- The next cursor and the keys of a page. -/
  page : FaultyServer → (cursor : UInt64) → (pattern : Bytes) → (count : Nat) →
    UInt64 × List Bytes
  pageBound : FaultyServer → Nat
  entryBound : FaultyServer → Nat

namespace FaultyServer

/-- The answer to a scan. -/
def scan (paging : Paging) (server : FaultyServer) (cursor : UInt64) (pattern : Bytes)
    (count : Nat) : RedisReply :=
  let (next, keys) := paging.page server cursor pattern count
  .page next keys

/-- An attempt to run a command. -/
def receive (paging : Paging) (command : RedisCommand) (server : FaultyServer) :
    RedisOutcome × FaultyServer :=
  let fate := server.fates.headD .answered
  let (reply, after) := command.apply (scan paging server) server.keyspace
  (fate.outcome reply,
    { keyspace := if fate.applies then after else server.keyspace
      fates := server.fates.tail
      attempts := (command, fate) :: server.attempts })

/-- The link to a server. -/
def link (paging : Paging) : RedisLink FaultyServer where
  send _ := receive paging
  pageBound := paging.pageBound
  entryBound := paging.entryBound

end FaultyServer

/-! ## What commands do to a keyspace -/

namespace RedisCommand

/-- The keyspace after a command. -/
def effect (command : RedisCommand) (keyspace : Tree) : Tree :=
  (command.apply noScan keyspace).2

/-- Scans change nothing, however they are answered. -/
theorem apply_snd (command : RedisCommand) (scan : UInt64 → Bytes → Nat → RedisReply)
    (keyspace : Tree) : (command.apply scan keyspace).2 = command.effect keyspace := by
  cases command <;> rfl

theorem effect_get (key : Bytes) (keyspace : Tree) : (get key).effect keyspace = keyspace := by
  rw [effect, apply]
  cases keyspace.get? key <;> rfl

theorem effect_set (key value : Bytes) (onlyIfAbsent : Bool) (expireMillis : Option UInt64)
    (keyspace : Tree) :
    (set key value onlyIfAbsent expireMillis).effect keyspace =
      if onlyIfAbsent && (keyspace.get? key).isSome then keyspace
      else keyspace.insert key value := by
  rw [effect, apply]
  split <;> rfl

theorem effect_del (keys : List Bytes) (keyspace : Tree) :
    (del keys).effect keyspace = keys.foldl Tree.erase keyspace := rfl

theorem effect_getdel (key : Bytes) (keyspace : Tree) :
    (getdel key).effect keyspace = keyspace.erase key := by
  rw [effect, apply]
  cases found : keyspace.get? key with
  | some value => rfl
  | none => exact (Tree.erase_of_absent found).symm

/-- A command that takes effect twice does what it does once. -/
theorem effect_effect (command : RedisCommand) (keyspace : Tree) :
    command.effect (command.effect keyspace) = command.effect keyspace := by
  cases command with
  | get key => rw [effect_get, effect_get]
  | mget keys => rfl
  | scan cursor pattern count => rfl
  | getdel key =>
    rw [effect_getdel, effect_getdel]
    apply Tree.eq_of_get?
    intro wanted
    rw [Tree.get?_erase, Tree.get?_erase]
    split <;> rfl
  | del keys =>
    rw [effect_del, effect_del]
    apply Tree.eq_of_get?
    intro wanted
    rw [Tree.get?_foldl_erase, Tree.get?_foldl_erase]
    split <;> rfl
  | set key value onlyIfAbsent expireMillis =>
    rw [effect_set, effect_set]
    by_cases refused : (onlyIfAbsent && (keyspace.get? key).isSome) = true
    · rw [if_pos refused, if_pos refused]
    · rw [if_neg refused]
      split
      · rfl
      · apply Tree.eq_of_get?
        intro wanted
        rw [Tree.get?_insert, Tree.get?_insert]
        split <;> rfl

end RedisCommand

namespace Redis

/-- The handle is the same but for its turns, and has made these attempts on a
server that will go on answering within the budget. -/
structure Spends (before after : State FaultyServer) (made : List (RedisCommand × AttemptFate)) :
    Prop where
  options : after.1.options = before.1.options
  closed : after.1.closed = before.1.closed
  attempts : after.2.attempts = made ++ before.2.attempts
  withinBudget : AttemptFate.withinBudget after.1.options.maxRetries.toNat
    after.1.options.maxRetries.toNat after.2.fates = true

variable {before after : State FaultyServer} {made : List (RedisCommand × AttemptFate)}

theorem Spends.trans {last : State FaultyServer} {more : List (RedisCommand × AttemptFate)}
    (later : Spends after last more) (earlier : Spends before after made) :
    Spends before last (more ++ made) where
  options := later.options.trans earlier.options
  closed := later.closed.trans earlier.closed
  attempts := by rw [later.attempts, earlier.attempts, List.append_assoc]
  withinBudget := later.withinBudget

theorem withinBudget_of_answered {budget left : Nat} {fates : List AttemptFate}
    (within : AttemptFate.withinBudget budget left fates = true)
    (answered : fates.headD .answered = .answered) :
    AttemptFate.withinBudget budget budget fates.tail = true := by
  cases fates with
  | nil => rfl
  | cons fate rest =>
    cases answered
    rw [AttemptFate.withinBudget] at within
    exact within

/-- An attempt that is not answered uses up one retry. -/
theorem exists_lost {budget left : Nat} {fates : List AttemptFate}
    (within : AttemptFate.withinBudget budget left fates = true)
    (unanswered : fates.headD .answered ≠ .answered) :
    ∃ applied fewer, fates.headD .answered = .lost applied ∧ left = fewer + 1 ∧
      AttemptFate.withinBudget budget fewer fates.tail = true := by
  rcases fates with _ | ⟨fate, rest⟩
  · exact absurd rfl unanswered
  · cases fate with
    | answered => exact absurd rfl unanswered
    | refused message => cases left <;> cases within
    | silent => cases left <;> cases within
    | lost applied =>
      cases left with
      | zero => cases within
      | succ fewer => exact ⟨applied, fewer, rfl, rfl, within⟩

/-- The state after an attempt whose fate is known. -/
def tried (command : RedisCommand) (fate : AttemptFate) (state : State FaultyServer) :
    State FaultyServer :=
  ({ state.1 with turns := state.1.turns + 1 },
    { keyspace := if fate.applies then command.effect state.2.keyspace else state.2.keyspace
      fates := state.2.fates.tail
      attempts := (command, fate) :: state.2.attempts })

theorem attempt_eq (paging : Paging) (command : RedisCommand) {state : State FaultyServer}
    {fate : AttemptFate}
    (decided : state.2.fates.headD .answered = fate) :
    attempt (FaultyServer.link paging) command state =
      (fate.outcome (command.apply (FaultyServer.scan paging state.2) state.2.keyspace).1,
        tried command fate state) := by
  rw [tried, ← command.apply_snd (FaultyServer.scan paging state.2)]
  simp only [attempt, FaultyServer.link, FaultyServer.receive, decided]

theorem executeWithin_of_broken {σ : Type} {link : RedisLink σ} {command : RedisCommand}
    {state after : State σ} (broken : attempt link command state = (.broken, after))
    (retries : Nat) :
    executeWithin link command (retries + 1) state = executeWithin link command retries after := by
  rw [executeWithin, broken]

/-- The keyspace as earlier attempts at a command left it. -/
def leftBy (command : RedisCommand) (lost : List (RedisCommand × AttemptFate)) (keyspace : Tree) :
    Tree :=
  if (command, .lost true) ∈ lost then command.effect keyspace else keyspace

theorem leftBy_append_lost (command : RedisCommand) (lost : List (RedisCommand × AttemptFate))
    (applied : Bool) (state : State FaultyServer) :
    leftBy command (lost ++ [(command, .lost applied)]) state.2.keyspace =
      leftBy command lost (tried command (.lost applied) state).2.keyspace := by
  cases applied with
  | false =>
    have other : (command, AttemptFate.lost true) ∉ [(command, AttemptFate.lost false)] := by simp
    simp only [leftBy, List.mem_append, or_iff_left other]
    rfl
  | true =>
    have settled : command.effect (command.effect state.2.keyspace) =
        command.effect state.2.keyspace := command.effect_effect state.2.keyspace
    have kept : (tried command (.lost true) state).2.keyspace =
        command.effect state.2.keyspace := rfl
    rw [leftBy, if_pos (by simp), leftBy, kept, settled, ite_self]

theorem effect_tried_lost (command : RedisCommand) (applied : Bool) (state : State FaultyServer) :
    command.effect (tried command (.lost applied) state).2.keyspace =
      command.effect state.2.keyspace := by
  cases applied with
  | false => rfl
  | true => exact command.effect_effect state.2.keyspace

/-- How a command within its budget ends: all its attempts but the last are lost, and the
last one is answered on the server that they have left.  The command has taken effect once. -/
structure Settles (paging : Paging) (command : RedisCommand) (retries : Nat)
    (state after : State FaultyServer) (reply : RedisReply)
    (lost : List (RedisCommand × AttemptFate)) : Prop where
  spends : Spends state after ((command, .answered) :: lost)
  broken : ∀ attempt ∈ lost, ∃ applied, attempt = (command, .lost applied)
  count : lost.length ≤ retries
  keyspace : after.2.keyspace = command.effect state.2.keyspace
  reply : ∃ server : FaultyServer, server.keyspace = leftBy command lost state.2.keyspace ∧
    server.attempts = lost ++ state.2.attempts ∧
    reply = (command.apply (FaultyServer.scan paging server) server.keyspace).1

theorem Settles.answered (paging : Paging) (command : RedisCommand) (retries : Nat) {left : Nat}
    {state : State FaultyServer}
    (within : AttemptFate.withinBudget state.1.options.maxRetries.toNat left state.2.fates = true)
    (answered : state.2.fates.headD .answered = .answered) :
    Settles paging command retries state (tried command .answered state)
      (command.apply (FaultyServer.scan paging state.2) state.2.keyspace).1 [] where
  spends := ⟨rfl, rfl, rfl, withinBudget_of_answered within answered⟩
  broken := by simp
  count := Nat.zero_le retries
  keyspace := rfl
  reply := ⟨state.2, by simp [leftBy], rfl, rfl⟩

/-- An attempt that is lost is followed by others. -/
theorem Settles.again {paging : Paging} {command : RedisCommand} {applied : Bool} {fewer : Nat}
    {state after : State FaultyServer} {reply : RedisReply}
    {lost : List (RedisCommand × AttemptFate)}
    (later : Settles paging command fewer (tried command (.lost applied) state) after reply lost) :
    Settles paging command (fewer + 1) state after reply
      (lost ++ [(command, .lost applied)]) where
  spends := by
    refine ⟨later.spends.options, later.spends.closed, ?_, later.spends.withinBudget⟩
    rw [later.spends.attempts, List.cons_append, List.cons_append, List.append_assoc]
    rfl
  broken := by
    intro attempt member
    rcases List.mem_append.mp member with more | first
    · exact later.broken attempt more
    · exact ⟨applied, List.mem_singleton.mp first⟩
  count := by
    rw [List.length_append, List.length_singleton]
    exact Nat.add_le_add_right later.count 1
  keyspace := later.keyspace.trans (effect_tried_lost command applied state)
  reply := by
    rcases later.reply with ⟨server, keyspace, attempts, answered⟩
    refine ⟨server, ?_, ?_, answered⟩
    · rw [keyspace, leftBy_append_lost]
    · rw [attempts, List.append_assoc]
      rfl

/-- Within its budget a command is tried until it is answered. -/
theorem executeWithin_settles (paging : Paging) (command : RedisCommand) (retries : Nat)
    {state : State FaultyServer}
    (within : AttemptFate.withinBudget state.1.options.maxRetries.toNat retries state.2.fates =
      true) :
    ∃ reply after lost,
      executeWithin (FaultyServer.link paging) command retries state = (.ok reply, after) ∧
      Settles paging command retries state after reply lost := by
  induction retries using Nat.strongRecOn generalizing state with
  | ind retries hypothesis =>
    by_cases answered : state.2.fates.headD .answered = .answered
    · exact ⟨_, _, [], executeWithin_of_reply (attempt_eq paging command answered),
        .answered paging command retries within answered⟩
    · rcases exists_lost within answered with ⟨applied, fewer, lost, rfl, later⟩
      have still : AttemptFate.withinBudget
          (tried command (.lost applied) state).1.options.maxRetries.toNat fewer
          (tried command (.lost applied) state).2.fates = true := later
      rcases hypothesis fewer (Nat.lt_succ_self fewer) still with
        ⟨reply, after, more, executed, settles⟩
      rw [executeWithin_of_broken (attempt_eq paging command lost), executed]
      exact ⟨reply, after, _, rfl, settles.again⟩

/-- The answer is that of the command on a keyspace on which it has already taken effect,
if an earlier attempt was lost after it did. -/
theorem executeWithin_answered (paging : Paging) (command : RedisCommand) (retries : Nat)
    {state : State FaultyServer}
    (within : AttemptFate.withinBudget state.1.options.maxRetries.toNat retries state.2.fates =
      true) :
    ∃ made after server, Spends state after made ∧
      (∀ attempt ∈ made, attempt.1 = command) ∧ made.length ≤ retries + 1 ∧
      after.2.keyspace = command.effect state.2.keyspace ∧
      executeWithin (FaultyServer.link paging) command retries state =
        (.ok (command.apply (FaultyServer.scan paging server) (if (command, .lost true) ∈ made
          then command.effect state.2.keyspace else state.2.keyspace)).1, after) := by
  rcases executeWithin_settles paging command retries within with
    ⟨reply, after, lost, executed, settles⟩
  rcases settles.reply with ⟨server, keyspace, _, answered⟩
  refine ⟨_, after, server, settles.spends, ?_, ?_, settles.keyspace, ?_⟩
  · intro attempt member
    rcases List.mem_cons.mp member with rfl | earlier
    · rfl
    · rcases settles.broken attempt earlier with ⟨applied, rfl⟩
      rfl
  · rw [List.length_cons]
    exact Nat.add_le_add_right settles.count 1
  · have other : (command, AttemptFate.lost true) ≠ (command, .answered) := by simp
    rw [executed, answered, keyspace, leftBy]
    simp only [List.mem_cons, other, false_or]

/-- A handle that has just had an answer gets the next one. -/
theorem execute_answered (paging : Paging) (command : RedisCommand) {state : State FaultyServer}
    (within : AttemptFate.withinBudget state.1.options.maxRetries.toNat
      state.1.options.maxRetries.toNat state.2.fates = true) :
    ∃ made after server, Spends state after made ∧
      (∀ attempt ∈ made, attempt.1 = command) ∧
      made.length ≤ state.1.options.maxRetries.toNat + 1 ∧
      after.2.keyspace = command.effect state.2.keyspace ∧
      execute (FaultyServer.link paging) command state =
        (.ok (command.apply (FaultyServer.scan paging server) (if (command, .lost true) ∈ made
          then command.effect state.2.keyspace else state.2.keyspace)).1, after) :=
  executeWithin_answered paging command _ within

end Redis
end TypedStore
