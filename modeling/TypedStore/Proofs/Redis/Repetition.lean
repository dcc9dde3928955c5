import TypedStore.Proofs.Redis.Attempts
import TypedStore.Proofs.Redis.Retries
import TypedStore.Proofs.Storage.Calls

/-!
# Calls that may be repeated

Two runs of the same calls are followed side by side: one on a server whose
connections break, within the budget of the handle, and one on the same server
when nothing goes wrong.  They stay in step (`InStep`): after every command the
keyspaces are the same, and what the second run asked once, the first one asked
until an answer came (`Repeats`).

The replies are the same too, except that a removal counts the keys it removes,
and counts none when an earlier attempt has removed them.  No call looks at that
count.  Inserting under an absent key and taking an entry out do look at what
the command found, so they are left out.

A scan must be answered alike in both runs.  Pages may depend on everything that
clients know of, but not on attempts that were lost.
-/

namespace TypedStore

/-- Whether a call may be repeated: all calls but inserting under an absent key and
taking an entry out. -/
def StorageCall.isRepeatable {κ ν : Type} : StorageCall κ ν → Bool
  | .storeIfAbsent _ _ => false
  | .next => false
  | _ => true

/-- Whether the reply to a command is the same after the command has taken effect. -/
def RedisCommand.isStable : RedisCommand → Bool
  | .set _ _ onlyIfAbsent _ => !onlyIfAbsent
  | command => command.isRead

/-- The commands that were answered, the latest first. -/
def FaultyServer.answered (server : FaultyServer) : List RedisCommand :=
  (server.attempts.filter fun attempt => attempt.2 == .answered).map Prod.fst

/-- Two servers with the same entries that have answered the same commands. -/
structure FaultyServer.Alike (first second : FaultyServer) : Prop where
  keyspace : first.keyspace = second.keyspace
  answered : first.answered = second.answered

/-- Scans do not depend on attempts that were lost. -/
structure Paging.Reproducible (paging : Paging) : Prop where
  page : ∀ {first second : FaultyServer}, first.Alike second →
    paging.page first = paging.page second
  pageBound : ∀ {first second : FaultyServer}, first.Alike second →
    paging.pageBound first = paging.pageBound second

namespace Redis

variable {κ : Type} {paging : Paging} {budget : Nat} {command : RedisCommand}
  {earlier : List (RedisCommand × AttemptFate)} {origin faulty calm state : State FaultyServer}

/-- The attempts of two runs that began after the attempts `earlier`: every command of the
second run was answered at once, and in the first one after at most `budget` lost attempts. -/
inductive Repeats (budget : Nat) (earlier : List (RedisCommand × AttemptFate)) :
    (faulty calm : List (RedisCommand × AttemptFate)) → Prop where
  | start : Repeats budget earlier earlier earlier
  | command {faulty calm lost : List (RedisCommand × AttemptFate)} {command : RedisCommand}
      (before : Repeats budget earlier faulty calm)
      (broken : ∀ attempt ∈ lost, ∃ applied, attempt = (command, .lost applied))
      (count : lost.length ≤ budget) :
      Repeats budget earlier ((command, .answered) :: (lost ++ faulty))
        ((command, .answered) :: calm)

/-- Two handles on servers with the same entries, both on their way from one state.
Connections to the first server break, within the budget, and to the second one they do
not. -/
structure InStep (origin faulty calm : State FaultyServer) : Prop where
  kept : calm.1.options = origin.1.options
  options : faulty.1.options = calm.1.options
  closed : faulty.1.closed = calm.1.closed
  keyspace : faulty.2.keyspace = calm.2.keyspace
  repeats : Repeats origin.1.options.maxRetries.toNat origin.2.attempts faulty.2.attempts
    calm.2.attempts
  withinBudget : AttemptFate.withinBudget origin.1.options.maxRetries.toNat
    origin.1.options.maxRetries.toNat faulty.2.fates = true
  faultless : calm.2.fates = []

/-- Two calls end in step and with the same answer. -/
structure Together {α : Type} (origin : State FaultyServer)
    (faulty calm : α × State FaultyServer) : Prop where
  answer : faulty.1 = calm.1
  inStep : InStep origin faulty.2 calm.2

/-- A handle on the same server when nothing goes wrong. -/
def withoutFaults (state : State FaultyServer) : State FaultyServer :=
  (state.1, { state.2 with fates := [] })

theorem inStep_withoutFaults
    (within : AttemptFate.withinBudget state.1.options.maxRetries.toNat
      state.1.options.maxRetries.toNat state.2.fates = true) :
    InStep state state (withoutFaults state) :=
  ⟨rfl, rfl, rfl, rfl, .start, within, rfl⟩

/-! ## What was answered -/

/-- Lost attempts do not count as answered. -/
theorem answered_lost_append {lost before : List (RedisCommand × AttemptFate)}
    (broken : ∀ attempt ∈ lost, ∃ applied, attempt = (command, .lost applied)) :
    (lost ++ before).filter (fun attempt => attempt.2 == .answered) =
      before.filter fun attempt => attempt.2 == .answered := by
  have none : lost.filter (fun attempt => attempt.2 == .answered) = [] := by
    apply List.filter_eq_nil_iff.mpr
    intro attempt member
    rcases broken attempt member with ⟨applied, rfl⟩
    simp
  rw [List.filter_append, none, List.nil_append]

theorem Repeats.answered_eq {faulty calm : List (RedisCommand × AttemptFate)}
    (repeats : Repeats budget earlier faulty calm) :
    faulty.filter (fun attempt => attempt.2 == .answered) =
      calm.filter fun attempt => attempt.2 == .answered := by
  induction repeats with
  | start => rfl
  | command before broken count hypothesis =>
    rw [List.filter_cons, List.filter_cons, answered_lost_append broken, hypothesis]

theorem InStep.alike (inStep : InStep origin faulty calm) : faulty.2.Alike calm.2 where
  keyspace := inStep.keyspace
  answered := congrArg (List.map Prod.fst) inStep.repeats.answered_eq

/-! ## One command -/

/-- The reply to a stable command does not tell whether earlier attempts took effect. -/
theorem reply_of_isStable (reproducible : paging.Reproducible) (stable : command.isStable = true)
    {server calm : FaultyServer} {lost : List (RedisCommand × AttemptFate)}
    (keyspace : server.keyspace = leftBy command lost calm.keyspace)
    (answered : server.answered = calm.answered) :
    (command.apply (FaultyServer.scan paging server) server.keyspace).1 =
      (command.apply (FaultyServer.scan paging calm) calm.keyspace).1 := by
  by_cases reads : command.isRead = true
  · have same : server.keyspace = calm.keyspace := by
      rw [keyspace, leftBy, RedisCommand.effect_of_isRead reads, ite_self]
    have pages : FaultyServer.scan paging server = FaultyServer.scan paging calm := by
      funext cursor pattern count
      rw [FaultyServer.scan, FaultyServer.scan, reproducible.page ⟨same, answered⟩]
    rw [same, pages]
  · cases command with
    | set key value onlyIfAbsent expireMillis =>
      rw [RedisCommand.isStable, Bool.not_eq_true'] at stable
      rw [stable]
      rfl
    | _ => exact absurd stable reads

/-- A command is answered in both runs, and leaves them in step. -/
theorem execute_inStep (paging : Paging) (command : RedisCommand)
    (inStep : InStep origin faulty calm) :
    ∃ reply faultyAfter calmAfter lost,
      execute (FaultyServer.link paging) command faulty = (.ok reply, faultyAfter) ∧
      execute (FaultyServer.link paging) command calm =
        (.ok (command.apply (FaultyServer.scan paging calm.2) calm.2.keyspace).1, calmAfter) ∧
      InStep origin faultyAfter calmAfter ∧
      ∃ server : FaultyServer, server.keyspace = leftBy command lost calm.2.keyspace ∧
        server.answered = calm.2.answered ∧
        reply = (command.apply (FaultyServer.scan paging server) server.keyspace).1 := by
  have within := inStep.withinBudget
  rw [← inStep.kept, ← inStep.options] at within
  rcases executeWithin_settles paging command _ within with
    ⟨reply, faultyAfter, lost, executed, settles⟩
  have direct : attempt (FaultyServer.link paging) command calm =
      (.reply (command.apply (FaultyServer.scan paging calm.2) calm.2.keyspace).1,
        tried command .answered calm) :=
    attempt_eq paging command (by rw [inStep.faultless, List.headD_nil])
  refine ⟨reply, faultyAfter, tried command .answered calm, lost, executed,
    executeWithin_of_reply direct, ?_, ?_⟩
  · have options : faultyAfter.1.options = calm.1.options :=
      settles.spends.options.trans inStep.options
    have count := settles.count
    have later := settles.spends.withinBudget
    rw [inStep.options, inStep.kept] at count
    rw [options, inStep.kept] at later
    refine ⟨inStep.kept, options, settles.spends.closed.trans inStep.closed, ?_, ?_, later, ?_⟩
    · rw [settles.keyspace, inStep.keyspace]
      rfl
    · rw [settles.spends.attempts]
      exact .command inStep.repeats settles.broken count
    · rw [tried, inStep.faultless]
      rfl
  -- The answered attempt meets a keyspace that lost ones may have changed already.
  · rcases settles.reply with ⟨server, keyspace, attempts, answered⟩
    rw [inStep.keyspace] at keyspace
    refine ⟨server, keyspace, ?_, answered⟩
    rw [← inStep.alike.answered, FaultyServer.answered, attempts,
      answered_lost_append settles.broken, FaultyServer.answered]

theorem execute_together (reproducible : paging.Reproducible) (command : RedisCommand)
    (stable : command.isStable = true) (inStep : InStep origin faulty calm) :
    Together origin (execute (FaultyServer.link paging) command faulty)
      (execute (FaultyServer.link paging) command calm) := by
  rcases execute_inStep paging command inStep with
    ⟨reply, faultyAfter, calmAfter, lost, executed, calmly, after, server, keyspace, answered, rfl⟩
  rw [executed, calmly, reply_of_isStable reproducible stable keyspace answered]
  exact ⟨rfl, after⟩

/-- A removal is answered with a number in both runs, not always the same. -/
theorem execute_del (paging : Paging) (keys : List Bytes) (inStep : InStep origin faulty calm) :
    ∃ removed calmRemoved faultyAfter calmAfter,
      execute (FaultyServer.link paging) (.del keys) faulty =
        (.ok (.integer removed), faultyAfter) ∧
      execute (FaultyServer.link paging) (.del keys) calm =
        (.ok (.integer calmRemoved), calmAfter) ∧
      InStep origin faultyAfter calmAfter := by
  rcases execute_inStep paging (.del keys) inStep with
    ⟨reply, faultyAfter, calmAfter, lost, executed, calmly, after, server, keyspace, answered, rfl⟩
  exact ⟨_, _, faultyAfter, calmAfter, executed, calmly, after⟩

/-! ## Walks -/

theorem Together.exists_answer {α : Type} {first second : α × State FaultyServer}
    (together : Together origin first second) :
    ∃ answer faulty calm, first = (answer, faulty) ∧ second = (answer, calm) ∧
      InStep origin faulty calm :=
  ⟨second.1, first.2, second.2, Prod.ext together.answer rfl, rfl, together.inStep⟩

theorem scanPage_together (reproducible : paging.Reproducible) (cursor : UInt64)
    (inStep : InStep origin faulty calm) :
    Together origin (scanPage (FaultyServer.link paging) cursor faulty)
      (scanPage (FaultyServer.link paging) cursor calm) := by
  rcases (execute_together reproducible
    (.scan cursor calm.1.options.pattern calm.1.options.pageSize) rfl inStep).exists_answer with
    ⟨answer, faultyAfter, calmAfter, executed, calmly, after⟩
  rw [scanPage, scanPage, inStep.options, executed, calmly]
  rcases answer with error | reply
  · exact ⟨rfl, after⟩
  · cases reply <;> exact ⟨rfl, after⟩

theorem scanFrom_together (reproducible : paging.Reproducible) (pages : Nat) (cursor : UInt64)
    (found : List Bytes) (inStep : InStep origin faulty calm) :
    Together origin (scanFrom (FaultyServer.link paging) pages cursor found faulty)
      (scanFrom (FaultyServer.link paging) pages cursor found calm) := by
  induction pages generalizing cursor found faulty calm with
  | zero => exact ⟨rfl, inStep⟩
  | succ pages hypothesis =>
    rcases (scanPage_together reproducible cursor inStep).exists_answer with
      ⟨answer, faultyAfter, calmAfter, scanned, calmly, after⟩
    rw [scanFrom, scanFrom, scanned, calmly]
    rcases answer with error | ⟨next, page⟩
    · exact ⟨rfl, after⟩
    · dsimp only
      split
      · exact ⟨rfl, after⟩
      · exact hypothesis next _ after

theorem pageBound_eq (reproducible : paging.Reproducible) (inStep : InStep origin faulty calm) :
    (FaultyServer.link paging).pageBound faulty.2 = (FaultyServer.link paging).pageBound calm.2 :=
  reproducible.pageBound inStep.alike

theorem scanKeys_together (reproducible : paging.Reproducible)
    (inStep : InStep origin faulty calm) :
    Together origin (scanKeys (FaultyServer.link paging) faulty)
      (scanKeys (FaultyServer.link paging) calm) := by
  rw [scanKeys, scanKeys, pageBound_eq reproducible inStep]
  exact scanFrom_together reproducible _ 0 [] inStep

theorem fetch_together (reproducible : paging.Reproducible) (keys : List Bytes)
    (inStep : InStep origin faulty calm) :
    Together origin (fetch (FaultyServer.link paging) keys faulty)
      (fetch (FaultyServer.link paging) keys calm) := by
  rcases (execute_together reproducible (.mget keys) rfl inStep).exists_answer with
    ⟨answer, faultyAfter, calmAfter, executed, calmly, after⟩
  rw [fetch, fetch, executed, calmly]
  split
  · exact ⟨rfl, inStep⟩
  · rcases answer with error | reply
    · exact ⟨rfl, after⟩
    · cases reply <;> exact ⟨rfl, after⟩

/-- The visitor is called with the same entries in both runs. -/
theorem rangeFrom_together {α : Type} (reproducible : paging.Reproducible) (codec : KeyCodec κ)
    (visit : Visitor κ Bytes α) (pages : Nat) (cursor : UInt64) (seen : List Bytes)
    (gathered : α) (inStep : InStep origin faulty calm) :
    Together origin
      (rangeFrom (FaultyServer.link paging) codec visit pages cursor seen gathered faulty)
      (rangeFrom (FaultyServer.link paging) codec visit pages cursor seen gathered calm) := by
  induction pages generalizing cursor seen gathered faulty calm with
  | zero => exact ⟨rfl, inStep⟩
  | succ pages hypothesis =>
    rcases (scanPage_together reproducible cursor inStep).exists_answer with
      ⟨answer, faultyScanned, calmScanned, scanned, calmlyScanned, scannedInStep⟩
    rw [rangeFrom, rangeFrom, scanned, calmlyScanned]
    rcases answer with error | ⟨next, page⟩
    · exact ⟨rfl, scannedInStep⟩
    · dsimp only
      rcases (fetch_together reproducible (freshKeys seen page) scannedInStep).exists_answer with
        ⟨values, faultyAfter, calmAfter, fetched, calmlyFetched, after⟩
      rw [fetched, calmlyFetched]
      rcases values with error | values
      · exact ⟨rfl, after⟩
      · dsimp only
        rw [after.options]
        rcases visit.walk (ownedEntries codec calmAfter.1.options (freshKeys seen page) values)
          gathered with ⟨reached, _ | _⟩
        · exact ⟨rfl, after⟩
        · dsimp only
          split
          · exact ⟨rfl, after⟩
          · exact hypothesis next _ reached after

theorem deleteBatches_together (paging : Paging) (pieces : List (List Bytes))
    (inStep : InStep origin faulty calm) :
    Together origin (deleteBatches (FaultyServer.link paging) pieces faulty)
      (deleteBatches (FaultyServer.link paging) pieces calm) := by
  induction pieces generalizing faulty calm with
  | nil => exact ⟨rfl, inStep⟩
  | cons piece rest hypothesis =>
    rcases execute_del paging piece inStep with
      ⟨removed, calmRemoved, faultyAfter, calmAfter, executed, calmly, after⟩
    rw [deleteBatches, deleteBatches, executed, calmly]
    exact hypothesis after

/-! ## Calls -/

theorem load_together (reproducible : paging.Reproducible) (codec : KeyCodec κ) (key : κ)
    (inStep : InStep origin faulty calm) :
    Together origin (load (FaultyServer.link paging) codec key faulty)
      (load (FaultyServer.link paging) codec key calm) := by
  rw [load, load, inStep.closed, inStep.options]
  split
  · exact ⟨rfl, inStep⟩
  · cases serverKey? codec calm.1.options key with
    | none => exact ⟨rfl, inStep⟩
    | some serverKey =>
      rcases (execute_together reproducible (.get serverKey) rfl inStep).exists_answer with
        ⟨answer, faultyAfter, calmAfter, executed, calmly, after⟩
      dsimp only
      rw [executed, calmly]
      rcases answer with error | reply
      · exact ⟨rfl, after⟩
      · cases reply <;> exact ⟨rfl, after⟩

theorem store_inStep (reproducible : paging.Reproducible) (codec : KeyCodec κ) (key : κ)
    (value : Bytes) (inStep : InStep origin faulty calm) :
    InStep origin (store (FaultyServer.link paging) codec key value faulty)
      (store (FaultyServer.link paging) codec key value calm) := by
  rw [store, store, inStep.closed, inStep.options]
  split
  · exact inStep
  · cases serverKey? codec calm.1.options key with
    | none => exact inStep
    | some serverKey =>
      rcases (execute_together reproducible
        (.set serverKey value false calm.1.options.expireMillis) rfl inStep).exists_answer with
        ⟨answer, faultyAfter, calmAfter, executed, calmly, after⟩
      dsimp only
      rw [set, set, inStep.options, executed, calmly]
      cases answer <;> exact after

theorem delete_inStep (paging : Paging) (codec : KeyCodec κ) (wanted : List κ)
    (inStep : InStep origin faulty calm) :
    InStep origin (delete (FaultyServer.link paging) codec wanted faulty)
      (delete (FaultyServer.link paging) codec wanted calm) := by
  rw [delete, delete, inStep.closed, inStep.options]
  split
  · exact inStep
  · exact (deleteBatches_together paging _ inStep).inStep

theorem range_together {α : Type} (reproducible : paging.Reproducible) (codec : KeyCodec κ)
    (visit : Visitor κ Bytes α) (gathered : α) (inStep : InStep origin faulty calm) :
    Together origin (range (FaultyServer.link paging) codec visit gathered faulty)
      (range (FaultyServer.link paging) codec visit gathered calm) := by
  rw [range, range, inStep.closed, pageBound_eq reproducible inStep]
  split
  · exact ⟨rfl, inStep⟩
  · exact rangeFrom_together reproducible codec visit _ 0 [] gathered inStep

theorem keys_together (reproducible : paging.Reproducible) (codec : KeyCodec κ)
    (inStep : InStep origin faulty calm) :
    Together origin (keys (FaultyServer.link paging) codec faulty)
      (keys (FaultyServer.link paging) codec calm) := by
  rcases (scanKeys_together reproducible inStep).exists_answer with
    ⟨answer, faultyAfter, calmAfter, scanned, calmly, after⟩
  rw [keys, keys, inStep.closed, scanned, calmly]
  split
  · exact ⟨rfl, inStep⟩
  · rcases answer with error | found
    · exact ⟨rfl, after⟩
    · dsimp only
      rw [after.options]
      exact ⟨rfl, after⟩

theorem len_together (reproducible : paging.Reproducible) (codec : KeyCodec κ)
    (inStep : InStep origin faulty calm) :
    Together origin (len (FaultyServer.link paging) codec faulty)
      (len (FaultyServer.link paging) codec calm) := by
  have together := keys_together reproducible codec inStep
  exact ⟨congrArg List.length together.answer, together.inStep⟩

theorem clear_inStep (reproducible : paging.Reproducible) (codec : KeyCodec κ)
    (inStep : InStep origin faulty calm) :
    InStep origin (clear (FaultyServer.link paging) codec faulty)
      (clear (FaultyServer.link paging) codec calm) := by
  rcases (scanKeys_together reproducible inStep).exists_answer with
    ⟨answer, faultyAfter, calmAfter, scanned, calmly, after⟩
  rw [clear, clear, inStep.closed, scanned, calmly]
  split
  · exact inStep
  · rcases answer with error | found
    · exact after
    · dsimp only
      rw [after.options]
      exact (deleteBatches_together paging _ after).inStep

theorem perform_together (reproducible : paging.Reproducible) (codec : KeyCodec κ)
    {call : StorageCall κ Bytes} (repeatable : call.isRepeatable = true)
    (inStep : InStep origin faulty calm) :
    Together origin ((storage (FaultyServer.link paging) codec).perform call faulty)
      ((storage (FaultyServer.link paging) codec).perform call calm) := by
  cases call with
  | load key => exact load_together reproducible codec key inStep
  | store key value => exact ⟨rfl, store_inStep reproducible codec key value inStep⟩
  | storeIfAbsent key value => cases repeatable
  | delete wanted => exact ⟨rfl, delete_inStep paging codec wanted inStep⟩
  | range visit start => exact range_together reproducible codec visit start inStep
  | next => cases repeatable
  | keys => exact keys_together reproducible codec inStep
  | len => exact len_together reproducible codec inStep
  | clear => exact ⟨rfl, clear_inStep reproducible codec inStep⟩

theorem performAll_together (reproducible : paging.Reproducible) (codec : KeyCodec κ)
    {calls : List (StorageCall κ Bytes)} (repeatable : ∀ call ∈ calls, call.isRepeatable = true)
    (inStep : InStep origin faulty calm) :
    ((storage (FaultyServer.link paging) codec).performAll calls faulty).1 =
        ((storage (FaultyServer.link paging) codec).performAll calls calm).1 ∧
      InStep origin ((storage (FaultyServer.link paging) codec).performAll calls faulty).2
        ((storage (FaultyServer.link paging) codec).performAll calls calm).2 := by
  induction calls generalizing faulty calm with
  | nil => exact ⟨rfl, inStep⟩
  | cons call rest hypothesis =>
    have together := perform_together reproducible codec (repeatable call List.mem_cons_self) inStep
    rcases hypothesis (fun later member => repeatable later (List.mem_cons_of_mem _ member))
      together.inStep with ⟨answers, after⟩
    refine ⟨?_, after⟩
    simp only [Storage.performAll, together.answer, answers]

/-- Connections that break within the budget are not noticed.  Whatever the server holds,
however its connections break and whether or not the lost attempts took effect, calls that
may be repeated are answered as on a server without faults, and the server holds the same in
the end.  This is so for every visitor, also for one that keeps all entries it is called
with.  Every command that is sent once without faults is attempted at most once more than
there are retries. -/
theorem retries_unnoticed (reproducible : paging.Reproducible) (codec : KeyCodec κ)
    {calls : List (StorageCall κ Bytes)} (repeatable : ∀ call ∈ calls, call.isRepeatable = true)
    (within : AttemptFate.withinBudget state.1.options.maxRetries.toNat
      state.1.options.maxRetries.toNat state.2.fates = true) :
    ((storage (FaultyServer.link paging) codec).performAll calls state).1 =
        ((storage (FaultyServer.link paging) codec).performAll calls (withoutFaults state)).1 ∧
      ((storage (FaultyServer.link paging) codec).performAll calls state).2.2.keyspace =
        ((storage (FaultyServer.link paging) codec).performAll calls
          (withoutFaults state)).2.2.keyspace ∧
      Repeats state.1.options.maxRetries.toNat state.2.attempts
        ((storage (FaultyServer.link paging) codec).performAll calls state).2.2.attempts
        ((storage (FaultyServer.link paging) codec).performAll calls
          (withoutFaults state)).2.2.attempts := by
  rcases performAll_together reproducible codec repeatable (inStep_withoutFaults within) with
    ⟨answers, inStep⟩
  exact ⟨answers, inStep.keyspace, inStep.repeats⟩

/-- Whole keyspaces on one page are the same page whenever the keyspace is. -/
theorem reproducible_wholePage : wholePage.Reproducible where
  page alike := by
    funext cursor pattern count
    simp only [wholePage, alike.keyspace]
  pageBound _ := rfl

/-- Calls that visit all entries, replace one, read it back, remove the other and count. -/
def visitAndRewrite : List (StorageCall Datum Bytes) :=
  [.range Visitor.collect [], .store (.text "a") [9], .load (.text "a"), .delete [.text "b"], .len,
    .clear]

/-- Fates under which attempts at these calls are lost, before and after they took effect. -/
def lossyFates : List AttemptFate :=
  [.lost true, .answered, .lost false, .lost true, .answered, .lost true, .answered, .answered,
    .lost true, .lost false, .lost true, .answered]

theorem lost_attempts_unnoticed :
    ((storage (FaultyServer.link wholePage) Schema.text.keyCodec).performAll visitAndRewrite
        (onTwoEntries lossyFates)).1 =
      ((storage (FaultyServer.link wholePage) Schema.text.keyCodec).performAll visitAndRewrite
        (onTwoEntries [])).1 ∧
    ((storage (FaultyServer.link wholePage) Schema.text.keyCodec).performAll visitAndRewrite
        (onTwoEntries lossyFates)).2.2.attempts.map Prod.snd =
      [.answered, .answered, .answered] ++ lossyFates.reverse := by
  have repeatable : ∀ call ∈ visitAndRewrite, call.isRepeatable = true := by
    simp [visitAndRewrite, StorageCall.isRepeatable]
  have within : AttemptFate.withinBudget (onTwoEntries lossyFates).1.options.maxRetries.toNat
      (onTwoEntries lossyFates).1.options.maxRetries.toNat (onTwoEntries lossyFates).2.fates =
        true := by decide +kernel
  exact ⟨(retries_unnoticed reproducible_wholePage Schema.text.keyCodec repeatable within).1,
    by decide +kernel⟩

end Redis
end TypedStore
