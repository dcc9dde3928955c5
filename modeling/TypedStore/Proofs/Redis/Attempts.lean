import Mathlib.Data.List.TakeWhile
import TypedStore.Proofs.Redis.Faults

/-!
# Attempts that a call makes

A command fails for good when its last attempt is refused or gets no answer in time, or
when its connection breaks and the budget is used up.  The server's list of attempts tells
whether a call failed so: its latest attempts are then unanswered (`GivenUp`).

Whether a failed command took effect is another question.  `FailsUnapplied` says that it
did not.  `executeWithin_concludes` says how one command ends on a server whose attempts
have any fates, and `Logged` and `Looks` are what a call keeps of that from command to
command.
-/

namespace TypedStore

/-- Whether a command only looks at the keyspace. -/
def RedisCommand.isRead : RedisCommand → Bool
  | .get _ => true
  | .mget _ => true
  | .scan _ _ _ => true
  | _ => false

/-- Whether a command removes a batch of keys. -/
def RedisCommand.isRemoval : RedisCommand → Bool
  | .del _ => true
  | _ => false

theorem RedisCommand.effect_of_isRead {command : RedisCommand} (reads : command.isRead = true)
    (keyspace : Tree) : command.effect keyspace = keyspace := by
  cases command with
  | get key => exact effect_get key keyspace
  | mget keys => rfl
  | scan cursor pattern count => rfl
  | _ => cases reads

namespace Redis

variable {paging : Paging} {before between after state : State FaultyServer}
  {made more : List (RedisCommand × AttemptFate)}

/-! ## Attempts -/

/-- The attempts since the last answer, the latest first. -/
def unanswered (made : List (RedisCommand × AttemptFate)) : List (RedisCommand × AttemptFate) :=
  made.takeWhile fun attempt => attempt.2 != .answered

/-- Whether the last command was given up without an answer. -/
def GivenUp (made : List (RedisCommand × AttemptFate)) : Prop :=
  unanswered made ≠ []

instance (made : List (RedisCommand × AttemptFate)) : Decidable (GivenUp made) :=
  inferInstanceAs (Decidable (unanswered made ≠ []))

/-- Whether the last command was given up, and no attempt at it took effect. -/
structure FailsUnapplied (made : List (RedisCommand × AttemptFate)) : Prop where
  givenUp : GivenUp made
  unapplied : ∀ attempt ∈ unanswered made, attempt.2.applies = false

/-- The number of removals of batches that were answered. -/
def removals (made : List (RedisCommand × AttemptFate)) : Nat :=
  made.countP fun attempt => attempt.1.isRemoval && attempt.2 == .answered

/-- The handle stays as it is and has made these attempts. -/
structure Tries (before after : State FaultyServer) (made : List (RedisCommand × AttemptFate)) :
    Prop where
  options : after.1.options = before.1.options
  closed : after.1.closed = before.1.closed
  attempts : after.2.attempts = made ++ before.2.attempts

theorem Tries.refl (state : State FaultyServer) : Tries state state [] :=
  ⟨rfl, rfl, rfl⟩

theorem Tries.trans (later : Tries between after more) (earlier : Tries before between made) :
    Tries before after (more ++ made) where
  options := later.options.trans earlier.options
  closed := later.closed.trans earlier.closed
  attempts := by rw [later.attempts, earlier.attempts, List.append_assoc]

theorem unanswered_append (answered : unanswered made = []) :
    unanswered (more ++ made) = unanswered more := by
  induction more with
  | nil => exact answered
  | cons attempt rest hypothesis =>
    rw [unanswered] at hypothesis
    simp only [unanswered, List.cons_append, List.takeWhile_cons, hypothesis]

theorem unanswered_of_forall (lost : ∀ attempt ∈ made, attempt.2 ≠ .answered) :
    unanswered made = made := by
  apply List.takeWhile_eq_self_iff.mpr
  intro attempt member
  simp [lost attempt member]

theorem unanswered_answered (command : RedisCommand) (lost : List (RedisCommand × AttemptFate)) :
    unanswered ((command, .answered) :: lost) = [] := by
  simp [unanswered]

theorem failsUnapplied_append (answered : unanswered made = []) :
    FailsUnapplied (more ++ made) ↔ FailsUnapplied more := by
  constructor
  · rintro ⟨givenUp, unapplied⟩
    rw [GivenUp, unanswered_append answered] at givenUp
    rw [unanswered_append answered] at unapplied
    exact ⟨givenUp, unapplied⟩
  · rintro ⟨givenUp, unapplied⟩
    constructor
    · rw [GivenUp, unanswered_append answered]
      exact givenUp
    · rw [unanswered_append answered]
      exact unapplied

theorem removals_append (more made : List (RedisCommand × AttemptFate)) :
    removals (more ++ made) = removals more + removals made :=
  List.countP_append

theorem removals_of_forall (lost : ∀ attempt ∈ made, attempt.2 ≠ .answered) :
    removals made = 0 := by
  apply List.countP_eq_zero.mpr
  intro attempt member
  simp [lost attempt member]

/-! ## One command -/

/-- How a command ends.  Its attempts are lost up to the last one.  That one is answered,
and the command has taken effect; or the command is given up, and has taken effect only if
an attempt did. -/
structure Concludes (paging : Paging) (command : RedisCommand) (state : State FaultyServer)
    (ended : Except StoreError RedisReply × State FaultyServer)
    (lost : List (RedisCommand × AttemptFate)) : Prop where
  same : ∀ attempt ∈ lost, attempt.1 = command
  unheard : ∀ attempt ∈ lost, attempt.2 ≠ .answered
  outcome : (Tries state ended.2 ((command, .answered) :: lost) ∧
      ended.2.2.keyspace = command.effect state.2.keyspace ∧
      ∃ server, ended.1 = .ok (command.apply (FaultyServer.scan paging server)
        (leftBy command lost state.2.keyspace)).1) ∨
    (Tries state ended.2 lost ∧ lost ≠ [] ∧
      ended.2.2.keyspace = leftBy command lost state.2.keyspace ∧
      ∃ fault, ended.1 = .error fault)

theorem Concludes.answered (paging : Paging) (command : RedisCommand) (state : State FaultyServer) :
    Concludes paging command state
      (.ok (command.apply (FaultyServer.scan paging state.2) state.2.keyspace).1,
        tried command .answered state) [] where
  same := by simp
  unheard := by simp
  outcome := by
    refine .inl ⟨⟨rfl, rfl, rfl⟩, rfl, state.2, ?_⟩
    simp [leftBy]

theorem Concludes.givenUp {fate : AttemptFate} (unanswered : fate ≠ .answered)
    (paging : Paging) (command : RedisCommand) (state : State FaultyServer) (fault : StoreError) :
    Concludes paging command state (.error fault, tried command fate state)
      [(command, fate)] where
  same := by simp
  unheard := by simpa using unanswered
  outcome := by
    refine .inr ⟨⟨rfl, rfl, rfl⟩, by simp, ?_, fault, rfl⟩
    cases fate with
    | answered => exact absurd rfl unanswered
    | lost applied => cases applied <;> simp [tried, leftBy, AttemptFate.applies]
    | refused message => simp [tried, leftBy, AttemptFate.applies]
    | silent => simp [tried, leftBy, AttemptFate.applies]

/-- An attempt whose connection breaks is followed by others. -/
theorem Concludes.again {command : RedisCommand} {applied : Bool}
    {ended : Except StoreError RedisReply × State FaultyServer}
    {lost : List (RedisCommand × AttemptFate)}
    (later : Concludes paging command (tried command (.lost applied) state) ended lost) :
    Concludes paging command state ended (lost ++ [(command, .lost applied)]) where
  same := by
    intro attempt member
    rcases List.mem_append.mp member with more | first
    · exact later.same attempt more
    · rw [List.mem_singleton.mp first]
  unheard := by
    intro attempt member
    rcases List.mem_append.mp member with more | first
    · exact later.unheard attempt more
    · rw [List.mem_singleton.mp first]
      exact AttemptFate.noConfusion
  outcome := by
    have first : Tries state (tried command (.lost applied) state) [(command, .lost applied)] :=
      ⟨rfl, rfl, rfl⟩
    rw [leftBy_append_lost, ← effect_tried_lost command applied state]
    rcases later.outcome with ⟨tries, keyspace, reply⟩ | ⟨tries, some, keyspace, fault⟩
    · exact .inl ⟨tries.trans first, keyspace, reply⟩
    · exact .inr ⟨tries.trans first, by simp, keyspace, fault⟩

theorem executeWithin_concludes (paging : Paging) (command : RedisCommand) (retries : Nat)
    (state : State FaultyServer) : ∃ lost, Concludes paging command state
      (executeWithin (FaultyServer.link paging) command retries state) lost := by
  induction retries generalizing state with
  | zero =>
    rw [executeWithin, attempt_eq paging command rfl]
    cases state.2.fates.headD .answered with
    | answered => exact ⟨_, .answered paging command state⟩
    | lost applied => exact ⟨_, .givenUp (by simp) paging command state _⟩
    | refused message => exact ⟨_, .givenUp (by simp) paging command state _⟩
    | silent => exact ⟨_, .givenUp (by simp) paging command state _⟩
  | succ retries hypothesis =>
    rw [executeWithin, attempt_eq paging command rfl]
    cases state.2.fates.headD .answered with
    | answered => exact ⟨_, .answered paging command state⟩
    | lost applied =>
      rcases hypothesis (tried command (.lost applied) state) with ⟨lost, concludes⟩
      exact ⟨_, concludes.again⟩
    | refused message => exact ⟨_, .givenUp (by simp) paging command state _⟩
    | silent => exact ⟨_, .givenUp (by simp) paging command state _⟩

theorem execute_concludes (paging : Paging) (command : RedisCommand) (state : State FaultyServer) :
    ∃ lost, Concludes paging command state
      (execute (FaultyServer.link paging) command state) lost :=
  executeWithin_concludes paging command state.1.options.maxRetries.toNat state

/-! ## Calls that look -/

/-- A call has made these attempts, and it ends with an error exactly when its last
command was given up. -/
structure Logged {α : Type} (before : State FaultyServer)
    (ended : Except StoreError α × State FaultyServer) (made : List (RedisCommand × AttemptFate)) :
    Prop extends Tries before ended.2 made where
  failed : (∃ fault, ended.1 = .error fault) ↔ GivenUp made

/-- A call has only looked at the keyspace. -/
structure Looks (before after : State FaultyServer) (made : List (RedisCommand × AttemptFate)) :
    Prop extends Tries before after made where
  keyspace : after.2.keyspace = before.2.keyspace
  reads : ∀ attempt ∈ made, attempt.1.isRead = true

theorem Looks.refl (state : State FaultyServer) : Looks state state [] :=
  ⟨.refl state, rfl, by simp⟩

theorem Looks.trans (later : Looks between after more) (earlier : Looks before between made) :
    Looks before after (more ++ made) where
  toTries := later.toTries.trans earlier.toTries
  keyspace := later.keyspace.trans earlier.keyspace
  reads := by
    intro attempt member
    rcases List.mem_append.mp member with new | old
    · exact later.reads attempt new
    · exact earlier.reads attempt old

theorem Looks.removals_eq_zero (looks : Looks before after made) : removals made = 0 := by
  apply List.countP_eq_zero.mpr
  rintro ⟨command, fate⟩ member
  have reads := looks.reads _ member
  cases command with
  | del keys => cases reads
  | _ => simp [RedisCommand.isRemoval]

theorem unanswered_of_ok {α : Type} {value : α} (logged : Logged before (.ok value, after) made) :
    unanswered made = [] := by
  by_contra some
  rcases logged.failed.mpr some with ⟨fault, impossible⟩
  cases impossible

theorem Logged.ok {α : Type} (tries : Tries before after made) (answered : unanswered made = [])
    (value : α) : Logged before (.ok value, after) made :=
  ⟨tries, by simp [GivenUp, answered]⟩

theorem Logged.error {α : Type} (tries : Tries before after made) (givenUp : GivenUp made)
    (fault : StoreError) :
    Logged before ((.error fault, after) : Except StoreError α × State FaultyServer) made :=
  ⟨tries, by simp [givenUp]⟩

/-- What a call does after something that ended well. -/
theorem Logged.following {α β : Type} {value : α}
    {ended : Except StoreError β × State FaultyServer}
    (later : Logged between ended more) (earlier : Logged before (.ok value, between) made) :
    Logged before ended (more ++ made) where
  toTries := later.toTries.trans earlier.toTries
  failed := by
    rw [GivenUp, unanswered_append (unanswered_of_ok earlier)]
    exact later.failed

/-- A command that only looks is answered, or the call that ran it fails. -/
theorem execute_read (paging : Paging) (command : RedisCommand) (reads : command.isRead = true)
    (state : State FaultyServer) :
    ∃ made, Looks state (execute (FaultyServer.link paging) command state).2 made ∧
      Logged state (execute (FaultyServer.link paging) command state) made ∧
      ∀ reply, (execute (FaultyServer.link paging) command state).1 = .ok reply →
        ∃ server, reply =
          (command.apply (FaultyServer.scan paging server) state.2.keyspace).1 := by
  rcases execute_concludes paging command state with ⟨lost, concludes⟩
  rcases executed : execute (FaultyServer.link paging) command state with ⟨result, after⟩
  rw [executed] at concludes
  have same := RedisCommand.effect_of_isRead reads state.2.keyspace
  have left : leftBy command lost state.2.keyspace = state.2.keyspace := by
    rw [leftBy, same, ite_self]
  have onlyReads : ∀ attempt ∈ lost, attempt.1.isRead = true := by
    intro attempt member
    rw [concludes.same attempt member, reads]
  rcases concludes.outcome with
    ⟨tries, keyspace, server, reply⟩ | ⟨tries, some, keyspace, fault, failed⟩
  · cases reply
    refine ⟨_, ⟨tries, keyspace.trans same, ?_⟩, .ok tries (unanswered_answered command lost) _,
      ?_⟩
    · simpa [reads] using onlyReads
    · intro reply answered
      cases answered
      exact ⟨server, by rw [left]⟩
  · cases failed
    refine ⟨lost, ⟨tries, keyspace.trans left, onlyReads⟩, .error tries ?_ fault, ?_⟩
    · rw [GivenUp, unanswered_of_forall concludes.unheard]
      exact some
    · intro reply answered
      cases answered

end Redis
end TypedStore
