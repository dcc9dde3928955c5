import TypedStore.Proofs.Redis.Retries

/-!
# Calls whose commands fail

A call ends with the first of its commands that fails for good.  This module says what the
call has done by then, wherever in the call that was, on a server whose attempts have any
fates and whose scans are answered in any way.

Each loop has its own induction, on the pages of a scan, the keys of a page or the batches
of a removal, and `failures_degrade` puts the calls together.  A removal that fails has
removed the batches that were answered, and `StopsAfter` says which keys these are.
-/

namespace TypedStore
namespace Redis

variable {κ : Type} {codec : KeyCodec κ} {paging : Paging}
  {before between after state : State FaultyServer}
  {made more : List (RedisCommand × AttemptFate)}

/-! ## Scans -/

theorem scanPage_looks (paging : Paging) (cursor : UInt64) (state : State FaultyServer) :
    ∃ made, Looks state (scanPage (FaultyServer.link paging) cursor state).2 made ∧
      Logged state (scanPage (FaultyServer.link paging) cursor state) made := by
  rcases execute_read paging (.scan cursor state.1.options.pattern state.1.options.pageSize) rfl
    state with ⟨made, looks, logged, replies⟩
  rw [scanPage]
  rcases executed : execute (FaultyServer.link paging)
    (.scan cursor state.1.options.pattern state.1.options.pageSize) state with ⟨result, after⟩
  rw [executed] at looks logged replies
  cases result with
  | error fault =>
    exact ⟨made, looks, .error looks.toTries (logged.failed.mp ⟨fault, rfl⟩) fault⟩
  | ok reply =>
    rcases replies reply rfl with ⟨server, rfl⟩
    exact ⟨made, looks, .ok looks.toTries (unanswered_of_ok logged) _⟩

theorem scanFrom_looks (paging : Paging) (pages : Nat) (cursor : UInt64) (found : List Bytes)
    (state : State FaultyServer) :
    ∃ made, Looks state (scanFrom (FaultyServer.link paging) pages cursor found state).2 made ∧
      Logged state (scanFrom (FaultyServer.link paging) pages cursor found state) made := by
  induction pages generalizing cursor found state with
  | zero => exact ⟨[], .refl state, .ok (.refl state) rfl found⟩
  | succ pages hypothesis =>
    rcases scanPage_looks paging cursor state with ⟨made, looks, logged⟩
    rw [scanFrom]
    rcases scanned : scanPage (FaultyServer.link paging) cursor state with ⟨result, after⟩
    rw [scanned] at looks logged
    cases result with
    | error fault =>
      exact ⟨made, looks, .error looks.toTries (logged.failed.mp ⟨fault, rfl⟩) fault⟩
    | ok page =>
      rcases page with ⟨next, page⟩
      dsimp only
      split
      · exact ⟨made, looks, .ok looks.toTries (unanswered_of_ok logged) _⟩
      · rcases hypothesis next (found ++ freshKeys found page) after with ⟨more, laterLooks, later⟩
        exact ⟨more ++ made, laterLooks.trans looks, later.following logged⟩

theorem scanKeys_looks (paging : Paging) (state : State FaultyServer) :
    ∃ made, Looks state (scanKeys (FaultyServer.link paging) state).2 made ∧
      Logged state (scanKeys (FaultyServer.link paging) state) made :=
  scanFrom_looks paging _ 0 [] state

theorem fetch_looks (paging : Paging) (keys : List Bytes) (state : State FaultyServer) :
    ∃ made, Looks state (fetch (FaultyServer.link paging) keys state).2 made := by
  rw [fetch]
  split
  · exact ⟨[], .refl state⟩
  · rcases execute_read paging (.mget keys) rfl state with ⟨made, looks, -⟩
    rcases executed : execute (FaultyServer.link paging) (.mget keys) state with ⟨result, after⟩
    rw [executed] at looks
    cases result with
    | error fault => exact ⟨made, looks⟩
    | ok reply => cases reply <;> exact ⟨made, looks⟩

theorem rangeFrom_looks {α : Type} (paging : Paging) (codec : KeyCodec κ)
    (visit : Visitor κ Bytes α) (pages : Nat) (cursor : UInt64) (seen : List Bytes) (gathered : α)
    (state : State FaultyServer) :
    ∃ made, Looks state (rangeFrom (FaultyServer.link paging) codec visit pages cursor seen gathered
      state).2 made := by
  induction pages generalizing cursor seen gathered state with
  | zero => exact ⟨[], .refl state⟩
  | succ pages hypothesis =>
    rcases scanPage_looks paging cursor state with ⟨made, looks, -⟩
    rw [rangeFrom]
    rcases scanned : scanPage (FaultyServer.link paging) cursor state with
      ⟨_ | ⟨next, page⟩, between⟩
    · rw [scanned] at looks
      exact ⟨made, looks⟩
    · rw [scanned] at looks
      rcases fetch_looks paging (freshKeys seen page) between with ⟨fetchMade, fetchLooks⟩
      dsimp only
      rcases fetched : fetch (FaultyServer.link paging) (freshKeys seen page) between with
        ⟨_ | values, after⟩
      · rw [fetched] at fetchLooks
        exact ⟨_, fetchLooks.trans looks⟩
      · rw [fetched] at fetchLooks
        dsimp only
        split
        · exact ⟨_, fetchLooks.trans looks⟩
        · next reached _ =>
          split
          · exact ⟨_, fetchLooks.trans looks⟩
          · rcases hypothesis next (seen ++ freshKeys seen page) reached after with
              ⟨more, laterLooks⟩
            exact ⟨_, laterLooks.trans (fetchLooks.trans looks)⟩

/-! ## Taking an entry -/

theorem Looks.takes (looks : Looks before after made) : Takes codec before after made none := by
  apply Takes.nothing _ looks.keyspace
  apply List.filterMap_eq_nil_iff.mpr
  rintro ⟨command, fate⟩ member
  have reads := looks.reads _ member
  cases command with
  | getdel key => cases reads
  | _ => rfl

/-- Nothing is removed unnoticed if every reply to what took effect arrived. -/
theorem unnoticed_of_heard (heard : ∀ attempt ∈ made, attempt.2 ≠ .lost true) :
    unnoticed made = [] := by
  apply List.filterMap_eq_nil_iff.mpr
  rintro ⟨command, fate⟩ member
  have arrived := heard _ member
  cases command <;> try rfl
  cases fate with
  | lost applied => cases applied <;> first | rfl | exact absurd rfl arrived
  | _ => rfl

/-- An attempt to take an entry: it has these attempts, fails exactly when its last command
was given up, and removes what it hands over and what was removed unnoticed. -/
structure Pops (codec : KeyCodec κ) (before : State FaultyServer)
    (ended : Except StoreError (Option (κ × Bytes)) × State FaultyServer)
    (made : List (RedisCommand × AttemptFate)) : Prop extends Logged before ended made where
  takes : Takes codec before ended.2 made ended.1.toOption.join

/-- One key is taken out, is found gone, or is not reached. -/
theorem getdel_cases (paging : Paging) {serverKey : Bytes} {key : κ}
    (owned : ownedKey? codec state.1.options serverKey = some key) :
    ∃ made after,
      (∃ value, execute (FaultyServer.link paging) (.getdel serverKey) state =
          (.ok (.bulk value), after) ∧ Pops codec state (.ok (some (key, value)), after) made) ∨
      (execute (FaultyServer.link paging) (.getdel serverKey) state = (.ok .nil, after) ∧
        Pops codec state (.ok none, after) made) ∨
      ∃ fault, execute (FaultyServer.link paging) (.getdel serverKey) state =
          (.error fault, after) ∧ Pops codec state (.error fault, after) made := by
  rcases execute_concludes paging (.getdel serverKey) state with ⟨lost, concludes⟩
  rcases executed : execute (FaultyServer.link paging) (.getdel serverKey) state with
    ⟨result, after⟩
  rw [executed] at concludes
  have same := concludes.same
  rcases concludes.outcome with
    ⟨tries, keyspace, server, reply⟩ | ⟨tries, some, keyspace, fault, failed⟩
  · have answered := unanswered_answered (.getdel serverKey) lost
    have allSame : ∀ attempt ∈ (RedisCommand.getdel serverKey, AttemptFate.answered) :: lost,
        attempt.1 = .getdel serverKey := by
      simpa using same
    have noticed : ∀ keyspace, leftBy (.getdel serverKey)
        ((.getdel serverKey, .answered) :: lost) keyspace =
          leftBy (.getdel serverKey) lost keyspace := by
      simp [leftBy]
    rw [RedisCommand.effect_getdel] at keyspace
    refine ⟨(.getdel serverKey, .answered) :: lost, after, ?_⟩
    by_cases gone : (RedisCommand.getdel serverKey, AttemptFate.lost true) ∈ lost
    · -- The attempt that is answered finds the key removed.
      rw [leftBy, if_pos gone, RedisCommand.effect_getdel, RedisCommand.apply, Tree.get?_erase,
        if_pos rfl] at reply
      cases reply
      refine .inr (.inl ⟨rfl, .ok tries answered none, takes_of_leftBy owned allSame ?_⟩)
      rw [noticed, leftBy, if_pos gone, RedisCommand.effect_getdel]
      exact keyspace
    · rw [leftBy, if_neg gone, RedisCommand.apply] at reply
      cases found : state.2.keyspace.get? serverKey with
      | none =>
        rw [found] at reply
        cases reply
        refine .inr (.inl ⟨rfl, .ok tries answered none, takes_of_leftBy owned allSame ?_⟩)
        rw [noticed, leftBy, if_neg gone, keyspace, Tree.erase_of_absent found]
      | some value =>
        rw [found] at reply
        cases reply
        refine .inl ⟨value, rfl, .ok tries answered _,
          takes_of_unlost owned allSame ?_ found keyspace⟩
        simpa using gone
  · cases failed
    refine ⟨lost, after, .inr (.inr ⟨fault, rfl, .error tries ?_ fault, ?_⟩)⟩
    · rw [GivenUp, unanswered_of_forall concludes.unheard]
      exact some
    · exact takes_of_leftBy owned same keyspace

/-- What is taken after something that handed nothing over. -/
theorem Pops.following {α : Type} {value : α}
    {ended : Except StoreError (Option (κ × Bytes)) × State FaultyServer}
    (later : Pops codec between ended more) (earlier : Logged before (.ok value, between) made)
    (nothing : Takes codec before between made none) : Pops codec before ended (more ++ made) where
  toLogged := later.toLogged.following earlier
  takes := later.takes.after_none earlier.options nothing

theorem popFromPage_pops (paging : Paging) (codec : KeyCodec κ) (page : List Bytes)
    (state : State FaultyServer) :
    ∃ made, Pops codec state (popFromPage (FaultyServer.link paging) codec page state) made := by
  induction page generalizing state with
  | nil => exact ⟨[], .ok (.refl state) rfl none, .nothing rfl rfl⟩
  | cons serverKey rest hypothesis =>
    rw [popFromPage]
    cases owned : ownedKey? codec state.1.options serverKey with
    | none => exact hypothesis state
    | some key =>
      dsimp only
      rcases getdel_cases paging owned with
        ⟨made, after, ⟨value, executed, pops⟩ | ⟨executed, pops⟩ | ⟨fault, executed, pops⟩⟩
      · rw [executed]
        exact ⟨made, pops⟩
      · rw [executed]
        rcases hypothesis after with ⟨more, later⟩
        exact ⟨more ++ made, later.following pops.toLogged pops.takes⟩
      · rw [executed]
        exact ⟨made, pops⟩

theorem popFrom_pops (paging : Paging) (codec : KeyCodec κ) (pages : Nat) (cursor : UInt64)
    (state : State FaultyServer) :
    ∃ made,
      Pops codec state (popFrom (FaultyServer.link paging) codec pages cursor state) made := by
  induction pages generalizing cursor state with
  | zero => exact ⟨[], .ok (.refl state) rfl none, .nothing rfl rfl⟩
  | succ pages hypothesis =>
    rcases scanPage_looks paging cursor state with ⟨made, looks, logged⟩
    rw [popFrom]
    rcases scanned : scanPage (FaultyServer.link paging) cursor state with ⟨result, between⟩
    rw [scanned] at looks logged
    cases result with
    | error fault =>
      exact ⟨made, .error looks.toTries (logged.failed.mp ⟨fault, rfl⟩) fault, looks.takes⟩
    | ok found =>
      rcases found with ⟨next, page⟩
      rcases popFromPage_pops paging codec page between with ⟨pageMade, popped⟩
      have pops := popped.following logged looks.takes
      dsimp only
      rcases taken : popFromPage (FaultyServer.link paging) codec page between with ⟨ended, after⟩
      rw [taken] at pops
      rcases ended with fault | (_ | entry)
      · exact ⟨_, pops⟩
      · dsimp only
        split
        · exact ⟨_, pops⟩
        · rcases hypothesis next after with ⟨more, later⟩
          exact ⟨_, later.following pops.toLogged pops.takes⟩
      · exact ⟨_, pops⟩

/-! ## Writing and removing -/

theorem leftBy_of_unapplied {command : RedisCommand} {lost : List (RedisCommand × AttemptFate)}
    (unheard : ∀ attempt ∈ lost, attempt.2 ≠ .answered) (fails : FailsUnapplied lost)
    (keyspace : Tree) : leftBy command lost keyspace = keyspace := by
  apply if_neg
  intro member
  have unapplied := fails.unapplied
  rw [unanswered_of_forall unheard] at unapplied
  exact Bool.noConfusion (unapplied _ member)

theorem set_logged (paging : Paging) (serverKey value : Bytes) (onlyIfAbsent : Bool)
    (state : State FaultyServer) :
    ∃ made, Logged state (set (FaultyServer.link paging) serverKey value onlyIfAbsent state) made ∧
      (¬GivenUp made →
        (set (FaultyServer.link paging) serverKey value onlyIfAbsent state).2.2.keyspace =
          if onlyIfAbsent && (state.2.keyspace.get? serverKey).isSome then state.2.keyspace
          else state.2.keyspace.insert serverKey value) ∧
      (FailsUnapplied made →
        (set (FaultyServer.link paging) serverKey value onlyIfAbsent state).2.2.keyspace =
          state.2.keyspace) := by
  rw [set]
  rcases execute_concludes paging
    (.set serverKey value onlyIfAbsent state.1.options.expireMillis) state with ⟨lost, concludes⟩
  rcases executed : execute (FaultyServer.link paging)
    (.set serverKey value onlyIfAbsent state.1.options.expireMillis) state with ⟨result, after⟩
  rw [executed] at concludes
  rcases concludes.outcome with
    ⟨tries, keyspace, server, reply⟩ | ⟨tries, some, keyspace, fault, failed⟩
  · cases reply
    have answered := unanswered_answered
      (.set serverKey value onlyIfAbsent state.1.options.expireMillis) lost
    refine ⟨_, .ok tries answered _, fun _ => ?_, fun fails => absurd answered fails.givenUp⟩
    rw [← RedisCommand.effect_set]
    exact keyspace
  · cases failed
    have givenUp : GivenUp lost := by
      rw [GivenUp, unanswered_of_forall concludes.unheard]
      exact some
    refine ⟨lost, .error tries givenUp fault, fun done => absurd givenUp done, ?_⟩
    · intro fails
      exact keyspace.trans (leftBy_of_unapplied concludes.unheard fails state.2.keyspace)

/-- A removal in batches: it has these attempts, and fails exactly when its last command
was given up, which is that of the batch after those that were answered.  The batches up to
there are removed, and the failed one is not unless it took effect. -/
structure Removes (pieces : List (List Bytes)) (before : State FaultyServer)
    (ended : Except StoreError Unit × State FaultyServer)
    (made : List (RedisCommand × AttemptFate)) : Prop extends Logged before ended made where
  whole : ¬GivenUp made → removals made = pieces.length ∧
    ended.2.2.keyspace = pieces.flatten.foldl Tree.erase before.2.keyspace
  failing : GivenUp made → ∃ piece, pieces[removals made]? = some piece ∧
    ∀ attempt ∈ unanswered made, attempt.1 = .del piece
  partly : FailsUnapplied made → ended.2.2.keyspace =
    (pieces.take (removals made)).flatten.foldl Tree.erase before.2.keyspace

theorem deleteBatches_removes (paging : Paging) (pieces : List (List Bytes))
    (state : State FaultyServer) :
    ∃ made, Removes pieces state (deleteBatches (FaultyServer.link paging) pieces state) made := by
  induction pieces generalizing state with
  | nil =>
    exact ⟨[], .ok (.refl state) rfl (), fun _ => ⟨rfl, rfl⟩, fun givenUp => absurd rfl givenUp,
      fun fails => absurd rfl fails.givenUp⟩
  | cons piece rest hypothesis =>
    rw [deleteBatches]
    rcases execute_concludes paging (.del piece) state with ⟨lost, concludes⟩
    rcases executed : execute (FaultyServer.link paging) (.del piece) state with ⟨result, between⟩
    rw [executed] at concludes
    rcases concludes.outcome with
      ⟨tries, keyspace, server, reply⟩ | ⟨tries, some, keyspace, fault, failed⟩
    · cases reply
      have answered := unanswered_answered (.del piece) lost
      have first : Logged state (.ok (), between) ((.del piece, .answered) :: lost) :=
        .ok tries answered ()
      have one : removals ((RedisCommand.del piece, AttemptFate.answered) :: lost) = 1 := by
        have none := removals_of_forall concludes.unheard
        rw [removals] at none
        rw [removals, List.countP_cons, none]
        rfl
      rcases hypothesis between with ⟨more, later⟩
      have count : removals (more ++ (.del piece, .answered) :: lost) = removals more + 1 := by
        rw [removals_append, one]
      refine ⟨more ++ (.del piece, .answered) :: lost, later.toLogged.following first, ?_, ?_, ?_⟩
      · intro done
        rw [GivenUp, unanswered_append answered] at done
        rcases later.whole done with ⟨all, removed⟩
        refine ⟨by rw [count, all, List.length_cons], ?_⟩
        rw [List.flatten_cons, List.foldl_append]
        exact removed.trans (by rw [keyspace, RedisCommand.effect_del])
      · intro givenUp
        rw [GivenUp, unanswered_append answered] at givenUp
        rw [count, unanswered_append answered, List.getElem?_cons_succ]
        exact later.failing givenUp
      · intro fails
        rw [failsUnapplied_append answered] at fails
        rw [count, List.take_succ_cons, List.flatten_cons, List.foldl_append]
        exact (later.partly fails).trans (by rw [keyspace, RedisCommand.effect_del])
    · cases failed
      have all := unanswered_of_forall concludes.unheard
      have givenUp : GivenUp lost := by
        rw [GivenUp, all]
        exact some
      have none := removals_of_forall concludes.unheard
      refine ⟨lost, .error tries givenUp fault, fun done => absurd givenUp done, ?_, ?_⟩
      · rw [none, all]
        exact fun _ => ⟨piece, rfl, concludes.same⟩
      · intro fails
        rw [none]
        exact keyspace.trans (leftBy_of_unapplied concludes.unheard fails state.2.keyspace)

/-- The first batches of a list hold its first keys. -/
theorem flatten_take_batches (fuel : Nat) (keys : List Bytes) (enough : keys.length ≤ fuel)
    (count : Nat) :
    ((batches fuel keys).take count).flatten = keys.take (count * deleteBatch) := by
  induction count generalizing fuel keys with
  | zero => simp
  | succ count hypothesis =>
    cases fuel with
    | zero =>
      rw [List.length_eq_zero_iff.mp (Nat.le_zero.mp enough)]
      simp [batches]
    | succ fuel =>
      cases keys with
      | nil => simp [batches]
      | cons key rest =>
        have left : ((key :: rest).drop deleteBatch).length ≤ fuel := by
          rw [List.length_drop, List.length_cons, deleteBatch]
          rw [List.length_cons] at enough
          omega
        have split : (count + 1) * deleteBatch = deleteBatch + count * deleteBatch := by
          rw [Nat.succ_mul, Nat.add_comm]
        rw [batches, List.take_succ_cons, List.flatten_cons, hypothesis fuel _ left, split,
          List.take_add]
        exact List.cons_ne_nil key rest

/-- The batch of a list after so many of them. -/
def batchAfter (count : Nat) (keys : List Bytes) : List Bytes :=
  (keys.drop (count * deleteBatch)).take deleteBatch

theorem eq_of_getElem?_batches {fuel : Nat} {keys piece : List Bytes} {count : Nat}
    (listed : (batches fuel keys)[count]? = some piece) : piece = batchAfter count keys := by
  induction count generalizing fuel keys with
  | zero =>
    cases fuel <;> cases keys <;> cases listed
    simp [batchAfter]
  | succ count hypothesis =>
    cases fuel <;> cases keys <;> try cases listed
    rw [hypothesis listed, batchAfter, batchAfter, List.drop_drop, Nat.succ_mul, Nat.add_comm]

/-- What is left of a keyspace when the removal of keys in batches fails at the batch after
those that were answered, and that one had no effect. -/
structure StopsAfter (keys : List Bytes) (before after : Tree)
    (made : List (RedisCommand × AttemptFate)) : Prop where
  failed : ∀ attempt ∈ unanswered made, attempt.1 = .del (batchAfter (removals made) keys)
  keyspace : after = (keys.take (removals made * deleteBatch)).foldl Tree.erase before

/-- A removal of keys in batches has removed all of them, or has failed and stopped. -/
structure RemovesInOrder (keys : List Bytes) (before after : State FaultyServer)
    (made : List (RedisCommand × AttemptFate)) : Prop extends Tries before after made where
  done : before.1.closed = false → ¬GivenUp made →
    after.2.keyspace = keys.foldl Tree.erase before.2.keyspace
  stops : FailsUnapplied made → StopsAfter keys before.2.keyspace after.2.keyspace made

theorem deleteRaw_removes (paging : Paging) (keys : List Bytes) (state : State FaultyServer) :
    ∃ made, RemovesInOrder keys state (deleteRaw (FaultyServer.link paging) keys state).2 made := by
  rcases deleteBatches_removes paging (batches keys.length keys) state with ⟨made, removes⟩
  refine ⟨made, removes.toTries, ?_, ?_⟩
  · intro _ done
    have removed := (removes.whole done).2
    rw [flatten_batches keys.length keys (Nat.le_refl _)] at removed
    exact removed
  · intro fails
    rcases removes.failing fails.givenUp with ⟨piece, listed, same⟩
    rw [eq_of_getElem?_batches listed] at same
    refine ⟨same, ?_⟩
    rw [← flatten_take_batches keys.length keys (Nat.le_refl _)]
    exact removes.partly fails

/-! ## Calls -/

/-- A call that only looks, and answers that there is nothing when it fails. -/
structure DegradesTo {α : Type} (nothing : α) (before : State FaultyServer)
    (ended : α × State FaultyServer) (made : List (RedisCommand × AttemptFate)) : Prop
    extends Looks before ended.2 made where
  empty : GivenUp made → ended.1 = nothing

/-- A call that writes has written, or has failed and left everything as it was. -/
structure Writes (written : Tree) (before after : State FaultyServer)
    (made : List (RedisCommand × AttemptFate)) : Prop extends Tries before after made where
  done : before.1.closed = false → ¬GivenUp made → after.2.keyspace = written
  undone : FailsUnapplied made → after.2.keyspace = before.2.keyspace

/-- The keyspace with an entry written, if its key can be written. -/
def replaced (codec : KeyCodec κ) (options : RedisOptions) (key : κ) (value : Bytes)
    (keyspace : Tree) : Tree :=
  match serverKey? codec options key with
  | none => keyspace
  | some serverKey => keyspace.insert serverKey value

/-- A call that sends nothing has not failed. -/
theorem not_failsUnapplied_nil : ¬FailsUnapplied [] :=
  fun fails => fails.givenUp rfl

theorem load_degrades (paging : Paging) (codec : KeyCodec κ) (key : κ)
    (state : State FaultyServer) :
    ∃ made, DegradesTo none state (load (FaultyServer.link paging) codec key state) made := by
  rw [load]
  split
  · exact ⟨[], .refl state, fun _ => rfl⟩
  · split
    · exact ⟨[], .refl state, fun _ => rfl⟩
    · next serverKey _ =>
      rcases execute_read paging (.get serverKey) rfl state with ⟨made, looks, logged, -⟩
      rcases executed : execute (FaultyServer.link paging) (.get serverKey) state with
        ⟨result, after⟩
      rw [executed] at looks logged
      cases result with
      | error fault => exact ⟨made, looks, fun _ => rfl⟩
      | ok reply =>
        have answered := unanswered_of_ok logged
        cases reply <;> exact ⟨made, looks, fun givenUp => absurd answered givenUp⟩

theorem store_writes (paging : Paging) (codec : KeyCodec κ) (key : κ) (value : Bytes)
    (state : State FaultyServer) :
    ∃ made, Writes (replaced codec state.1.options key value state.2.keyspace) state
      (store (FaultyServer.link paging) codec key value state) made := by
  rw [store]
  split
  · next closed => exact ⟨[], .refl state, by simp [closed], fun _ => rfl⟩
  · cases spelled : serverKey? codec state.1.options key with
    | none =>
      rw [replaced, spelled]
      exact ⟨[], .refl state, fun _ _ => rfl, fun _ => rfl⟩
    | some serverKey =>
      rw [replaced, spelled]
      rcases set_logged paging serverKey value false state with
        ⟨made, logged, written, unchanged⟩
      exact ⟨made, logged.toTries, fun _ => written, unchanged⟩

theorem storeIfAbsent_writes (paging : Paging) (codec : KeyCodec κ) (key : κ) (value : Bytes)
    (state : State FaultyServer) :
    ∃ made, Writes (inserted codec state.1.options key value state.2.keyspace) state
        (storeIfAbsent (FaultyServer.link paging) codec key value state).2 made ∧
      (GivenUp made →
        (storeIfAbsent (FaultyServer.link paging) codec key value state).1 = false) := by
  rw [storeIfAbsent]
  split
  · next closed => exact ⟨[], ⟨.refl state, by simp [closed], fun _ => rfl⟩, fun _ => rfl⟩
  · cases spelled : serverKey? codec state.1.options key with
    | none =>
      rw [inserted, spelled]
      exact ⟨[], ⟨.refl state, fun _ _ => rfl, fun _ => rfl⟩, fun _ => rfl⟩
    | some serverKey =>
      rw [inserted, spelled]
      rcases set_logged paging serverKey value true state with ⟨made, logged, written, unchanged⟩
      dsimp only
      rcases sent : set (FaultyServer.link paging) serverKey value true state with ⟨result, after⟩
      rw [sent] at logged written unchanged
      cases result with
      | error fault =>
        exact ⟨made, ⟨logged.toTries, fun _ => written, unchanged⟩, fun _ => rfl⟩
      | ok answer =>
        have answered := unanswered_of_ok logged
        exact ⟨made, ⟨logged.toTries, fun _ => written, unchanged⟩,
          fun givenUp => absurd answered givenUp⟩

theorem range_looks {α : Type} (paging : Paging) (codec : KeyCodec κ)
    (visit : Visitor κ Bytes α) (gathered : α) (state : State FaultyServer) :
    ∃ made, Looks state (range (FaultyServer.link paging) codec visit gathered state).2 made := by
  rw [range]
  split
  · exact ⟨[], .refl state⟩
  · exact rangeFrom_looks paging codec visit _ 0 [] gathered state

theorem next_degrades (paging : Paging) (codec : KeyCodec κ) (state : State FaultyServer) :
    ∃ made, Tries state (next (FaultyServer.link paging) codec state).2 made ∧
      Takes codec state (next (FaultyServer.link paging) codec state).2 made
        (next (FaultyServer.link paging) codec state).1 ∧
      (GivenUp made → (next (FaultyServer.link paging) codec state).1 = none ∧
        ((∀ attempt ∈ made, attempt.2 ≠ .lost true) →
          (next (FaultyServer.link paging) codec state).2.2.keyspace = state.2.keyspace)) := by
  rw [next]
  split
  · exact ⟨[], .refl state, .nothing rfl rfl, fun givenUp => absurd rfl givenUp⟩
  · rcases popFrom_pops paging codec ((FaultyServer.link paging).pageBound state.2) 0 state with
      ⟨made, pops⟩
    rcases popped : popFrom (FaultyServer.link paging) codec
      ((FaultyServer.link paging).pageBound state.2) 0 state with ⟨result, after⟩
    rw [popped] at pops
    cases result with
    | error fault =>
      have taken : after.2.keyspace = (unnoticed made).foldl Tree.erase state.2.keyspace :=
        pops.takes.taken
      refine ⟨made, pops.toTries, pops.takes, fun _ => ⟨rfl, ?_⟩⟩
      intro heard
      rw [taken, unnoticed_of_heard heard]
      rfl
    | ok entry =>
      have answered := unanswered_of_ok pops.toLogged
      exact ⟨made, pops.toTries, pops.takes, fun givenUp => absurd answered givenUp⟩

theorem keys_degrades (paging : Paging) (codec : KeyCodec κ) (state : State FaultyServer) :
    ∃ made, DegradesTo [] state (keys (FaultyServer.link paging) codec state) made := by
  rw [keys]
  split
  · exact ⟨[], .refl state, fun _ => rfl⟩
  · rcases scanKeys_looks paging state with ⟨made, looks, logged⟩
    rcases scanned : scanKeys (FaultyServer.link paging) state with ⟨result, after⟩
    rw [scanned] at looks logged
    cases result with
    | error fault => exact ⟨made, looks, fun _ => rfl⟩
    | ok found =>
      have answered := unanswered_of_ok logged
      exact ⟨made, looks, fun givenUp => absurd answered givenUp⟩

theorem len_degrades (paging : Paging) (codec : KeyCodec κ) (state : State FaultyServer) :
    ∃ made, DegradesTo 0 state (len (FaultyServer.link paging) codec state) made := by
  rcases keys_degrades paging codec state with ⟨made, looks, empty⟩
  exact ⟨made, looks, fun givenUp => congrArg List.length (empty givenUp)⟩

theorem delete_removes (paging : Paging) (codec : KeyCodec κ) (wanted : List κ)
    (state : State FaultyServer) :
    ∃ made, RemovesInOrder (wanted.filterMap (serverKey? codec state.1.options)) state
      (delete (FaultyServer.link paging) codec wanted state) made := by
  rw [delete]
  split
  · next idle =>
    refine ⟨[], .refl state, ?_, fun fails => absurd fails not_failsUnapplied_nil⟩
    intro opened _
    have nothing : wanted = [] := by simpa [opened] using idle
    rw [nothing]
    rfl
  · exact deleteRaw_removes paging _ state

/-- Nothing is removed before all pages of the scan are there. -/
theorem clear_of_scan_failed (paging : Paging) (codec : KeyCodec κ) {state : State FaultyServer}
    {fault : StoreError}
    (failed : (scanKeys (FaultyServer.link paging) state).1 = .error fault) :
    (clear (FaultyServer.link paging) codec state).2.keyspace = state.2.keyspace := by
  rw [clear]
  split
  · rfl
  · rcases scanKeys_looks paging state with ⟨made, looks, -⟩
    rcases scanned : scanKeys (FaultyServer.link paging) state with ⟨result, between⟩
    rw [scanned] at looks failed
    cases failed
    exact looks.keyspace

theorem clear_removes (paging : Paging) (codec : KeyCodec κ) {state : State FaultyServer}
    {found : List Bytes} (scans : (scanKeys (FaultyServer.link paging) state).1 = .ok found) :
    ∃ made, RemovesInOrder
      (found.filter fun serverKey => (ownedKey? codec state.1.options serverKey).isSome) state
      (clear (FaultyServer.link paging) codec state) made := by
  rw [clear]
  split
  · next closed =>
    exact ⟨[], .refl state, by simp [closed], fun fails => absurd fails not_failsUnapplied_nil⟩
  · next opened =>
    rcases scanKeys_looks paging state with ⟨scanMade, looks, logged⟩
    rcases scanned : scanKeys (FaultyServer.link paging) state with ⟨result, between⟩
    rw [scanned] at looks logged scans
    cases scans
    have answered := unanswered_of_ok logged
    dsimp only
    rw [looks.options]
    rcases deleteRaw_removes paging (found.filter fun serverKey =>
      (ownedKey? codec state.1.options serverKey).isSome) between with ⟨made, removes⟩
    have count : removals (made ++ scanMade) = removals made := by
      rw [removals_append, looks.removals_eq_zero, Nat.add_zero]
    refine ⟨made ++ scanMade, removes.toTries.trans looks.toTries, ?_, ?_⟩
    · intro _ done
      rw [GivenUp, unanswered_append answered] at done
      rw [← looks.keyspace]
      exact removes.done (looks.closed.trans (Bool.eq_false_iff.mpr opened)) done
    · intro fails
      rw [failsUnapplied_append answered] at fails
      have stops := removes.stops fails
      refine ⟨?_, ?_⟩
      · rw [unanswered_append answered, count]
        exact stops.failed
      · rw [count, ← looks.keyspace]
        exact stops.keyspace

/-- A failure degrades to an empty answer and touches nothing else, whatever the server
holds, however its scans are answered and wherever the failure strikes.  Calls that only
look never change the server, and answer that there is nothing when their last command was
given up.  A call that writes has no effect unless that command had one.  Taking an entry
removes what it hands over and what earlier attempts removed without their replies
arriving, and hands over nothing when it fails.  A removal of many keys goes through the
batches of its list in order and stops at the one that fails.  Clearing removes nothing
when its scan fails. -/
theorem failures_degrade (paging : Paging) (codec : KeyCodec κ) (state : State FaultyServer) :
    (∀ key, ∃ made,
      DegradesTo none state (load (FaultyServer.link paging) codec key state) made) ∧
    (∀ key value, ∃ made,
      Writes (replaced codec state.1.options key value state.2.keyspace) state
        (store (FaultyServer.link paging) codec key value state) made) ∧
    (∀ key value, ∃ made,
      Writes (inserted codec state.1.options key value state.2.keyspace) state
        (storeIfAbsent (FaultyServer.link paging) codec key value state).2 made ∧
      (GivenUp made →
        (storeIfAbsent (FaultyServer.link paging) codec key value state).1 = false)) ∧
    (∀ {α : Type} (visit : Visitor κ Bytes α) (gathered : α), ∃ made,
      Looks state (range (FaultyServer.link paging) codec visit gathered state).2 made) ∧
    (∃ made, Tries state (next (FaultyServer.link paging) codec state).2 made ∧
      Takes codec state (next (FaultyServer.link paging) codec state).2 made
        (next (FaultyServer.link paging) codec state).1 ∧
      (GivenUp made → (next (FaultyServer.link paging) codec state).1 = none ∧
        ((∀ attempt ∈ made, attempt.2 ≠ .lost true) →
          (next (FaultyServer.link paging) codec state).2.2.keyspace = state.2.keyspace))) ∧
    (∃ made, DegradesTo [] state (keys (FaultyServer.link paging) codec state) made) ∧
    (∃ made, DegradesTo 0 state (len (FaultyServer.link paging) codec state) made) ∧
    (∀ wanted, ∃ made,
      RemovesInOrder (wanted.filterMap (serverKey? codec state.1.options)) state
        (delete (FaultyServer.link paging) codec wanted state) made) ∧
    (∀ fault, (scanKeys (FaultyServer.link paging) state).1 = .error fault →
      (clear (FaultyServer.link paging) codec state).2.keyspace = state.2.keyspace) ∧
    ∀ found, (scanKeys (FaultyServer.link paging) state).1 = .ok found → ∃ made,
      RemovesInOrder
        (found.filter fun serverKey => (ownedKey? codec state.1.options serverKey).isSome) state
        (clear (FaultyServer.link paging) codec state) made :=
  ⟨fun key => load_degrades paging codec key state,
    fun key value => store_writes paging codec key value state,
    fun key value => storeIfAbsent_writes paging codec key value state,
    fun visit gathered => range_looks paging codec visit gathered state,
    next_degrades paging codec state, keys_degrades paging codec state,
    len_degrades paging codec state, fun wanted => delete_removes paging codec wanted state,
    fun _ failed => clear_of_scan_failed paging codec failed,
    fun _ scans => clear_removes paging codec scans⟩

/-- A thousand and one removals of one key take two batches.  No answer comes to the
second one. -/
theorem second_batch_fails :
    (delete (FaultyServer.link wholePage) Schema.text.keyCodec (List.replicate 1001 (.text "a"))
        (onTwoEntries [.answered, .silent])).2.keyspace =
      (((List.replicate 1001 (Datum.text "a")).filterMap
        (serverKey? Schema.text.keyCodec (onTwoEntries []).1.options)).take 1000).foldl Tree.erase
          (onTwoEntries []).2.keyspace := by
  rcases (failures_degrade wholePage Schema.text.keyCodec
    (onTwoEntries [.answered, .silent])).2.2.2.2.2.2.2.1 (List.replicate 1001 (.text "a")) with
    ⟨made, removes⟩
  have attempts : (delete (FaultyServer.link wholePage) Schema.text.keyCodec
      (List.replicate 1001 (.text "a")) (onTwoEntries [.answered, .silent])).2.attempts = made :=
    removes.attempts.trans (List.append_nil made)
  have fails : FailsUnapplied (delete (FaultyServer.link wholePage) Schema.text.keyCodec
      (List.replicate 1001 (.text "a")) (onTwoEntries [.answered, .silent])).2.attempts := by
    constructor
    · decide +kernel
    · decide +kernel
  have one : removals (delete (FaultyServer.link wholePage) Schema.text.keyCodec
      (List.replicate 1001 (.text "a")) (onTwoEntries [.answered, .silent])).2.attempts = 1 := by
    decide +kernel
  rw [attempts] at fails one
  have kept := (removes.stops fails).keyspace
  rw [one] at kept
  exact kept

end Redis
end TypedStore
