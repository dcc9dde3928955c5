import TypedStore.Proofs.Redis.Attempts

/-!
# What retried calls report

Two commands are not the same when they are tried again: inserting under an
absent key, and taking a value out.  If the first attempt takes effect and its
reply is lost, the second one finds the work done and is answered as if there
had been nothing to do.

`ReportsInsertion` and `ReportsRemoval` say what the answers of `storeIfAbsent`
and `next` are meant to tell.  On a server within the budget of the handle they
do tell it unless such a loss struck, and `calls_report_iff` says exactly when.
Even then nothing is written or removed that the call is not about.
-/

namespace TypedStore
namespace Redis

variable {κ : Type} {codec : KeyCodec κ} {paging : Paging}
 {state before between after : State FaultyServer}
  {made more : List (RedisCommand × AttemptFate)}

/-- The handle is open, and the server answers within its budget. -/
structure Serviceable (state : State FaultyServer) : Prop where
  opened : state.1.closed = false
  withinBudget : AttemptFate.withinBudget state.1.options.maxRetries.toNat
    state.1.options.maxRetries.toNat state.2.fates = true

/-- The answer of an insertion says whether the call made the entry. -/
def ReportsInsertion (codec : KeyCodec κ) (key : κ) (value : Bytes) (before : State FaultyServer)
    (answered : Bool × State FaultyServer) : Prop :=
  answered.1 = true ↔ ∃ serverKey, serverKey? codec before.1.options key = some serverKey ∧
    before.2.keyspace.get? serverKey = none ∧
    answered.2.2.keyspace.get? serverKey = some value

/-- The entry answered is the only one removed. -/
def ReportsRemoval (codec : KeyCodec κ) (before : State FaultyServer) :
    Option (κ × Bytes) × State FaultyServer → Prop
  | (none, after) => after.2.keyspace = before.2.keyspace
  | (some entry, after) => ∃ serverKey,
    entryAt? codec before.1.options before.2.keyspace serverKey = some entry ∧
      after.2.keyspace = before.2.keyspace.erase serverKey

theorem Spends.refl (serviceable : Serviceable state) : Spends state state [] :=
  ⟨rfl, rfl, rfl, serviceable.withinBudget⟩

theorem Spends.serviceable (spends : Spends before after made) (serviceable : Serviceable before) :
    Serviceable after :=
  ⟨spends.closed.trans serviceable.opened, spends.withinBudget⟩

/-! ## Inserting -/

/-- An insertion is made once; it is reported unless it was made unnoticed. -/
theorem set_onlyIfAbsent (paging : Paging) (serviceable : Serviceable state)
    (serverKey value : Bytes) :
    ∃ made after, Spends state after made ∧
      after.2.keyspace = (if (state.2.keyspace.get? serverKey).isSome then state.2.keyspace
        else state.2.keyspace.insert serverKey value) ∧
      ∃ inserted, set (FaultyServer.link paging) serverKey value true state =
          (.ok inserted, after) ∧
        (inserted = true ↔ state.2.keyspace.get? serverKey = none ∧
          ∀ attempt ∈ made, attempt.2 ≠ .lost true) := by
  generalize asked : RedisCommand.set serverKey value true state.1.options.expireMillis = command
  rcases execute_answered paging command serviceable.withinBudget with
    ⟨made, after, server, spends, same, _, keyspace, executed⟩
  have noticed : (∀ attempt ∈ made, attempt.2 ≠ .lost true) ↔ (command, .lost true) ∉ made := by
    constructor
    · exact fun all member => all _ member rfl
    · rintro unlost ⟨tried, fate⟩ member lost
      rw [← same _ member, ← lost] at unlost
      exact unlost member
  have effect := RedisCommand.effect_set serverKey value true state.1.options.expireMillis
    state.2.keyspace
  rw [asked, Bool.true_and] at effect
  have written : (command.effect state.2.keyspace).get? serverKey ≠ none := by
    intro absent
    rw [effect] at absent
    split at absent
    · next present =>
      rw [absent] at present
      cases present
    · rw [Tree.get?_insert, if_pos rfl] at absent
      cases absent
  refine ⟨made, after, spends, keyspace.trans effect, ?_⟩
  rw [set, asked, executed, noticed]
  refine ⟨_, rfl, ?_⟩
  rw [← asked, RedisCommand.apply, Bool.true_and, asked]
  by_cases lost : (command, AttemptFate.lost true) ∈ made
  · -- The answer is that of a second insertion.
    have isWritten := Option.isSome_iff_ne_none.mpr written
    rw [if_pos lost, if_pos isWritten]
    exact ⟨fun impossible => absurd impossible Bool.false_ne_true, fun both => absurd lost both.2⟩
  · rw [if_neg lost]
    cases found : state.2.keyspace.get? serverKey with
    | none => exact ⟨fun _ => ⟨rfl, lost⟩, fun _ => rfl⟩
    | some old =>
      exact ⟨fun impossible => absurd impossible Bool.false_ne_true, fun both => by cases both.1⟩

/-! ## Taking an entry -/

/-- The key that an attempt removed without the handle noticing. -/
def unnoticedRemoval? : RedisCommand × AttemptFate → Option Bytes
  | (.getdel key, .lost true) => some key
  | _ => none

/-- The keys that attempts removed without the handle noticing. -/
def unnoticed (made : List (RedisCommand × AttemptFate)) : List Bytes :=
  made.filterMap unnoticedRemoval?

/-- What is gone after taking an entry: the entry, and what was removed unnoticed. -/
structure Takes (codec : KeyCodec κ) (before after : State FaultyServer)
    (made : List (RedisCommand × AttemptFate)) (entry : Option (κ × Bytes)) : Prop where
  owned : ∀ serverKey ∈ unnoticed made,
    (ownedKey? codec before.1.options serverKey).isSome = true
  taken : match entry with
    | none => after.2.keyspace = (unnoticed made).foldl Tree.erase before.2.keyspace
    | some entry => ∃ serverKey, serverKey ∉ unnoticed made ∧
      entryAt? codec before.1.options before.2.keyspace serverKey = some entry ∧
      after.2.keyspace = (serverKey :: unnoticed made).foldl Tree.erase before.2.keyspace

theorem Takes.nothing {codec : KeyCodec κ} (silent : unnoticed made = [])
    (same : after.2.keyspace = before.2.keyspace) : Takes codec before after made none := by
  refine ⟨?_, ?_⟩
  · intro serverKey member
    rw [silent] at member
    cases member
  · rw [silent]
    exact same

/-- What was removed unnoticed before an entry is taken is gone as well. -/
theorem Takes.after_none {entry : Option (κ × Bytes)} (later : Takes codec between after more entry)
    (options : between.1.options = before.1.options)
    (earlier : Takes codec before between made none) :
    Takes codec before after (more ++ made) entry := by
  have together : unnoticed (more ++ made) = unnoticed more ++ unnoticed made :=
    List.filterMap_append
  have between_eq : between.2.keyspace = (unnoticed made).foldl Tree.erase before.2.keyspace :=
    earlier.taken
  refine ⟨?_, ?_⟩
  · intro serverKey member
    rw [together] at member
    rcases List.mem_append.mp member with new | old
    · rw [← options]
      exact later.owned serverKey new
    · exact earlier.owned serverKey old
  · rw [together]
    cases entry with
    | none =>
      have last : after.2.keyspace = (unnoticed more).foldl Tree.erase between.2.keyspace :=
        later.taken
      dsimp only
      rw [last, between_eq, ← List.foldl_append]
      exact Tree.foldl_erase_congr (fun key => by rw [List.mem_append, List.mem_append, or_comm]) _
    | some entry =>
      rcases later.taken with ⟨serverKey, unlost, held, last⟩
      rw [options, between_eq] at held
      rcases Option.bind_eq_some_iff.mp held with ⟨key, owned, mapped⟩
      rcases Option.map_eq_some_iff.mp mapped with ⟨value, found, same⟩
      rw [Tree.get?_foldl_erase] at found
      by_cases before_lost : serverKey ∈ unnoticed made
      · rw [if_pos before_lost] at found
        cases found
      · rw [if_neg before_lost] at found
        refine ⟨serverKey, ?_, ?_, ?_⟩
        · exact fun member => (List.mem_append.mp member).elim unlost before_lost
        · rw [entryAt?, owned, found]
          exact congrArg some same
        · rw [last, between_eq, ← List.foldl_append]
          apply Tree.foldl_erase_congr
          intro key
          rw [List.mem_append, List.mem_cons, List.mem_cons, List.mem_append]
          tauto

/-- Only the entry is gone exactly if nothing was removed unnoticed. -/
theorem Takes.reports_iff {entry : Option (κ × Bytes)}
    (takes : Takes codec before after made entry) :
    ReportsRemoval codec before (entry, after) ↔
      ∀ serverKey ∈ unnoticed made, before.2.keyspace.get? serverKey = none := by
  cases entry with
  | none =>
    have gone : after.2.keyspace = (unnoticed made).foldl Tree.erase before.2.keyspace :=
      takes.taken
    change after.2.keyspace = before.2.keyspace ↔ _
    rw [gone]
    exact Tree.foldl_erase_eq_self_iff
  | some entry =>
    rcases takes.taken with ⟨serverKey, unlost, held, gone⟩
    rw [List.foldl_cons] at gone
    have apart : ∀ lostKey ∈ unnoticed made, lostKey ≠ serverKey := by
      rintro lostKey member rfl
      exact unlost member
    have settles : after.2.keyspace = before.2.keyspace.erase serverKey ↔
        ∀ lostKey ∈ unnoticed made, before.2.keyspace.get? lostKey = none := by
      rw [gone, Tree.foldl_erase_eq_self_iff]
      apply forall₂_congr
      intro lostKey member
      rw [Tree.get?_erase, if_neg (apart lostKey member)]
    constructor
    · rintro ⟨other, _, erased⟩
      have same : serverKey = other := by
        by_contra different
        have absent : after.2.keyspace.get? serverKey = none := by
          rw [gone, Tree.get?_foldl_erase, if_neg unlost, Tree.get?_erase, if_pos rfl]
        rw [erased, Tree.get?_erase, if_neg different] at absent
        rcases Option.bind_eq_some_iff.mp held with ⟨key, -, mapped⟩
        rw [absent] at mapped
        cases mapped
      rw [← same] at erased
      exact settles.mp erased
    · exact fun absent => ⟨serverKey, held, settles.mpr absent⟩

/-- Attempts at taking one key out remove that key unnoticed or none. -/
theorem mem_unnoticed_getdel {serverKey lostKey : Bytes}
    (same : ∀ attempt ∈ made, attempt.1 = .getdel serverKey) :
    lostKey ∈ unnoticed made ↔
      lostKey = serverKey ∧ (RedisCommand.getdel serverKey, AttemptFate.lost true) ∈ made := by
  constructor
  · intro member
    rcases List.mem_filterMap.mp member with ⟨⟨command, fate⟩, tried, removal⟩
    obtain rfl : command = .getdel serverKey := same _ tried
    cases fate with
    | lost applied =>
      cases applied with
      | true => exact ⟨(Option.some.inj removal).symm, tried⟩
      | false => cases removal
    | _ => cases removal
  · rintro ⟨rfl, tried⟩
    exact List.mem_filterMap.mpr ⟨_, tried, rfl⟩

/-- Attempts at taking one key out that hand nothing over remove the key unnoticed or not
at all. -/
theorem takes_of_leftBy {serverKey : Bytes} {key : κ}
    (owned : ownedKey? codec before.1.options serverKey = some key)
    (same : ∀ attempt ∈ made, attempt.1 = .getdel serverKey)
    (left : after.2.keyspace = leftBy (.getdel serverKey) made before.2.keyspace) :
    Takes codec before after made none := by
  have only : ∀ lostKey, lostKey ∈ unnoticed made ↔ lostKey = serverKey ∧
      (RedisCommand.getdel serverKey, AttemptFate.lost true) ∈ made :=
    fun lostKey => mem_unnoticed_getdel same
  by_cases lost : (RedisCommand.getdel serverKey, AttemptFate.lost true) ∈ made
  · rw [leftBy, if_pos lost, RedisCommand.effect_getdel] at left
    refine ⟨?_, ?_⟩
    · intro lostKey member
      rw [((only lostKey).mp member).1, owned]
      rfl
    · have removed : ∀ lostKey, lostKey ∈ [serverKey] ↔ lostKey ∈ unnoticed made := by
        intro lostKey
        rw [only, List.mem_singleton, and_iff_left lost]
      exact left.trans (Tree.foldl_erase_congr removed before.2.keyspace)
  · rw [leftBy, if_neg lost] at left
    apply Takes.nothing _ left
    apply List.eq_nil_iff_forall_not_mem.mpr
    exact fun lostKey member => lost ((only lostKey).mp member).2

/-- What is taken out at the first attempt that reaches the server is all that is gone. -/
theorem takes_of_unlost {serverKey value : Bytes} {key : κ}
    (owned : ownedKey? codec before.1.options serverKey = some key)
    (same : ∀ attempt ∈ made, attempt.1 = .getdel serverKey)
    (unlost : (RedisCommand.getdel serverKey, AttemptFate.lost true) ∉ made)
    (found : before.2.keyspace.get? serverKey = some value)
    (erased : after.2.keyspace = before.2.keyspace.erase serverKey) :
    Takes codec before after made (some (key, value)) := by
  have silent : unnoticed made = [] :=
    List.eq_nil_iff_forall_not_mem.mpr fun lostKey member =>
      unlost ((mem_unnoticed_getdel same).mp member).2
  refine ⟨by simp [silent], serverKey, by simp [silent], ?_, ?_⟩
  · rw [entryAt?, owned, found]
    rfl
  · rw [silent, erased]
    rfl

/-- A value is taken out once; a handle that did not notice finds nothing. -/
theorem getdel_taken (paging : Paging) (serviceable : Serviceable state) {serverKey : Bytes}
    {key : κ} (owned : ownedKey? codec state.1.options serverKey = some key) :
    ∃ made after, Spends state after made ∧
      ((∃ value, execute (FaultyServer.link paging) (.getdel serverKey) state =
          (.ok (.bulk value), after) ∧ Takes codec state after made (some (key, value))) ∨
        execute (FaultyServer.link paging) (.getdel serverKey) state = (.ok .nil, after) ∧
          Takes codec state after made none) := by
  rcases execute_answered paging (.getdel serverKey) serviceable.withinBudget with
    ⟨made, after, server, spends, same, _, keyspace, executed⟩
  rw [RedisCommand.effect_getdel] at keyspace executed
  refine ⟨made, after, spends, ?_⟩
  rw [executed]
  by_cases lost : (RedisCommand.getdel serverKey, AttemptFate.lost true) ∈ made
  · -- The attempt that is answered finds the key removed.
    refine .inr ⟨?_, takes_of_leftBy owned same ?_⟩
    · rw [if_pos lost, RedisCommand.apply, Tree.get?_erase, if_pos rfl]
    · rw [leftBy, if_pos lost, RedisCommand.effect_getdel]
      exact keyspace
  · rw [if_neg lost, RedisCommand.apply]
    cases found : state.2.keyspace.get? serverKey with
    | none =>
      refine .inr ⟨rfl, takes_of_leftBy owned same ?_⟩
      rw [leftBy, if_neg lost, keyspace, Tree.erase_of_absent found]
    | some value => exact .inl ⟨value, rfl, takes_of_unlost owned same lost found keyspace⟩

/-- A page is gone through up to the first key whose value is handed over. -/
theorem popFromPage_takes (paging : Paging) (codec : KeyCodec κ) (page : List Bytes)
    {state : State FaultyServer} (serviceable : Serviceable state) :
    ∃ made after entry, popFromPage (FaultyServer.link paging) codec page state =
      (.ok entry, after) ∧ Spends state after made ∧ Takes codec state after made entry := by
  induction page generalizing state with
  | nil => exact ⟨[], state, none, rfl, .refl serviceable, .nothing rfl rfl⟩
  | cons serverKey rest hypothesis =>
    cases owned : ownedKey? codec state.1.options serverKey with
    | none =>
      rw [popFromPage, owned]
      exact hypothesis serviceable
    | some key =>
      rw [popFromPage, owned]
      dsimp only
      rcases getdel_taken paging serviceable owned with
        ⟨made, after, spends, ⟨value, executed, takes⟩ | ⟨executed, takes⟩⟩
      · rw [executed]
        exact ⟨made, after, some (key, value), rfl, spends, takes⟩
      · rw [executed]
        rcases hypothesis (spends.serviceable serviceable) with
          ⟨more, last, entry, popped, laterSpends, laterTakes⟩
        exact ⟨more ++ made, last, entry, popped, laterSpends.trans spends,
          laterTakes.after_none spends.options takes⟩

/-- A page of a scan is answered, and scanning removes nothing. -/
theorem scanPage_answered (paging : Paging) (codec : KeyCodec κ) (cursor : UInt64)
    (serviceable : Serviceable state) :
    ∃ made after next page, scanPage (FaultyServer.link paging) cursor state =
      (.ok (next, page), after) ∧ Spends state after made ∧ Takes codec state after made none := by
  rcases execute_answered paging
    (.scan cursor state.1.options.pattern state.1.options.pageSize) serviceable.withinBudget with
    ⟨made, after, server, spends, same, _, keyspace, executed⟩
  refine ⟨made, after,
    (paging.page server cursor state.1.options.pattern state.1.options.pageSize).1,
    (paging.page server cursor state.1.options.pattern state.1.options.pageSize).2, ?_, spends,
    .nothing ?_ keyspace⟩
  · rw [scanPage, executed]
    rfl
  · apply List.filterMap_eq_nil_iff.mpr
    rintro ⟨command, fate⟩ tried
    have command_eq : command = .scan cursor state.1.options.pattern state.1.options.pageSize :=
      same _ tried
    subst command_eq
    rfl

/-- However many pages it takes, at most one value is handed over. -/
theorem popFrom_takes (paging : Paging) (codec : KeyCodec κ) (pages : Nat) (cursor : UInt64)
    {state : State FaultyServer} (serviceable : Serviceable state) :
    ∃ made after entry, popFrom (FaultyServer.link paging) codec pages cursor state =
      (.ok entry, after) ∧ Spends state after made ∧ Takes codec state after made entry := by
  induction pages generalizing state cursor with
  | zero => exact ⟨[], state, none, rfl, .refl serviceable, .nothing rfl rfl⟩
  | succ pages hypothesis =>
    rcases scanPage_answered paging codec cursor serviceable with
      ⟨scanMade, scanned, next, page, found, scanSpends, scanTakes⟩
    rcases popFromPage_takes paging codec page (scanSpends.serviceable serviceable) with
      ⟨pageMade, after, entry, popped, pageSpends, pageTakes⟩
    have spends := pageSpends.trans scanSpends
    have takes := pageTakes.after_none scanSpends.options scanTakes
    rw [popFrom, found]
    dsimp only
    rw [popped]
    cases entry with
    | some entry => exact ⟨_, after, some entry, rfl, spends, takes⟩
    | none =>
      dsimp only
      by_cases last : next = 0
      · rw [if_pos last]
        exact ⟨_, after, none, rfl, spends, takes⟩
      · rw [if_neg last]
        rcases hypothesis next (spends.serviceable serviceable) with
          ⟨more, final, entry, rest, laterSpends, laterTakes⟩
        exact ⟨more ++ (pageMade ++ scanMade), final, entry, rest, laterSpends.trans spends,
          laterTakes.after_none spends.options takes⟩

/-! ## Calls -/

/-- The keyspace with an entry inserted, if its key can be written and is absent. -/
def inserted (codec : KeyCodec κ) (options : RedisOptions) (key : κ) (value : Bytes)
    (keyspace : Tree) : Tree :=
  match serverKey? codec options key with
  | none => keyspace
  | some serverKey =>
    if (keyspace.get? serverKey).isSome then keyspace else keyspace.insert serverKey value

/-- An insertion is made as it should be, and is reported unless it was made unnoticed. -/
theorem storeIfAbsent_reports_iff (paging : Paging) (codec : KeyCodec κ)
    (serviceable : Serviceable state) (key : κ) (value : Bytes) :
    ∃ made after answer,
      storeIfAbsent (FaultyServer.link paging) codec key value state = (answer, after) ∧
      after.2.attempts = made ++ state.2.attempts ∧
      after.2.keyspace = inserted codec state.1.options key value state.2.keyspace ∧
      (ReportsInsertion codec key value state (answer, after) ↔
        ∀ serverKey, serverKey? codec state.1.options key = some serverKey →
          state.2.keyspace.get? serverKey = none → ∀ attempt ∈ made, attempt.2 ≠ .lost true) := by
  rw [storeIfAbsent, serviceable.opened, if_neg Bool.false_ne_true, inserted]
  cases spelled : serverKey? codec state.1.options key with
  | none =>
    refine ⟨[], state, false, rfl, rfl, rfl, ⟨fun _ _ impossible => (by cases impossible), ?_⟩⟩
    refine fun _ => ⟨fun impossible => absurd impossible Bool.false_ne_true, ?_⟩
    rintro ⟨serverKey, written, _⟩
    rw [spelled] at written
    cases written
  | some serverKey =>
    rcases set_onlyIfAbsent paging serviceable serverKey value with
      ⟨made, after, spends, keyspace, answer, written, noticed⟩
    dsimp only
    rw [written]
    have created : (∃ other, serverKey? codec state.1.options key = some other ∧
        state.2.keyspace.get? other = none ∧ after.2.keyspace.get? other = some value) ↔
        state.2.keyspace.get? serverKey = none := by
      constructor
      · rintro ⟨other, same, absent, _⟩
        rw [spelled] at same
        rw [Option.some.inj same]
        exact absent
      · intro absent
        refine ⟨serverKey, spelled, absent, ?_⟩
        rw [keyspace, absent, Option.isSome_none, if_neg Bool.false_ne_true, Tree.get?_insert,
          if_pos rfl]
    refine ⟨made, after, answer, rfl, spends.attempts, keyspace, ?_⟩
    rw [ReportsInsertion, created, noticed]
    constructor
    · rintro reports other same absent
      rw [Option.some.inj same] at reports
      exact (reports.mpr absent).2
    · exact fun all => ⟨And.left, fun absent => ⟨absent, all serverKey rfl absent⟩⟩

/-- At most one entry is handed over, and it is all that is removed unless an
attempt removed an entry unnoticed. -/
theorem next_reports_iff (paging : Paging) (codec : KeyCodec κ) (serviceable : Serviceable state) :
    ∃ made after entry, next (FaultyServer.link paging) codec state = (entry, after) ∧
      after.2.attempts = made ++ state.2.attempts ∧ Takes codec state after made entry ∧
      (ReportsRemoval codec state (entry, after) ↔
        ∀ serverKey ∈ unnoticed made, state.2.keyspace.get? serverKey = none) := by
  rcases popFrom_takes paging codec ((FaultyServer.link paging).pageBound state.2) 0 serviceable
    with ⟨made, after, entry, popped, spends, takes⟩
  refine ⟨made, after, entry, ?_, spends.attempts, takes, ?_⟩
  · rw [next, serviceable.opened, if_neg Bool.false_ne_true, popped]
  · exact takes.reports_iff

/-- Tried again within the budget, an insertion and the taking of an entry do what
they are asked to do.  They report it exactly when no attempt made the entry, or
removed one, without its reply arriving. -/
theorem calls_report_iff (paging : Paging) (codec : KeyCodec κ) {state : State FaultyServer}
    (serviceable : Serviceable state) :
    (∀ key value, ∃ made after answer,
      storeIfAbsent (FaultyServer.link paging) codec key value state = (answer, after) ∧
      after.2.attempts = made ++ state.2.attempts ∧
      after.2.keyspace = inserted codec state.1.options key value state.2.keyspace ∧
      (ReportsInsertion codec key value state (answer, after) ↔
        ∀ serverKey, serverKey? codec state.1.options key = some serverKey →
          state.2.keyspace.get? serverKey = none → ∀ attempt ∈ made, attempt.2 ≠ .lost true)) ∧
    ∃ made after entry, next (FaultyServer.link paging) codec state = (entry, after) ∧
      after.2.attempts = made ++ state.2.attempts ∧ Takes codec state after made entry ∧
      (ReportsRemoval codec state (entry, after) ↔
        ∀ serverKey ∈ unnoticed made, state.2.keyspace.get? serverKey = none) :=
  ⟨fun key value => storeIfAbsent_reports_iff paging codec serviceable key value,
    next_reports_iff paging codec serviceable⟩

/-- All keys on one page. -/
def wholePage : Paging where
  page server _ pattern _ :=
    (0, (server.keyspace.entries.map Prod.fst).filter (Glob.isMatch pattern))
  pageBound _ := 1
  entryBound server := server.keyspace.size

/-- A handle on an empty server. -/
def onEmpty (fates : List AttemptFate) : State FaultyServer :=
  (connected {}, { keyspace := .empty, fates })

/-- A handle on a server with two entries. -/
def onTwoEntries (fates : List AttemptFate) : State FaultyServer :=
  (connected {}, {
    keyspace := (Tree.empty.insert (Bytes.utf8 "tidemap_" ++ [161, 97]) [1]).insert
      (Bytes.utf8 "tidemap_" ++ [161, 98]) [2]
    fates })

/-- An insertion whose first attempt did not reach the server is reported. -/
theorem dropped_insertion_reported :
    ReportsInsertion Schema.text.keyCodec (.text "a") [1] (onEmpty [.lost false])
      (storeIfAbsent (FaultyServer.link wholePage) Schema.text.keyCodec (.text "a") [1]
        (onEmpty [.lost false])) := by
  have serviceable : Serviceable (onEmpty [.lost false]) := ⟨rfl, by decide +kernel⟩
  rcases (calls_report_iff wholePage Schema.text.keyCodec serviceable).1 (.text "a") [1] with
    ⟨made, after, answer, called, attempts, _, reports⟩
  have fates : (storeIfAbsent (FaultyServer.link wholePage) Schema.text.keyCodec (.text "a") [1]
      (onEmpty [.lost false])).2.2.attempts.map Prod.snd = [.answered, .lost false] := by
    decide +kernel
  rw [called, attempts] at fates
  rw [called]
  refine reports.mpr fun _ _ _ attempt member => ?_
  have tried : attempt ∈ made ++ (onEmpty [.lost false]).2.attempts :=
    List.mem_append_left _ member
  have fate := List.mem_map_of_mem (f := Prod.snd) tried
  rw [fates] at fate
  intro lost
  rw [lost] at fate
  exact absurd fate (by decide)

/-- If the reply to the first attempt is lost after the command took effect, an
insertion answers that the entry was there, and of two entries one is answered and
both are removed. -/
theorem lost_replies_mislead :
    (∃ state, Serviceable state ∧ ¬ReportsInsertion Schema.text.keyCodec (.text "a") [1] state
      (storeIfAbsent (FaultyServer.link wholePage) Schema.text.keyCodec (.text "a") [1] state)) ∧
    ∃ state, Serviceable state ∧ ¬ReportsRemoval Schema.text.keyCodec state
      (next (FaultyServer.link wholePage) Schema.text.keyCodec state) := by
  refine ⟨⟨onEmpty [.lost true], ⟨rfl, by decide +kernel⟩, ?_⟩,
    onTwoEntries [.answered, .lost true], ⟨rfl, by decide +kernel⟩, ?_⟩
  · have answered : (storeIfAbsent (FaultyServer.link wholePage) Schema.text.keyCodec (.text "a")
        [1] (onEmpty [.lost true])).1 = false := by decide +kernel
    have made : (storeIfAbsent (FaultyServer.link wholePage) Schema.text.keyCodec (.text "a")
        [1] (onEmpty [.lost true])).2.2.keyspace.get? (Bytes.utf8 "tidemap_" ++ [161, 97]) =
          some [1] := by decide +kernel
    intro reports
    rw [ReportsInsertion, answered] at reports
    exact Bool.false_ne_true (reports.mpr ⟨_, by decide +kernel, by decide +kernel, made⟩)
  · have answered : (next (FaultyServer.link wholePage) Schema.text.keyCodec
        (onTwoEntries [.answered, .lost true])).1 = some (.text "b", [2]) := by decide +kernel
    have emptied : (next (FaultyServer.link wholePage) Schema.text.keyCodec
        (onTwoEntries [.answered, .lost true])).2.2.keyspace.size = 0 := by decide +kernel
    have before : (onTwoEntries [.answered, .lost true]).2.keyspace.size = 2 := by decide +kernel
    intro reports
    rcases taken : next (FaultyServer.link wholePage) Schema.text.keyCodec
      (onTwoEntries [.answered, .lost true]) with ⟨entry, after⟩
    rw [taken] at answered emptied reports
    dsimp only at answered
    rw [answered] at reports
    rcases reports with ⟨serverKey, _, gone⟩
    rw [gone, Tree.size_erase, before] at emptied
    split at emptied <;> cases emptied

end Redis
end TypedStore
