import TypedStore.Proofs.Redis.Listings

/-!
# Two maps on one server

A map reaches a key of the server if it writes a key of its own there or takes
what is there for one of its own.  `ownRows` is the part of a keyspace that a map
reaches; a server that the map had to itself would hold that part only.

`Isolated` says that in every interleaved run of two maps each of them has the
answers and the rows that it could have on such a server, `AloneWith`.  It holds
exactly if no key is reached by both (`isolated_iff_apart`).  One direction is by
induction on the run: a call sees and changes nothing beyond the rows of its map
(`answerOn_restrict`, `answerOn_frame`).  For the other, a key reached by both is
removed by one map and missed by the other.
-/

namespace TypedStore
namespace Redis

variable {σ κ τ : Type}

/-- Whether a key of the server concerns a map. -/
def Reaches (codec : KeyCodec κ) (options : RedisOptions) (serverKey : Bytes) : Prop :=
  (∃ key, serverKey? codec options key = some serverKey) ∨
    (ownedKey? codec options serverKey).isSome = true

noncomputable instance (codec : KeyCodec κ) (options : RedisOptions) :
    DecidablePred (Reaches codec options) :=
  Classical.decPred _

/-- Whether no key of the server concerns both maps. -/
def Apart (firstCodec : KeyCodec κ) (secondCodec : KeyCodec τ) (first second : RedisOptions) :
    Prop :=
  ∀ serverKey, ¬(Reaches firstCodec first serverKey ∧ Reaches secondCodec second serverKey)

theorem Apart.symm {firstCodec : KeyCodec κ} {secondCodec : KeyCodec τ}
    {first second : RedisOptions} (apart : Apart firstCodec secondCodec first second) :
    Apart secondCodec firstCodec second first :=
  fun serverKey both => apart serverKey both.symm

/-- The rows of a keyspace that concern a map. -/
noncomputable def ownRows (codec : KeyCodec κ) (options : RedisOptions) (keyspace : Tree) : Tree :=
  keyspace.restrict (Reaches codec options)

/-! ## A call sees its own rows -/

section

variable {codec : KeyCodec κ} {options : RedisOptions} {keyspace : Tree} {listed : List Bytes}
  {serverKey : Bytes}

theorem get?_ownRows (reached : Reaches codec options serverKey) (keyspace : Tree) :
    (ownRows codec options keyspace).get? serverKey = keyspace.get? serverKey := by
  rw [ownRows, Tree.get?_restrict, if_pos reached]

theorem ownRows_congr {first second : Tree}
    (same : ∀ serverKey, Reaches codec options serverKey →
      first.get? serverKey = second.get? serverKey) :
    ownRows codec options first = ownRows codec options second :=
  Tree.restrict_congr same

/-- The keys of a map in a listing are a listing of its rows. -/
theorem Lists.ownRows (lists : Lists options keyspace listed) :
    Lists options (ownRows codec options keyspace)
      (listed.filter fun serverKey => decide (Reaches codec options serverKey)) := by
  refine ⟨lists.distinct.filter _, ?_⟩
  intro serverKey
  rw [List.mem_filter, lists.members, decide_eq_true_eq, Redis.ownRows, Tree.get?_restrict]
  split
  · next reached => exact and_iff_left reached
  · next other => exact ⟨fun both => absurd both.2 other, fun impossible => by cases impossible.1⟩

/-- Where a map finds an entry, it finds it among its rows, and elsewhere nothing. -/
theorem entryAt?_ownRows (codec : KeyCodec κ) (options : RedisOptions) (keyspace : Tree) :
    entryAt? codec options (ownRows codec options keyspace) = entryAt? codec options keyspace := by
  funext serverKey
  rw [entryAt?, entryAt?]
  cases owned : ownedKey? codec options serverKey with
  | none => rfl
  | some key =>
    have reached : Reaches codec options serverKey := by
      refine .inr ?_
      rw [owned]
      rfl
    rw [get?_ownRows reached]

theorem filterMap_reached {α : Type} {read : Bytes → Option α}
    (concerns : ∀ serverKey, (read serverKey).isSome = true → Reaches codec options serverKey)
    (listed : List Bytes) :
    (listed.filter fun serverKey => decide (Reaches codec options serverKey)).filterMap read =
      listed.filterMap read := by
  rw [List.filterMap_filter]
  apply List.filterMap_congr
  intro serverKey _
  cases found : read serverKey with
  | none => exact ite_self none
  | some value =>
    have isSome : (read serverKey).isSome = true := by
      rw [found]
      rfl
    exact if_pos (decide_eq_true (concerns serverKey isSome))

theorem filter_reached {test : Bytes → Bool}
    (concerns : ∀ serverKey, test serverKey = true → Reaches codec options serverKey)
    (listed : List Bytes) :
    (listed.filter fun serverKey => decide (Reaches codec options serverKey)).filter test =
      listed.filter test := by
  rw [List.filter_filter]
  apply List.filter_congr
  intro serverKey _
  cases tested : test serverKey with
  | false => rfl
  | true => exact decide_eq_true (concerns serverKey tested)

theorem owned_of_entryAt? {keyspace : Tree}
    (found : (entryAt? codec options keyspace serverKey).isSome = true) :
    (ownedKey? codec options serverKey).isSome = true := by
  rcases Option.isSome_iff_exists.mp found with ⟨entry, held⟩
  rcases Option.bind_eq_some_iff.mp held with ⟨key, owned, _⟩
  rw [owned]
  rfl

/-- A call answers and leaves on the rows of its map what it does on the whole keyspace. -/
theorem answerOn_restrict (codec : KeyCodec κ) (options : RedisOptions) (listed : List Bytes)
    (keyspace : Tree) (call : StorageCall κ Bytes) :
    answerOn codec options (listed.filter fun serverKey => decide (Reaches codec options serverKey))
        (ownRows codec options keyspace) call =
      ((answerOn codec options listed keyspace call).1,
        ownRows codec options (answerOn codec options listed keyspace call).2) := by
  have own : ∀ serverKey, (ownedKey? codec options serverKey).isSome = true →
      Reaches codec options serverKey := fun _ owned => .inr owned
  cases call with
  | load key =>
    rw [answerOn, answerOn]
    cases spelled : serverKey? codec options key with
    | none => rfl
    | some serverKey =>
      rw [Option.bind_some, Option.bind_some, get?_ownRows (.inl ⟨key, spelled⟩)]
  | store key value =>
    rw [answerOn, answerOn]
    cases spelled : serverKey? codec options key with
    | none => rfl
    | some serverKey =>
      exact congrArg (Prod.mk ()) (Tree.restrict_insert (.inl ⟨key, spelled⟩) keyspace value).symm
  | storeIfAbsent key value =>
    rw [answerOn, answerOn]
    cases spelled : serverKey? codec options key with
    | none => rfl
    | some serverKey =>
      have reached : Reaches codec options serverKey := .inl ⟨key, spelled⟩
      dsimp only
      rw [get?_ownRows reached]
      split
      · rfl
      · exact congrArg (Prod.mk true) (Tree.restrict_insert reached keyspace value).symm
  | delete removed => exact congrArg (Prod.mk ()) (Tree.restrict_foldl_erase _ keyspace).symm
  | range visit start =>
    rw [answerOn, answerOn, entryAt?_ownRows, filterMap_reached]
    exact fun serverKey found => own serverKey (owned_of_entryAt? found)
  | next =>
    have same : (listed.filter fun serverKey => decide (Reaches codec options serverKey)).find?
        (fun serverKey => (entryAt? codec options keyspace serverKey).isSome) =
        listed.find? fun serverKey => (entryAt? codec options keyspace serverKey).isSome := by
      rw [← List.head?_filter, filter_reached, List.head?_filter]
      exact fun serverKey found => own serverKey (owned_of_entryAt? found)
    rw [answerOn, answerOn, entryAt?_ownRows, same]
    cases listed.find? fun serverKey => (entryAt? codec options keyspace serverKey).isSome with
    | none => rfl
    | some serverKey =>
      exact congrArg (Prod.mk _) (Tree.restrict_foldl_erase [serverKey] keyspace).symm
  | keys => rw [answerOn, answerOn, filterMap_reached own]
  | len => rw [answerOn, answerOn, filterMap_reached own]
  | clear =>
    rw [answerOn, answerOn, filter_reached own]
    exact congrArg (Prod.mk ()) (Tree.restrict_foldl_erase _ keyspace).symm

/-- A call leaves alone what does not concern its map. -/
theorem answerOn_frame (foreign : ¬Reaches codec options serverKey) (listed : List Bytes)
    (keyspace : Tree) (call : StorageCall κ Bytes) :
    (answerOn codec options listed keyspace call).2.get? serverKey = keyspace.get? serverKey := by
  have written : ∀ {key other value}, serverKey? codec options key = some other →
      (keyspace.insert other value).get? serverKey = keyspace.get? serverKey := by
    intro key other value spelled
    rw [Tree.get?_insert, if_neg]
    rintro rfl
    exact foreign (.inl ⟨key, spelled⟩)
  have erased : ∀ removed : List Bytes, (∀ other ∈ removed, Reaches codec options other) →
      (removed.foldl Tree.erase keyspace).get? serverKey = keyspace.get? serverKey := by
    intro removed concerns
    rw [Tree.get?_foldl_erase, if_neg]
    exact fun member => foreign (concerns serverKey member)
  cases call with
  | load key => rfl
  | store key value =>
    rw [answerOn]
    cases spelled : serverKey? codec options key with
    | none => rfl
    | some other => exact written spelled
  | storeIfAbsent key value =>
    rw [answerOn]
    cases spelled : serverKey? codec options key with
    | none => rfl
    | some other =>
      dsimp only
      split
      · rfl
      · exact written spelled
  | delete removed =>
    refine erased _ ?_
    intro other member
    rcases List.mem_filterMap.mp member with ⟨key, _, spelled⟩
    exact .inl ⟨key, spelled⟩
  | range visit start => rfl
  | next =>
    rw [answerOn]
    cases first : listed.find? fun other => (entryAt? codec options keyspace other).isSome with
    | none => rfl
    | some other =>
      refine erased [other] ?_
      intro taken member
      rw [List.mem_singleton.mp member]
      have found := List.find?_some first
      exact .inr (owned_of_entryAt? found)
  | keys => rfl
  | len => rfl
  | clear =>
    refine erased _ ?_
    intro other member
    exact .inr (List.mem_filter.mp member).2

end

/-! ## Runs -/

/-- Calls of two maps on one server, in the order in which they are made. -/
def sharedRun (link : RedisLink σ) (firstCodec : KeyCodec κ) (secondCodec : KeyCodec τ) :
    List (StorageCall κ Bytes ⊕ StorageCall τ Bytes) → Redis → Redis → σ →
      List (StorageCall.Answered κ Bytes ⊕ StorageCall.Answered τ Bytes) × Redis × Redis × σ
  | [], first, second, server => ([], first, second, server)
  | .inl call :: rest, first, second, server =>
    let (answer, first, server) := (Redis.storage link firstCodec).perform call (first, server)
    let (answers, ended) := sharedRun link firstCodec secondCodec rest first second server
    (.inl ⟨call, answer⟩ :: answers, ended)
  | .inr call :: rest, first, second, server =>
    let (answer, second, server) := (Redis.storage link secondCodec).perform call (second, server)
    let (answers, ended) := sharedRun link firstCodec secondCodec rest first second server
    (.inr ⟨call, answer⟩ :: answers, ended)

/-- Whether calls of a handle may have these answers, and leave these rows, on a
quiescent server that holds the rows of its map and nothing else. -/
def AloneWith (codec : KeyCodec κ) (handle : Redis) (rows : Tree)
    (calls : List (StorageCall κ Bytes)) (answers : List (StorageCall.Answered κ Bytes))
    (left : Tree) : Prop :=
  ∃ (ρ : Type) (link : RedisLink ρ) (quiet : link.Quiescent) (server : ρ),
    quiet.steady server ∧ quiet.accepts handle.options.expireMillis ∧
      quiet.keyspace server = rows ∧
      ((Redis.storage link codec).performAll calls (handle, server)).1 = answers ∧
      quiet.keyspace ((Redis.storage link codec).performAll calls (handle, server)).2.2 = left

/-- Whether two maps have in every run what each of them may have alone. -/
def Isolated (firstCodec : KeyCodec κ) (secondCodec : KeyCodec τ) (first second : Redis) : Prop :=
  ∀ {σ : Type} (link : RedisLink σ) (quiet : link.Quiescent) (server : σ)
    (calls : List (StorageCall κ Bytes ⊕ StorageCall τ Bytes)), quiet.steady server →
    quiet.accepts first.options.expireMillis → quiet.accepts second.options.expireMillis →
    ∀ answers firstAfter secondAfter after,
      sharedRun link firstCodec secondCodec calls first second server =
        (answers, firstAfter, secondAfter, after) →
      AloneWith firstCodec first (ownRows firstCodec first.options (quiet.keyspace server))
          (calls.filterMap Sum.getLeft?) (answers.filterMap Sum.getLeft?)
          (ownRows firstCodec first.options (quiet.keyspace after)) ∧
        AloneWith secondCodec second (ownRows secondCodec second.options (quiet.keyspace server))
          (calls.filterMap Sum.getRight?) (answers.filterMap Sum.getRight?)
          (ownRows secondCodec second.options (quiet.keyspace after))

/-- Whether calls have these answers on a server that lists keys in these orders. -/
def Scripted (codec : KeyCodec κ) (options : RedisOptions) (rows : Tree)
    (orders : List (List Bytes)) (calls : List (StorageCall κ Bytes))
    (answers : List (StorageCall.Answered κ Bytes)) (left : Tree) : Prop :=
  ∀ handle : Redis, handle.options = options → handle.closed = false →
    ∃ after, (Redis.storage RedisLink.listing codec).performAll calls (handle, rows, orders) =
      (answers, after, left, [])

section

variable {firstCodec : KeyCodec κ} {secondCodec : KeyCodec τ} {options : RedisOptions}
  {keyspace left : Tree} {listed : List Bytes} {orders : List (List Bytes)}
  {calls : List (StorageCall κ Bytes)} {answers : List (StorageCall.Answered κ Bytes)}

theorem Scripted.nil (codec : KeyCodec κ) (options : RedisOptions) (rows : Tree) :
    Scripted codec options rows [] [] [] rows :=
  fun handle _ _ => ⟨handle, rfl⟩

/-- A call on the whole keyspace, and then calls that follow a script. -/
theorem Scripted.cons (lists : Lists options keyspace listed) (call : StorageCall κ Bytes)
    (later : Scripted firstCodec options
      (ownRows firstCodec options (answerOn firstCodec options listed keyspace call).2) orders calls
      answers left) :
    Scripted firstCodec options (ownRows firstCodec options keyspace)
      (ordersFor call (listed.filter fun serverKey => decide (Reaches firstCodec options serverKey))
        orders)
      (call :: calls)
      (⟨call, (answerOn firstCodec options listed keyspace call).1⟩ :: answers) left := by
  rintro handle rfl opened
  rcases perform_listing opened lists.ownRows firstCodec call orders with ⟨between, same, performed⟩
  rw [answerOn_restrict] at performed
  rcases later between same.options (same.closed.trans opened) with ⟨after, rest⟩
  refine ⟨after, ?_⟩
  rw [Storage.performAll, performed]
  dsimp only
  rw [rest]

/-- A call of one map leaves the rows of the other alone. -/
theorem Apart.ownRows_answerOn {first second : RedisOptions}
    (apart : Apart firstCodec secondCodec first second) (listed : List Bytes) (keyspace : Tree)
    (call : StorageCall κ Bytes) :
    ownRows secondCodec second (answerOn firstCodec first listed keyspace call).2 =
      ownRows secondCodec second keyspace := by
  apply ownRows_congr
  intro serverKey reached
  exact answerOn_frame (fun concerns => apart serverKey ⟨concerns, reached⟩) listed keyspace call

/-- A call of one map, on a server that both share, begins a script of that map and
leaves the rows of the other alone. -/
theorem Apart.script_call {link : RedisLink σ} (quiet : link.Quiescent) {first second : Redis}
    (apart : Apart firstCodec secondCodec first.options second.options)
    (opened : first.closed = false) {server reached : σ} (steady : quiet.steady server)
    (accepted : quiet.accepts first.options.expireMillis)
    {call : StorageCall κ Bytes} {answer : call.Answer} {between : Redis}
    (performed : (Redis.storage link firstCodec).perform call (first, server) =
      (answer, between, reached)) :
    between.options = first.options ∧ between.closed = false ∧ quiet.steady reached ∧
      ownRows secondCodec second.options (quiet.keyspace reached) =
        ownRows secondCodec second.options (quiet.keyspace server) ∧
      ∀ {orders calls answers left}, Scripted firstCodec first.options
          (ownRows firstCodec first.options (quiet.keyspace reached)) orders calls answers left →
        ∃ more, Scripted firstCodec first.options
          (ownRows firstCodec first.options (quiet.keyspace server)) more (call :: calls)
          (⟨call, answer⟩ :: answers) left := by
  have one : Answers quiet firstCodec (first, server) call
      ((Redis.storage link firstCodec).perform call (first, server)) :=
    perform_answers steady opened accepted call
  rw [performed] at one
  rcases one with ⟨listed, lists, rfl, stays, keyspace⟩
  dsimp only at lists stays keyspace
  refine ⟨stays.options, stays.closed.trans opened, stays.steady, ?_, ?_⟩
  · rw [keyspace, apart.ownRows_answerOn]
  · intro orders calls answers left script
    rw [keyspace] at script
    exact ⟨_, .cons lists call script⟩

/-- Each map follows a script of its own. -/
theorem exists_scripts {link : RedisLink σ} (quiet : link.Quiescent) {first second : Redis}
    (apart : Apart firstCodec secondCodec first.options second.options)
    (firstOpened : first.closed = false) (secondOpened : second.closed = false) {server : σ}
    (steady : quiet.steady server) (firstAccepted : quiet.accepts first.options.expireMillis)
    (secondAccepted : quiet.accepts second.options.expireMillis)
    (calls : List (StorageCall κ Bytes ⊕ StorageCall τ Bytes))
    {answers : List (StorageCall.Answered κ Bytes ⊕ StorageCall.Answered τ Bytes)}
    {firstAfter secondAfter : Redis} {after : σ}
    (ran : sharedRun link firstCodec secondCodec calls first second server =
      (answers, firstAfter, secondAfter, after)) :
    (∃ orders, Scripted firstCodec first.options
        (ownRows firstCodec first.options (quiet.keyspace server)) orders
        (calls.filterMap Sum.getLeft?) (answers.filterMap Sum.getLeft?)
        (ownRows firstCodec first.options (quiet.keyspace after))) ∧
      ∃ orders, Scripted secondCodec second.options
        (ownRows secondCodec second.options (quiet.keyspace server)) orders
        (calls.filterMap Sum.getRight?) (answers.filterMap Sum.getRight?)
        (ownRows secondCodec second.options (quiet.keyspace after)) := by
  induction calls generalizing first second server answers with
  | nil =>
    cases ran
    exact ⟨⟨[], .nil _ _ _⟩, ⟨[], .nil _ _ _⟩⟩
  | cons call rest hypothesis =>
    cases call with
    | inl call =>
      rw [sharedRun] at ran
      rcases performed : (Redis.storage link firstCodec).perform call (first, server) with
        ⟨answer, between, reached⟩
      rcases more : sharedRun link firstCodec secondCodec rest between second reached with
        ⟨restAnswers, firstLast, secondLast, last⟩
      rw [performed] at ran
      dsimp only at ran
      rw [more] at ran
      cases ran
      rcases apart.script_call quiet firstOpened steady firstAccepted performed with
        ⟨options, stillOpen, stillSteady, untouched, begins⟩
      rcases hypothesis (options ▸ apart) stillOpen secondOpened stillSteady
        (options ▸ firstAccepted) secondAccepted more with
        ⟨⟨firstOrders, firstScript⟩, secondScript⟩
      rw [options] at firstScript
      rw [untouched] at secondScript
      exact ⟨begins firstScript, secondScript⟩
    | inr call =>
      rw [sharedRun] at ran
      rcases performed : (Redis.storage link secondCodec).perform call (second, server) with
        ⟨answer, between, reached⟩
      rcases more : sharedRun link firstCodec secondCodec rest first between reached with
        ⟨restAnswers, firstLast, secondLast, last⟩
      rw [performed] at ran
      dsimp only at ran
      rw [more] at ran
      cases ran
      rcases apart.symm.script_call quiet secondOpened steady secondAccepted performed with
        ⟨options, stillOpen, stillSteady, untouched, begins⟩
      rcases hypothesis (options ▸ apart) firstOpened stillOpen stillSteady firstAccepted
        (options ▸ secondAccepted) more with
        ⟨firstScript, secondOrders, secondScript⟩
      rw [options] at secondScript
      rw [untouched] at firstScript
      exact ⟨firstScript, begins secondScript⟩

theorem Scripted.aloneWith {handle : Redis} (opened : handle.closed = false) {rows : Tree}
    (script : Scripted firstCodec handle.options rows orders calls answers left) :
    AloneWith firstCodec handle rows calls answers left := by
  rcases script handle rfl opened with ⟨after, performed⟩
  refine ⟨_, RedisLink.listing, RedisLink.listingQuiescent, (rows, orders), trivial, trivial, rfl, ?_,
    ?_⟩
  · rw [performed]
  · rw [performed]
    rfl

/-- A map can remove whatever concerns it. -/
theorem Reaches.exists_removal {serverKey : Bytes}
    (reached : Reaches firstCodec options serverKey) :
    ∃ call, ∀ listed keyspace, Lists options keyspace listed →
      (keyspace.get? serverKey).isSome = true →
      (answerOn firstCodec options listed keyspace call).2.get? serverKey = none := by
  rcases reached with ⟨key, spelled⟩ | owned
  · refine ⟨.delete [key], ?_⟩
    intro listed keyspace _ _
    rw [answerOn, List.filterMap_cons, spelled]
    dsimp only
    rw [Tree.get?_foldl_erase, if_pos List.mem_cons_self]
  · refine ⟨.clear, ?_⟩
    intro listed keyspace lists present
    rcases Option.isSome_iff_exists.mp owned with ⟨key, found⟩
    have member := (lists.members serverKey).mpr ⟨present, isMatch_of_ownedKey? found⟩
    rw [answerOn, Tree.get?_foldl_erase, if_pos (List.mem_filter.mpr ⟨member, owned⟩)]

/-- Two maps are isolated exactly if no key of the server concerns both. -/
theorem isolated_iff_apart (firstCodec : KeyCodec κ) (secondCodec : KeyCodec τ)
    {first second : Redis} (firstOpened : first.closed = false)
    (secondOpened : second.closed = false) :
    Isolated firstCodec secondCodec first second ↔
      Apart firstCodec secondCodec first.options second.options := by
  constructor
  · rintro isolated serverKey ⟨firstReached, secondReached⟩
    rcases secondReached.exists_removal with ⟨call, removes⟩
    let server : Tree := Tree.empty.insert serverKey []
    have present : server.get? serverKey = some [] := by
      rw [Tree.get?_insert, if_pos rfl]
    have one : Answers RedisLink.onePageQuiescent secondCodec (second, server) call
        ((Redis.storage RedisLink.onePage secondCodec).perform call (second, server)) :=
      perform_answers trivial secondOpened trivial call
    rcases performed : (Redis.storage RedisLink.onePage secondCodec).perform call (second, server)
      with ⟨answer, secondAfter, after⟩
    rw [performed] at one
    rcases one with ⟨listed, lists, _, _, keyspace⟩
    have gone : after.get? serverKey = none := by
      change RedisLink.onePageQuiescent.keyspace after = _ at keyspace
      rw [show after = RedisLink.onePageQuiescent.keyspace after from rfl, keyspace]
      apply removes listed server lists
      rw [present]
      rfl
    have ran : sharedRun RedisLink.onePage firstCodec secondCodec [.inr call] first second server =
        ([.inr ⟨call, answer⟩], first, secondAfter, after) := by
      rw [sharedRun, performed]
      rfl
    -- The first map has made no call and has lost a row.
    rcases (isolated RedisLink.onePage RedisLink.onePageQuiescent server [.inr call] trivial trivial
      trivial _ _ _ _ ran).1 with ⟨ρ, link, quiet, alone, _, _, rows, _, left⟩
    have kept : ownRows firstCodec first.options server = ownRows firstCodec first.options after :=
      rows.symm.trans left
    have same := congrArg (Tree.get? · serverKey) kept
    rw [get?_ownRows firstReached, get?_ownRows firstReached, present, gone] at same
    cases same
  · intro apart σ link quiet server calls steady firstAccepted secondAccepted answers firstAfter
      secondAfter after ran
    rcases exists_scripts quiet apart firstOpened secondOpened steady firstAccepted secondAccepted
      calls ran with
      ⟨⟨firstOrders, firstScript⟩, secondOrders, secondScript⟩
    exact ⟨firstScript.aloneWith firstOpened, secondScript.aloneWith secondOpened⟩

end

end Redis
end TypedStore
