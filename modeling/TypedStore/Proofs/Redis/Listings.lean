import TypedStore.Proofs.Redis.Answers

/-!
# Every listing can occur

`RedisLink.listing` is a quiescent server that is told in advance in which order
each scan is to list the keys.  On it a call is what `answerOn` says for the next
of these orders, so that `answerOn` describes no more than a quiescent server may
do, whatever the listing.

An order that is not a listing of the keys is completed: keys that are not there
are left out, and keys that it lacks come last.
-/

namespace TypedStore

/-- The keys of a keyspace that match, in this order. -/
def orderedPage (keyspace : Tree) (pattern : Bytes) (order : List Bytes) : List Bytes :=
  let matching := (keyspace.entries.map Prod.fst).filter (Glob.isMatch pattern)
  order.filter matching.contains ++ matching.filter fun key => !order.contains key

theorem mem_orderedPage {keyspace : Tree} {pattern : Bytes} {order : List Bytes} {key : Bytes} :
    key ∈ orderedPage keyspace pattern order ↔
      (keyspace.get? key).isSome = true ∧ Glob.isMatch pattern key = true := by
  rw [Tree.isSome_get?_iff, ← List.mem_filter, orderedPage, List.mem_append, List.mem_filter,
    List.mem_filter, List.contains_iff_mem, Bool.not_eq_true', List.contains_eq_mem,
    decide_eq_false_iff_not]
  tauto

/-- A server that lists its keys on one page, each scan in the next of the orders
that it is given. -/
def RedisLink.listing : RedisLink (Tree × List (List Bytes)) where
  send
    | _, .scan _ pattern _, (keyspace, orders) =>
      (.reply (.page 0 (orderedPage keyspace pattern (orders.headD []))), keyspace, orders.tail)
    | _, command, (keyspace, orders) =>
      let (reply, keyspace) := command.apply noScan keyspace
      (.reply reply, keyspace, orders)
  pageBound _ := 1
  entryBound server := server.1.size

theorem RedisLink.send_listing {command : RedisCommand} (direct : command.isDirect = true)
    (connection : Nat) (keyspace : Tree) (orders : List (List Bytes)) :
    RedisLink.listing.send connection command (keyspace, orders) =
      (.reply (command.apply noScan keyspace).1, (command.apply noScan keyspace).2, orders) := by
  cases command <;> first | rfl | cases direct

/-- It is quiescent in every state. -/
def RedisLink.listingQuiescent : RedisLink.listing.Quiescent where
  steady _ := True
  accepts _ := True
  keyspace := Prod.fst
  owes server _ pattern _ _ keys :=
    ∀ key ∈ keys, (server.1.get? key).isSome = true ∧ Glob.isMatch pattern key = true
  direct := by
    rintro connection command ⟨keyspace, orders⟩ _ sent
    refine ⟨_, RedisLink.send_listing sent.isDirect connection keyspace orders, trivial, rfl, ?_⟩
    intro unchanged cursor pattern count pages keys owed
    rw [unchanged]
    exact owed
  scan := by
    rintro connection ⟨keyspace, orders⟩ cursor pattern count pages keys _ owed
    refine ⟨0, _, _, rfl, trivial, rfl, fun key member => mem_orderedPage.mp member, .inl ⟨rfl, ?_⟩⟩
    exact fun key member => mem_orderedPage.mpr (owed key member)
  start := by
    rintro ⟨keyspace, orders⟩ pattern count _
    exact ⟨0, orderedPage keyspace pattern [], rfl, fun key member => mem_orderedPage.mp member,
      fun key present matched => mem_orderedPage.mpr ⟨present, matched⟩⟩

namespace Redis

variable {κ : Type} {codec : KeyCodec κ} {handle : Redis} {keyspace : Tree}
  {listed : List Bytes} {orders : List (List Bytes)}

/-- The handles are the same but for their turns. -/
structure SameHandle (before after : Redis) : Prop where
  options : after.options = before.options
  closed : after.closed = before.closed

theorem SameHandle.refl (handle : Redis) : SameHandle handle handle := ⟨rfl, rfl⟩

theorem SameHandle.trans {first second third : Redis} (later : SameHandle second third)
    (earlier : SameHandle first second) : SameHandle first third :=
  ⟨later.options.trans earlier.options, later.closed.trans earlier.closed⟩

/-- A listing is listed as it is. -/
theorem Lists.orderedPage_eq {options : RedisOptions} (lists : Lists options keyspace listed) :
    orderedPage keyspace options.pattern listed = listed := by
  have matching : ∀ key, key ∈ (keyspace.entries.map Prod.fst).filter
      (Glob.isMatch options.pattern) ↔ key ∈ listed := by
    intro key
    rw [lists.members, List.mem_filter, Tree.isSome_get?_iff]
  have kept : listed.filter ((keyspace.entries.map Prod.fst).filter
      (Glob.isMatch options.pattern)).contains = listed := by
    apply List.filter_eq_self.mpr
    intro key member
    exact List.contains_iff_mem.mpr ((matching key).mpr member)
  have complete : ((keyspace.entries.map Prod.fst).filter (Glob.isMatch options.pattern)).filter
      (fun key => !listed.contains key) = [] := by
    apply List.filter_eq_nil_iff.mpr
    intro key member
    rw [List.contains_iff_mem.mpr ((matching key).mp member)]
    exact Bool.false_ne_true
  rw [orderedPage, kept, complete, List.append_nil]

/-! ## Single commands -/

theorem execute_listing (command : RedisCommand) (direct : command.isDirect = true)
    (handle : Redis) (keyspace : Tree) (orders : List (List Bytes)) :
    ∃ after, SameHandle handle after ∧
      execute RedisLink.listing command (handle, keyspace, orders) =
        (.ok (command.apply noScan keyspace).1, after, (command.apply noScan keyspace).2,
          orders) := by
  refine ⟨{ handle with turns := handle.turns + 1 }, ⟨rfl, rfl⟩, ?_⟩
  apply executeWithin_of_reply
  rw [attempt, RedisLink.send_listing direct]

theorem set_listing (handle : Redis) (keyspace : Tree) (orders : List (List Bytes))
    (serverKey value : Bytes) (onlyIfAbsent : Bool) :
    ∃ after, SameHandle handle after ∧
      set RedisLink.listing serverKey value onlyIfAbsent (handle, keyspace, orders) =
        if onlyIfAbsent && (keyspace.get? serverKey).isSome
        then (.ok false, after, keyspace, orders)
        else (.ok true, after, keyspace.insert serverKey value, orders) := by
  rcases execute_listing (.set serverKey value onlyIfAbsent handle.options.expireMillis) rfl handle
    keyspace orders with ⟨after, same, executed⟩
  refine ⟨after, same, ?_⟩
  rw [RedisCommand.apply] at executed
  rw [set, executed]
  dsimp only
  split <;> rfl

theorem deleteBatches_listing (pieces : List (List Bytes)) (handle : Redis) (keyspace : Tree)
    (orders : List (List Bytes)) :
    ∃ after, SameHandle handle after ∧
      deleteBatches RedisLink.listing pieces (handle, keyspace, orders) =
        (.ok (), after, pieces.flatten.foldl Tree.erase keyspace, orders) := by
  induction pieces generalizing handle keyspace with
  | nil => exact ⟨handle, .refl handle, rfl⟩
  | cons piece rest hypothesis =>
    rcases execute_listing (.del piece) rfl handle keyspace orders with
      ⟨between, same, executed⟩
    rcases hypothesis between (piece.foldl Tree.erase keyspace) with ⟨after, later, deleted⟩
    refine ⟨after, later.trans same, ?_⟩
    rw [deleteBatches, executed, List.flatten_cons, List.foldl_append]
    exact deleted

theorem deleteRaw_listing (removed : List Bytes) (handle : Redis) (keyspace : Tree)
    (orders : List (List Bytes)) :
    ∃ after, SameHandle handle after ∧
      deleteRaw RedisLink.listing removed (handle, keyspace, orders) =
        (.ok (), after, removed.foldl Tree.erase keyspace, orders) := by
  rcases deleteBatches_listing (batches removed.length removed) handle keyspace orders with
    ⟨after, same, deleted⟩
  rw [flatten_batches removed.length removed (Nat.le_refl _)] at deleted
  exact ⟨after, same, deleted⟩

/-! ## Walks -/

theorem scanPage_listing (lists : Lists handle.options keyspace listed)
    (orders : List (List Bytes)) (cursor : UInt64) :
    ∃ after, SameHandle handle after ∧
      scanPage RedisLink.listing cursor (handle, keyspace, listed :: orders) =
        (.ok (0, listed), after, keyspace, orders) := by
  refine ⟨{ handle with turns := handle.turns + 1 }, ⟨rfl, rfl⟩, ?_⟩
  have answered : execute RedisLink.listing
      (.scan cursor handle.options.pattern handle.options.pageSize)
      (handle, keyspace, listed :: orders) =
      (.ok (.page 0 (orderedPage keyspace handle.options.pattern listed)),
        { handle with turns := handle.turns + 1 }, keyspace, orders) := by
    apply executeWithin_of_reply
    rfl
  rw [scanPage, answered, lists.orderedPage_eq]

theorem foldl_fresh_of_nodup (page fresh : List Bytes) (distinct : page.Nodup)
    (apart : ∀ key ∈ page, key ∉ fresh) :
    page.foldl (fun fresh key =>
      if ([] : List Bytes).contains key || fresh.contains key then fresh else key :: fresh) fresh =
      page.reverse ++ fresh := by
  induction page generalizing fresh with
  | nil => rfl
  | cons key rest hypothesis =>
    have parts := List.nodup_cons.mp distinct
    have new : ¬(([] : List Bytes).contains key || fresh.contains key) = true := by
      rw [List.contains_nil, Bool.false_or, List.contains_iff_mem]
      exact apart key List.mem_cons_self
    have still : ∀ other ∈ rest, other ∉ key :: fresh := by
      intro other member old
      rcases List.mem_cons.mp old with here | before
      · rw [here] at member
        exact parts.1 member
      · exact apart other (List.mem_cons_of_mem _ member) before
    rw [List.foldl_cons, if_neg new, hypothesis _ parts.2 still, List.reverse_cons,
      List.append_assoc]
    rfl

/-- On a first page without repetitions everything is new. -/
theorem freshKeys_nil (distinct : listed.Nodup) : freshKeys [] listed = listed := by
  have all := foldl_fresh_of_nodup listed [] distinct fun _ _ => List.not_mem_nil
  rw [freshKeys, all, List.append_nil, List.reverse_reverse]

theorem scanKeys_listing (lists : Lists handle.options keyspace listed)
    (orders : List (List Bytes)) :
    ∃ after, SameHandle handle after ∧
      scanKeys RedisLink.listing (handle, keyspace, listed :: orders) =
        (.ok listed, after, keyspace, orders) := by
  rcases scanPage_listing lists orders 0 with ⟨after, same, scanned⟩
  refine ⟨after, same, ?_⟩
  change scanFrom RedisLink.listing 1 0 [] (handle, keyspace, listed :: orders) = _
  rw [scanFrom, scanned]
  dsimp only
  rw [if_pos rfl, freshKeys_nil lists.distinct]
  rfl

theorem rangeFrom_listing {α : Type} (codec : KeyCodec κ)
    (lists : Lists handle.options keyspace listed) (orders : List (List Bytes))
    (visit : Visitor κ Bytes α) (start : α) :
    ∃ after, SameHandle handle after ∧
      rangeFrom RedisLink.listing codec visit 1 0 [] start (handle, keyspace, listed :: orders) =
        ((visit.walk (listed.filterMap (entryAt? codec handle.options keyspace)) start).1, after,
          keyspace, orders) := by
  rcases scanPage_listing lists orders 0 with ⟨between, same, scanned⟩
  have fetched : ∃ after, SameHandle between after ∧
      fetch RedisLink.listing listed (between, keyspace, orders) =
        (.ok (listed.map keyspace.get?), after, keyspace, orders) := by
    cases listed with
    | nil => exact ⟨between, .refl between, rfl⟩
    | cons key rest =>
      rcases execute_listing (.mget (key :: rest)) rfl between keyspace orders with
        ⟨after, later, executed⟩
      refine ⟨after, later, ?_⟩
      rw [fetch, List.isEmpty_cons, if_neg Bool.false_ne_true, executed]
      rfl
  rcases fetched with ⟨after, later, fetched⟩
  refine ⟨after, later.trans same, ?_⟩
  rw [rangeFrom, scanned]
  dsimp only
  rw [freshKeys_nil lists.distinct, fetched]
  dsimp only
  rw [(later.trans same).options, ownedEntries_map]
  split
  · next walked => rw [walked]
  · next walked => rw [walked, if_pos rfl]

theorem popFromPage_listing (codec : KeyCodec κ) (page : List Bytes) (handle : Redis)
    (orders : List (List Bytes)) (present : ∀ key ∈ page, (keyspace.get? key).isSome = true) :
    ∃ after, SameHandle handle after ∧
      popFromPage RedisLink.listing codec page (handle, keyspace, orders) =
        match page.find? fun serverKey =>
            (entryAt? codec handle.options keyspace serverKey).isSome with
        | none => (.ok none, after, keyspace, orders)
        | some serverKey => (.ok (entryAt? codec handle.options keyspace serverKey), after,
            keyspace.erase serverKey, orders) := by
  induction page with
  | nil => exact ⟨handle, .refl handle, rfl⟩
  | cons serverKey rest hypothesis =>
    cases owned : ownedKey? codec handle.options serverKey with
    | none =>
      have passed : entryAt? codec handle.options keyspace serverKey = none := by
        rw [entryAt?, owned]
        rfl
      rw [popFromPage, owned, List.find?_cons, passed]
      exact hypothesis fun key member => present key (List.mem_cons_of_mem _ member)
    | some key =>
      rcases Option.isSome_iff_exists.mp (present serverKey List.mem_cons_self) with ⟨value, found⟩
      rcases execute_listing (.getdel serverKey) rfl handle keyspace orders with
        ⟨after, same, executed⟩
      rw [RedisCommand.apply, found] at executed
      have taken : entryAt? codec handle.options keyspace serverKey = some (key, value) := by
        rw [entryAt?, owned, found]
        rfl
      refine ⟨after, same, ?_⟩
      rw [popFromPage, owned, List.find?_cons, taken]
      dsimp only [Option.isSome_some]
      rw [executed, taken]

/-! ## Calls -/

/-- Whether a call asks the server for a listing. -/
def scans : StorageCall κ Bytes → Bool
  | .range _ _ => true
  | .next => true
  | .keys => true
  | .len => true
  | .clear => true
  | _ => false

/-- The orders to give for a call to be answered for a listing. -/
def ordersFor (call : StorageCall κ Bytes) (listed : List Bytes) (orders : List (List Bytes)) :
    List (List Bytes) :=
  if scans call then listed :: orders else orders

variable (opened : handle.closed = false) (lists : Lists handle.options keyspace listed)
include opened

theorem load_listing (codec : KeyCodec κ) (key : κ) (orders : List (List Bytes)) :
    ∃ after, SameHandle handle after ∧
      load RedisLink.listing codec key (handle, keyspace, orders) =
        ((serverKey? codec handle.options key).bind keyspace.get?, after, keyspace, orders) := by
  rw [load, opened, if_neg Bool.false_ne_true]
  cases serverKey? codec handle.options key with
  | none => exact ⟨handle, .refl handle, rfl⟩
  | some serverKey =>
    rcases execute_listing (.get serverKey) rfl handle keyspace orders with ⟨after, same, executed⟩
    refine ⟨after, same, ?_⟩
    rw [RedisCommand.apply] at executed
    dsimp only [Option.bind_some]
    rw [executed]
    cases keyspace.get? serverKey <;> rfl

theorem store_listing (codec : KeyCodec κ) (key : κ) (value : Bytes)
    (orders : List (List Bytes)) :
    ∃ after, SameHandle handle after ∧
      store RedisLink.listing codec key value (handle, keyspace, orders) =
        (after, (answerOn codec handle.options listed keyspace (.store key value)).2, orders) := by
  rw [store, opened, if_neg Bool.false_ne_true, answerOn]
  cases serverKey? codec handle.options key with
  | none => exact ⟨handle, .refl handle, rfl⟩
  | some serverKey =>
    rcases set_listing handle keyspace orders serverKey value false with ⟨after, same, written⟩
    refine ⟨after, same, ?_⟩
    dsimp only
    rw [written]
    rfl

theorem storeIfAbsent_listing (codec : KeyCodec κ) (key : κ) (value : Bytes)
    (orders : List (List Bytes)) :
    ∃ after, SameHandle handle after ∧
      storeIfAbsent RedisLink.listing codec key value (handle, keyspace, orders) =
        ((answerOn codec handle.options listed keyspace (.storeIfAbsent key value)).1, after,
          (answerOn codec handle.options listed keyspace (.storeIfAbsent key value)).2,
          orders) := by
  rw [storeIfAbsent, opened, if_neg Bool.false_ne_true, answerOn]
  cases serverKey? codec handle.options key with
  | none => exact ⟨handle, .refl handle, rfl⟩
  | some serverKey =>
    rcases set_listing handle keyspace orders serverKey value true with ⟨after, same, written⟩
    refine ⟨after, same, ?_⟩
    dsimp only
    rw [written, Bool.true_and]
    cases (keyspace.get? serverKey).isSome <;> rfl

theorem delete_listing (codec : KeyCodec κ) (removed : List κ) (orders : List (List Bytes)) :
    ∃ after, SameHandle handle after ∧
      delete RedisLink.listing codec removed (handle, keyspace, orders) =
        (after, (removed.filterMap (serverKey? codec handle.options)).foldl Tree.erase keyspace,
          orders) := by
  cases removed with
  | nil => exact ⟨handle, .refl handle, rfl⟩
  | cons key rest =>
    rcases deleteRaw_listing ((key :: rest).filterMap (serverKey? codec handle.options)) handle
      keyspace orders with ⟨after, same, deleted⟩
    refine ⟨after, same, ?_⟩
    rw [delete, opened, List.isEmpty_cons, Bool.or_false, if_neg Bool.false_ne_true, deleted]

include lists

theorem next_listing (codec : KeyCodec κ) (orders : List (List Bytes)) :
    ∃ after, SameHandle handle after ∧
      next RedisLink.listing codec (handle, keyspace, listed :: orders) =
        ((answerOn codec handle.options listed keyspace .next).1, after,
          (answerOn codec handle.options listed keyspace .next).2, orders) := by
  rcases scanPage_listing lists orders 0 with ⟨between, same, scanned⟩
  rcases popFromPage_listing codec listed between orders
    (fun key member => ((lists.members key).mp member).1) with ⟨after, later, popped⟩
  refine ⟨after, later.trans same, ?_⟩
  have bound : RedisLink.listing.pageBound (keyspace, listed :: orders) = 0 + 1 := rfl
  have taken : popFromPage RedisLink.listing codec listed (between, keyspace, orders) =
      (.ok (answerOn codec handle.options listed keyspace .next).1, after,
        (answerOn codec handle.options listed keyspace .next).2, orders) := by
    rw [popped, same.options, answerOn]
    cases listed.find? fun serverKey =>
      (entryAt? codec handle.options keyspace serverKey).isSome <;> rfl
  rw [next, opened, if_neg Bool.false_ne_true, bound, popFrom, scanned]
  dsimp only
  rw [taken]
  generalize (answerOn codec handle.options listed keyspace .next).1 = entry
  cases entry <;> rfl

theorem keys_listing (codec : KeyCodec κ) (orders : List (List Bytes)) :
    ∃ after, SameHandle handle after ∧
      keys RedisLink.listing codec (handle, keyspace, listed :: orders) =
        (listed.filterMap (ownedKey? codec handle.options), after, keyspace, orders) := by
  rcases scanKeys_listing lists orders with ⟨after, same, scanned⟩
  refine ⟨after, same, ?_⟩
  rw [keys, opened, if_neg Bool.false_ne_true, scanned, ← same.options]

theorem clear_listing (codec : KeyCodec κ) (orders : List (List Bytes)) :
    ∃ after, SameHandle handle after ∧
      clear RedisLink.listing codec (handle, keyspace, listed :: orders) =
        (after, (listed.filter fun serverKey =>
          (ownedKey? codec handle.options serverKey).isSome).foldl Tree.erase keyspace,
          orders) := by
  rcases scanKeys_listing lists orders with ⟨between, same, scanned⟩
  rcases deleteRaw_listing (listed.filter fun serverKey =>
    (ownedKey? codec handle.options serverKey).isSome) between keyspace orders with
    ⟨after, later, deleted⟩
  refine ⟨after, later.trans same, ?_⟩
  rw [clear, opened, if_neg Bool.false_ne_true, scanned]
  dsimp only
  rw [same.options, deleted]

/-- A call is answered for the listing that is given to the server. -/
theorem perform_listing (codec : KeyCodec κ) (call : StorageCall κ Bytes)
    (orders : List (List Bytes)) :
    ∃ after, SameHandle handle after ∧
      (Redis.storage RedisLink.listing codec).perform call
        (handle, keyspace, ordersFor call listed orders) =
        ((answerOn codec handle.options listed keyspace call).1, after,
          (answerOn codec handle.options listed keyspace call).2, orders) := by
  cases call with
  | load key => exact load_listing opened codec key orders
  | store key value =>
    rcases store_listing opened codec key value orders with ⟨after, same, stored⟩
    exact ⟨after, same, congrArg (Prod.mk ()) stored⟩
  | storeIfAbsent key value => exact storeIfAbsent_listing opened codec key value orders
  | delete removed =>
    rcases delete_listing opened codec removed orders with ⟨after, same, deleted⟩
    exact ⟨after, same, congrArg (Prod.mk ()) deleted⟩
  | range visit start =>
    rcases rangeFrom_listing codec lists orders visit start with ⟨after, same, visited⟩
    refine ⟨after, same, ?_⟩
    change range RedisLink.listing codec visit start (handle, keyspace, listed :: orders) = _
    rw [range, opened, if_neg Bool.false_ne_true]
    exact visited
  | next => exact next_listing opened lists codec orders
  | keys => exact keys_listing opened lists codec orders
  | len =>
    rcases keys_listing opened lists codec orders with ⟨after, same, listed⟩
    refine ⟨after, same, ?_⟩
    change len RedisLink.listing codec (handle, keyspace, _ :: orders) = _
    rw [len, listed]
    rfl
  | clear =>
    rcases clear_listing opened lists codec orders with ⟨after, same, cleared⟩
    exact ⟨after, same, congrArg (Prod.mk ()) cleared⟩

end Redis
end TypedStore
