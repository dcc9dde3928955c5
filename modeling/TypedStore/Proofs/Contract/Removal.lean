import TypedStore.Proofs.Contract.Lsm
import TypedStore.Proofs.Contract.Sqlite
import TypedStore.Proofs.Redis.Answers

/-!
# Removing keys, some of which cannot be written

Engines that write keys as bytes remove by the bytes.  A key that cannot be written has none,
and is passed over wherever it stands in the list; a key that is absent or listed again finds
nothing to remove.  `Storage.Removes` says what is left in the rows of an engine, which need
not be readable, and what its readers find.

The remote engine sends the bytes in batches.  Nothing is sent for a key that cannot be written,
whatever becomes of the commands.
-/

namespace TypedStore

variable {σ κ α β : Type} [BEq α] [LawfulBEq α]

/-- What removing keys does to an engine that holds rows under stored keys.  Exactly the rows of
the listed keys are gone, of those that can be stored, and every other key is read as before. -/
structure Storage.Removes (inner : Storage σ κ Bytes) (rows : σ → List (α × β))
    (stored? : κ → Option α) (removed : List κ) (state : σ) : Prop where
  rows : rows (inner.delete removed state) =
    (rows state).filter fun row => decide (row.1 ∉ removed.filterMap stored?)
  load : ∀ {ν : Type} (values : ValueCodec ν) (registry : Registry) (key : κ),
    ((Adapter.storage values inner).load key
        ((Adapter.storage values inner).delete removed (registry, state))).1 =
      if stored? key ∈ removed.map stored? then none
      else ((Adapter.storage values inner).load key (registry, state)).1

/-- It is enough to know the payloads that are found under keys that can be stored. -/
theorem Storage.Removes.of_payloads {inner : Storage σ κ Bytes} {rows : σ → List (α × β)}
    {stored? : κ → Option α} {removed : List κ} {state : σ}
    (left : rows (inner.delete removed state) =
      (rows state).filter fun row => decide (row.1 ∉ removed.filterMap stored?))
    (held : σ → α → Option Bytes)
    (before : ∀ key, (inner.load key state).1 = (stored? key).bind (held state))
    (after : ∀ key, (inner.load key (inner.delete removed state)).1 =
      (stored? key).bind (held (inner.delete removed state)))
    (gone : ∀ stored, held (inner.delete removed state) stored =
      if stored ∈ removed.filterMap stored? then none else held state stored) :
    inner.Removes rows stored? removed state where
  rows := left
  load values registry key := by
    have loaded : ∀ state, ((Adapter.storage values inner).load key (registry, state)).1 =
        (inner.load key state).1.bind fun bytes => (values.decode bytes registry).toOption :=
      fun _ => rfl
    change ((Adapter.storage values inner).load key (registry, inner.delete removed state)).1 = _
    rw [loaded, loaded, before, after]
    cases found : stored? key with
    | none => exact (ite_self none).symm
    | some stored =>
      have listed : stored ∈ removed.filterMap stored? ↔ some stored ∈ removed.map stored? := by
        rw [List.mem_filterMap, List.mem_map]
      rw [Option.bind_some, Option.bind_some, gone]
      by_cases member : stored ∈ removed.filterMap stored?
      · rw [if_pos member, if_pos (listed.mp member)]
        rfl
      · rw [if_neg member, if_neg fun other => member (listed.mpr other)]

/-! ## The log-structured engine -/

namespace Tree

/-- Removing keys one after another leaves the entries of all other keys. -/
theorem entries_foldl_erase (removed : List Bytes) (tree : Tree) :
    (removed.foldl erase tree).entries =
      tree.entries.filter fun entry => decide (entry.1 ∉ removed) := by
  have same : removed.foldl erase tree = tree.restrict (· ∉ removed) := by
    apply eq_of_get?
    intro wanted
    rw [get?_foldl_erase, get?_restrict, ite_not]
  rw [same]
  rfl

end Tree

namespace Lsm

variable {codec : KeyCodec κ}

/-- Whatever the count of a handle says, it goes down by one for each entry that goes. -/
theorem removeStored_eq (lsm : Lsm) (bytes : Bytes) :
    lsm.removeStored bytes =
      { lsm with
        entries := lsm.entries.erase bytes
        count := lsm.count - (lsm.entries.size - (lsm.entries.erase bytes).size : Int) } := by
  have size := lsm.entries.size_erase bytes
  rw [removeStored]
  cases found : lsm.entries.get? bytes with
  | none =>
    rw [Tree.erase_of_absent found, Int.sub_self, Int.sub_zero]
    rfl
  | some stored =>
    rw [found, Option.isSome_some, if_pos rfl] at size
    have some : 0 < lsm.entries.size := by
      rw [Tree.get?_eq_listing] at found
      exact List.length_pos_of_mem (Listing.mem_of_find? found)
    have one : (lsm.entries.size - (lsm.entries.erase bytes).size : Int) = 1 := by
      rw [size]
      omega
    rw [Option.isSome_some, if_pos rfl, one]

theorem delete_eq (lsm : Lsm) (opened : lsm.closed = false) (removed : List κ) :
    lsm.delete codec removed =
      { lsm with
        entries := (removed.filterMap codec.bytes?).foldl Tree.erase lsm.entries
        count := lsm.count - (lsm.entries.size -
          ((removed.filterMap codec.bytes?).foldl Tree.erase lsm.entries).size : Int) } := by
  rw [delete, opened, if_neg Bool.false_ne_true]
  rw [← opened]
  generalize removed.filterMap codec.bytes? = listed
  clear opened
  induction listed generalizing lsm with
  | nil =>
    change lsm = { lsm with count := lsm.count - (lsm.entries.size - lsm.entries.size : Int) }
    rw [Int.sub_self, Int.sub_zero]
  | cons bytes rest hypothesis =>
    rw [List.foldl_cons, hypothesis, removeStored_eq]
    simp only [List.foldl_cons, Lsm.mk.injEq, true_and, and_true]
    omega

theorem removes {aead : Aead} {lsm : Lsm} (opened : lsm.closed = false) (removed : List κ) :
    (Lsm.storage aead codec).Removes (fun lsm => lsm.entries.entries) codec.bytes? removed lsm := by
  have left : lsm.delete codec removed = _ := lsm.delete_eq opened removed
  have entries := congrArg Lsm.entries left
  have protection := congrArg Lsm.protection left
  have loaded : ∀ {lsm : Lsm}, lsm.closed = false → ∀ key, lsm.load aead codec key =
      (codec.bytes? key).bind fun bytes => (lsm.entries.get? bytes).bind fun stored =>
        (lsm.protection.unlock aead stored).toOption := by
    intro lsm opened key
    rw [load, opened]
    rfl
  refine .of_payloads ?_ (fun lsm bytes => (lsm.entries.get? bytes).bind fun stored =>
    (lsm.protection.unlock aead stored).toOption) ?_ ?_ ?_
  · change (lsm.delete codec removed).entries.entries = _
    rw [entries]
    exact Tree.entries_foldl_erase _ _
  · exact loaded opened
  · exact loaded ((congrArg Lsm.closed left).trans opened)
  · intro bytes
    change ((lsm.delete codec removed).entries.get? bytes).bind _ = _
    rw [entries, Tree.get?_foldl_erase]
    split
    · rfl
    · change (lsm.entries.get? bytes).bind (fun stored =>
        ((lsm.delete codec removed).protection.unlock aead stored).toOption) = _
      rw [protection]

end Lsm

/-! ## The table engine -/

namespace SqlTable

theorem rows_foldl_erase {removed : List SqlValue} (notNull : ∀ key ∈ removed, key ≠ .null)
    (table : SqlTable) : (removed.foldl erase table).rows =
      table.rows.filter fun row => decide (row.1 ∉ removed) := by
  induction removed generalizing table with
  | nil => exact (List.filter_true table.rows).symm
  | cons key rest hypothesis =>
    rw [List.foldl_cons, hypothesis fun other member => notNull other (List.mem_cons_of_mem _ member),
      table.rows_erase (notNull key List.mem_cons_self), List.filter_filter]
    apply List.filter_congr
    intro row _
    rw [Bool.and_comm, ← Bool.decide_and, decide_eq_decide, List.mem_cons, not_or]

theorem find?_filter {first second : SqlTable} (kept : SqlValue → Bool)
    (left : second.rows = first.rows.filter fun row => kept row.1) (key : SqlValue) :
    second.find? key = if kept key then first.find? key else none := by
  rw [find?, find?, left, List.find?_filter]
  cases keeps : kept key with
  | true =>
    apply congrArg (List.find? · first.rows)
    funext row
    rw [decide_eq_decide, decide_eq_true_iff, and_iff_right_iff_imp]
    rintro ⟨same, _⟩
    rw [same, keeps]
  | false =>
    apply List.find?_eq_none.mpr
    intro row _ found
    rw [decide_eq_true_iff, decide_eq_true_iff] at found
    rcases found with ⟨stays, same, _⟩
    rw [same, keeps] at stays
    exact Bool.false_ne_true stays

end SqlTable

namespace Sqlite

variable {codec : KeyCodec κ}

theorem removes {table : SqlTable} {handle : Sqlite} (opened : handle.closed = false)
    (removed : List κ) : (Sqlite.storage codec).Removes (fun state => state.1.rows)
      (cell? codec) removed (table, handle) := by
  have notNull : ∀ cell ∈ removed.filterMap (cell? codec), cell ≠ .null := by
    intro cell member
    rcases List.mem_filterMap.mp member with ⟨key, _, found⟩
    rcases Option.map_eq_some_iff.mp found with ⟨bytes, _, rfl⟩
    exact SqlValue.noConfusion
  have left : (delete codec removed (table, handle)).1.rows =
      table.rows.filter fun row => decide (row.1 ∉ removed.filterMap (cell? codec)) := by
    cases removed with
    | nil => exact (List.filter_true table.rows).symm
    | cons key rest =>
      rw [delete, opened]
      exact SqlTable.rows_foldl_erase notNull table
  have stillOpen : (delete codec removed (table, handle)).2.closed = false := by
    rw [delete]
    split <;> exact opened
  have loaded : ∀ state : State, state.2.closed = false → ∀ key, load codec key state =
      (cell? codec key).bind fun cell => (state.1.find? cell).bind fun row => row.2.bytes? := by
    rintro ⟨table, handle⟩ opened key
    change handle.closed = false at opened
    rw [load, opened]
    rfl
  refine .of_payloads left (fun state cell => (state.1.find? cell).bind fun row => row.2.bytes?)
    (loaded (table, handle) opened) (loaded _ stillOpen) ?_
  intro cell
  change ((delete codec removed (table, handle)).1.find? cell).bind _ = _
  rw [SqlTable.find?_filter (fun cell => decide (cell ∉ removed.filterMap (cell? codec))) left cell]
  by_cases listed : cell ∈ removed.filterMap (cell? codec)
  · rw [if_pos listed, decide_eq_false fun absent => absent listed]
    rfl
  · rw [if_neg listed, decide_eq_true listed]
    rfl

end Sqlite

/-! ## The remote engine -/

namespace Redis

variable {link : RedisLink σ} {codec : KeyCodec κ}

/-- Nothing is sent for keys that cannot be written, on any connection. -/
theorem delete_eq_delete_writable (removed : List κ) (state : State σ) :
    delete link codec removed state =
      delete link codec (removed.filter fun key => (codec.bytes? key).isSome) state := by
  have sent : removed.filterMap (serverKey? codec state.1.options) =
      (removed.filter fun key => (codec.bytes? key).isSome).filterMap
        (serverKey? codec state.1.options) := by
    rw [List.filterMap_filter]
    apply List.filterMap_congr
    intro key _
    rw [serverKey?]
    cases codec.bytes? key <;> rfl
  rw [delete, delete, ← sent]
  cases closed : state.1.closed with
  | true => rw [Bool.or_true, Bool.or_true]
  | false =>
    rw [Bool.or_false, Bool.or_false]
    cases removed with
    | nil => rfl
    | cons first rest =>
      rw [List.isEmpty_cons, if_neg Bool.false_ne_true]
      cases writable : (first :: rest).filter fun key => (codec.bytes? key).isSome with
      | nil =>
        rw [writable] at sent
        rw [sent]
        rfl
      | cons _ _ => rfl

theorem removes {quiet : link.Quiescent} {state : State σ} (opened : state.1.closed = false)
    (steady : quiet.steady state.2) (removed : List κ) :
    (Redis.storage link codec).Removes (fun state => (quiet.keyspace state.2).entries)
      (serverKey? codec state.1.options) removed state := by
  have deleted : Answers quiet codec state (.delete removed) ((), delete link codec removed state) :=
    delete_answers steady opened removed
  rcases deleted with ⟨_, _, _, stays, keyspace⟩
  have loaded : ∀ {state : State σ}, state.1.closed = false → quiet.steady state.2 →
      ∀ key, (load link codec key state).1 =
        (serverKey? codec state.1.options key).bind (quiet.keyspace state.2).get? := by
    intro state opened steady key
    have read : Answers quiet codec state (.load key) (load link codec key state) :=
      load_answers steady opened key
    rcases read with ⟨_, _, answer, _⟩
    exact answer
  have after := loaded (stays.closed.trans opened) stays.steady
  rw [stays.options] at after
  change quiet.keyspace (delete link codec removed state).2 =
    (removed.filterMap (serverKey? codec state.1.options)).foldl Tree.erase
      (quiet.keyspace state.2) at keyspace
  refine .of_payloads ?_ (fun state => (quiet.keyspace state.2).get?) (loaded opened steady) after ?_
  · change (quiet.keyspace (delete link codec removed state).2).entries = _
    rw [keyspace]
    exact Tree.entries_foldl_erase _ _
  · intro serverKey
    change (quiet.keyspace (delete link codec removed state).2).get? serverKey = _
    rw [keyspace, Tree.get?_foldl_erase]

end Redis
end TypedStore
