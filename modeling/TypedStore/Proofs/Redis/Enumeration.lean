import TypedStore.Proofs.Redis.Answers
import TypedStore.Proofs.Redis.Pagination

/-!
# Enumeration and clearing, whatever the pages

On a quiescent server everything that goes through the keys of a map goes through
its rows, each once, in some order: listing, counting, visiting, taking one entry
after another, and clearing.  The pages of the server only show in the order.

A row is a key of the server with its value.  Two rows may be of one key of the
map, if a key can be written in two ways; both are enumerated then.
-/

namespace TypedStore
namespace Redis

variable {σ κ : Type}

/-- The rows of the map, in the order in which a scan lists their keys. -/
def rowsInOrder (codec : KeyCodec κ) (options : RedisOptions) (keyspace : Tree)
    (listed : List Bytes) : List (Bytes × Bytes) :=
  listed.filterMap fun serverKey =>
    if (ownedKey? codec options serverKey).isSome then
      (keyspace.get? serverKey).map fun value => (serverKey, value)
    else none

section

variable {codec : KeyCodec κ} {options : RedisOptions} {keyspace : Tree} {listed : List Bytes}

theorem mem_rowsInOrder {serverKey value : Bytes} :
    (serverKey, value) ∈ rowsInOrder codec options keyspace listed ↔
      serverKey ∈ listed ∧ (serverKey, value) ∈ ownedRows codec options keyspace := by
  unfold rowsInOrder
  rw [List.mem_filterMap, mem_ownedRows]
  constructor
  · rintro ⟨other, member, read⟩
    split at read
    · next owned =>
      rcases Option.map_eq_some_iff.mp read with ⟨stored, found, same⟩
      cases same
      exact ⟨member, found, owned⟩
    · cases read
  · rintro ⟨member, found, owned⟩
    refine ⟨serverKey, member, ?_⟩
    rw [if_pos owned, found]
    rfl

/-- A scan lists the key of every row, once. -/
theorem Lists.rowsInOrder_perm (lists : Lists options keyspace listed) :
    (rowsInOrder codec options keyspace listed).Perm (ownedRows codec options keyspace) := by
  have distinct : (rowsInOrder codec options keyspace listed).Nodup := by
    apply lists.distinct.filterMap
    intro first second row firstRead secondRead
    simp only [Option.mem_def, Option.ite_none_right_eq_some, Option.map_eq_some_iff]
      at firstRead secondRead
    rcases firstRead with ⟨_, _, _, rfl⟩
    rcases secondRead with ⟨_, _, _, same⟩
    exact (congrArg Prod.fst same).symm
  apply (List.perm_ext_iff_of_nodup distinct (nodup_ownedRows keyspace).of_map).mpr
  rintro ⟨serverKey, value⟩
  rw [mem_rowsInOrder]
  refine ⟨And.right, fun member => ⟨?_, member⟩⟩
  rcases mem_ownedRows.mp member with ⟨found, owned⟩
  rcases Option.isSome_iff_exists.mp owned with ⟨key, ownedKey⟩
  apply (lists.members serverKey).mpr
  exact ⟨Option.isSome_iff_exists.mpr ⟨value, found⟩, isMatch_of_ownedKey? ownedKey⟩

/-- The entries that a scan reads are those of the rows. -/
theorem filterMap_entryAt?_eq (listed : List Bytes) :
    listed.filterMap (entryAt? codec options keyspace) =
      (rowsInOrder codec options keyspace listed).filterMap (readRow? options codec) := by
  rw [rowsInOrder, List.filterMap_filterMap]
  apply List.filterMap_congr
  intro serverKey _
  unfold entryAt?
  cases owned : ownedKey? codec options serverKey with
  | none => rfl
  | some key =>
    cases keyspace.get? serverKey with
    | none => rfl
    | some value =>
      simp only [Option.isSome_some, ↓reduceIte, Option.map_some, Option.bind_some, readRow?, owned]

/-- The keys that a scan lists are those of the rows. -/
theorem Lists.filterMap_ownedKey?_eq (lists : Lists options keyspace listed) :
    listed.filterMap (ownedKey? codec options) =
      (rowsInOrder codec options keyspace listed).filterMap
        fun row => ownedKey? codec options row.1 := by
  rw [rowsInOrder, List.filterMap_filterMap]
  apply List.filterMap_congr
  intro serverKey member
  rcases Option.isSome_iff_exists.mp ((lists.members serverKey).mp member).1 with ⟨value, found⟩
  cases owned : ownedKey? codec options serverKey with
  | none => rfl
  | some key =>
    simp only [Option.isSome_some, ↓reduceIte, found, Option.map_some, Option.bind_some, owned]

variable (codec options keyspace)

/-- Every row of the map is of one of its keys. -/
theorem length_filterMap_ownedKey? :
    ((ownedRows codec options keyspace).filterMap
      fun row => ownedKey? codec options row.1).length =
      (ownedRows codec options keyspace).length := by
  apply List.filterMap_length_eq_length.mpr
  intro row member
  exact (List.mem_filter.mp member).2

/-- The rows that do not belong to the map. -/
def foreignRows : Tree :=
  keyspace.restrict fun serverKey => (ownedKey? codec options serverKey).isNone = true

variable {codec options keyspace}

/-- Removing the keys of all rows leaves the rows that do not belong to the map. -/
theorem foldl_erase_eq_foreignRows {removed : List Bytes}
    (all : ∀ key, key ∈ removed ↔ key ∈ (ownedRows codec options keyspace).map Prod.fst) :
    removed.foldl Tree.erase keyspace = foreignRows codec options keyspace := by
  apply Tree.eq_of_get?
  intro serverKey
  rw [foreignRows, Tree.get?_restrict, Tree.get?_foldl_erase]
  by_cases foreign : (ownedKey? codec options serverKey).isNone = true
  · rw [if_pos foreign, if_neg]
    intro member
    rcases List.mem_map.mp ((all serverKey).mp member) with ⟨row, rowMember, rfl⟩
    have owned := (List.mem_filter.mp rowMember).2
    rw [Option.isNone_iff_eq_none.mp foreign] at owned
    cases owned
  · rw [if_neg foreign]
    cases found : keyspace.get? serverKey with
    | none => exact ite_self none
    | some value =>
      have owned : (ownedKey? codec options serverKey).isSome = true :=
        Option.ne_none_iff_isSome.mp (foreign ∘ Option.isNone_iff_eq_none.mpr)
      apply if_pos
      apply (all serverKey).mpr
      exact List.mem_map.mpr ⟨(serverKey, value), mem_ownedRows.mpr ⟨found, owned⟩, rfl⟩

/-- Removing one row leaves the others. -/
theorem cons_ownedRows_erase_perm {row : Bytes × Bytes}
    (member : row ∈ ownedRows codec options keyspace) :
    (row :: ownedRows codec options (keyspace.erase row.1)).Perm
      (ownedRows codec options keyspace) := by
  have distinct : ((ownedRows codec options keyspace).map Prod.fst).Nodup :=
    nodup_ownedRows keyspace
  have others : ownedRows codec options (keyspace.erase row.1) =
      (ownedRows codec options keyspace).erase row := by
    rw [ownedRows_erase, distinct.of_map.erase_eq_filter]
    apply List.filter_congr
    intro other otherMember
    have apart : other.1 = row.1 ↔ other = row :=
      ⟨fun same => List.inj_on_of_nodup_map distinct otherMember member same, congrArg Prod.fst⟩
    rw [bne, beq_eq_decide, ← decide_not, decide_eq_decide]
    exact not_congr apart
  rw [others]
  exact (List.perm_cons_erase member).symm

end

section

variable {link : RedisLink σ} {quiet : link.Quiescent} (codec : KeyCodec κ) {state : State σ}
  (steady : quiet.steady state.2) (opened : state.1.closed = false)
include steady opened

/-- Listing and counting go through the rows. -/
theorem keys_rows :
    (keys link codec state).1.Perm
        ((ownedRows codec state.1.options (quiet.keyspace state.2)).filterMap
          fun row => ownedKey? codec state.1.options row.1) ∧
      quiet.keyspace (keys link codec state).2.2 = quiet.keyspace state.2 := by
  have answered : Answers quiet codec state .keys (keys link codec state) :=
    keys_answers steady opened
  rcases answered with ⟨listed, lists, answer, _, same⟩
  refine ⟨?_, same⟩
  rw [answer]
  change (listed.filterMap (ownedKey? codec state.1.options)).Perm _
  rw [lists.filterMap_ownedKey?_eq]
  exact lists.rowsInOrder_perm.filterMap _

/-- Visiting goes through the rows until the visitor stops. -/
theorem range_rows {α : Type} (visit : Visitor κ Bytes α) (start : α) :
    (∃ order, order.Perm ((ownedRows codec state.1.options (quiet.keyspace state.2)).filterMap
          (readRow? state.1.options codec)) ∧
        (range link codec visit start state).1 = (visit.walk order start).1) ∧
      quiet.keyspace (range link codec visit start state).2.2 = quiet.keyspace state.2 := by
  have answered : Answers quiet codec state (.range visit start)
      (range link codec (α := α) visit start state) := range_answers steady opened visit start
  rcases answered with ⟨listed, lists, answer, _, same⟩
  refine ⟨⟨_, lists.rowsInOrder_perm.filterMap _, ?_⟩, same⟩
  rw [← filterMap_entryAt?_eq]
  exact answer

/-- Taking an entry takes a row, if there is one. -/
theorem next_row :
    Stays quiet state (next link codec state).2 ∧
      ((next link codec state).1 = none ∧
          ownedRows codec state.1.options (quiet.keyspace state.2) = [] ∧
          quiet.keyspace (next link codec state).2.2 = quiet.keyspace state.2 ∨
        ∃ row ∈ ownedRows codec state.1.options (quiet.keyspace state.2), ∃ entry,
          readRow? state.1.options codec row = some entry ∧
          (next link codec state).1 = some entry ∧
          quiet.keyspace (next link codec state).2.2 = (quiet.keyspace state.2).erase row.1) := by
  have answered : Answers quiet codec state .next (next link codec state) :=
    next_answers steady opened
  rcases answered with ⟨listed, lists, answer, stays, left⟩
  refine ⟨stays, ?_⟩
  rw [answerOn] at answer left
  cases taken : listed.find? fun serverKey =>
    (entryAt? codec state.1.options (quiet.keyspace state.2) serverKey).isSome with
  | none =>
    rw [taken] at answer left
    refine .inl ⟨answer, List.eq_nil_iff_forall_not_mem.mpr ?_, left⟩
    rintro ⟨serverKey, value⟩ member
    rcases mem_ownedRows.mp member with ⟨found, owned⟩
    rcases Option.isSome_iff_exists.mp owned with ⟨key, ownedKey⟩
    have onList := (lists.members serverKey).mpr
      ⟨Option.isSome_iff_exists.mpr ⟨value, found⟩, isMatch_of_ownedKey? ownedKey⟩
    have unread := List.find?_eq_none.mp taken serverKey onList
    rw [entryAt?, ownedKey, found] at unread
    exact unread rfl
  | some serverKey =>
    rw [taken] at answer left
    have isRead := List.find?_some (p := fun serverKey =>
      (entryAt? codec state.1.options (quiet.keyspace state.2) serverKey).isSome) taken
    rcases Option.isSome_iff_exists.mp isRead with ⟨entry, held⟩
    rcases Option.bind_eq_some_iff.mp held with ⟨key, owned, mapped⟩
    rcases Option.map_eq_some_iff.mp mapped with ⟨value, found, rfl⟩
    refine .inr ⟨(serverKey, value), mem_ownedRows.mpr ⟨found, ?_⟩, (key, value), ?_,
      answer.trans held, left⟩
    · rw [owned]
      rfl
    · rw [readRow?, owned]
      rfl

/-- Taking entries one after another takes as many rows as are asked for and there. -/
theorem drain_rows (limit : Nat) :
    ∃ taken left : List (Bytes × Bytes),
      (taken ++ left).Perm (ownedRows codec state.1.options (quiet.keyspace state.2)) ∧
      taken.length = min limit (ownedRows codec state.1.options (quiet.keyspace state.2)).length ∧
      ((Redis.storage link codec).drain limit state).1 =
        taken.filterMap (readRow? state.1.options codec) ∧
      quiet.keyspace ((Redis.storage link codec).drain limit state).2.2 =
        (taken.map Prod.fst).foldl Tree.erase (quiet.keyspace state.2) := by
  induction limit generalizing state with
  | zero => exact ⟨[], _, .refl _, (Nat.zero_min _).symm, rfl, rfl⟩
  | succ limit hypothesis =>
    rw [Storage.drain]
    rcases next_row codec steady opened with
      ⟨stays, ⟨nothing, none, same⟩ | ⟨row, member, entry, read, some, erased⟩⟩
    · have ended : (Redis.storage link codec).next state =
          (Option.none, (next link codec state).2) := Prod.ext nothing rfl
      rw [ended, none]
      exact ⟨[], [], .refl _, (Nat.min_zero _).symm, rfl, same⟩
    · have went : (Redis.storage link codec).next state =
          (Option.some entry, (next link codec state).2) := Prod.ext some rfl
      rw [went]
      rcases hypothesis stays.steady (stays.closed.trans opened) with
        ⟨taken, left, order, count, drained, keyspace⟩
      rw [stays.options, erased] at order count
      rw [stays.options] at drained
      have rows := cons_ownedRows_erase_perm member
      refine ⟨row :: taken, left, (order.cons row).trans rows, ?_, ?_, ?_⟩
      · rw [List.length_cons, count, ← rows.length_eq, List.length_cons]
        omega
      · rw [List.filterMap_cons, read, ← drained]
      · rw [keyspace, erased]
        rfl

/-- Clearing removes the rows of the map and no others. -/
theorem clear_rows :
    quiet.keyspace (clear link codec state).2 =
      foreignRows codec state.1.options (quiet.keyspace state.2) := by
  have answered : Answers quiet codec state .clear ((), clear link codec state) :=
    clear_answers steady opened
  rcases answered with ⟨listed, lists, _, _, left⟩
  rw [left]
  apply foldl_erase_eq_foreignRows
  intro serverKey
  rw [List.mem_filter, lists.members, List.mem_map]
  constructor
  · rintro ⟨⟨present, _⟩, owned⟩
    rcases Option.isSome_iff_exists.mp present with ⟨value, found⟩
    exact ⟨(serverKey, value), mem_ownedRows.mpr ⟨found, owned⟩, rfl⟩
  · rintro ⟨⟨serverKey, value⟩, member, rfl⟩
    rcases mem_ownedRows.mp member with ⟨found, owned⟩
    rcases Option.isSome_iff_exists.mp owned with ⟨key, ownedKey⟩
    exact ⟨⟨Option.isSome_iff_exists.mpr ⟨value, found⟩, isMatch_of_ownedKey? ownedKey⟩, owned⟩

end

/-- A visitor that never stops gathers from all entries. -/
theorem walk_of_goesOn {α : Type} (gather : κ → Bytes → α → α) (entries : List (κ × Bytes))
    (start : α) :
    Visitor.walk (fun key value gathered => (gather key value gathered, true)) entries start =
      (entries.foldl (fun gathered entry => gather entry.1 entry.2 gathered) start, true) := by
  induction entries generalizing start with
  | nil => rfl
  | cons entry rest hypothesis =>
    rw [List.foldl_cons]
    exact hypothesis (gather entry.1 entry.2 start)

/-- Whether all that goes through the keys of a map goes through its rows, each once. -/
structure Enumerates {link : RedisLink σ} (quiet : link.Quiescent) (codec : KeyCodec κ)
    (state : State σ) (rows : List (Bytes × Bytes)) : Prop where
  keys : (keys link codec state).1.Perm
    (rows.filterMap fun row => ownedKey? codec state.1.options row.1)
  /-- Entries are counted as they are listed, every row as one. -/
  len : (len link codec state).1 = (Redis.keys link codec state).1.length ∧
    (Redis.len link codec state).1 = rows.length
  range : ∀ {α : Type} (gather : κ → Bytes → α → α) (start : α),
    ∃ order : List (κ × Bytes), order.Perm (rows.filterMap (readRow? state.1.options codec)) ∧
    (range link codec (fun key value gathered => (gather key value gathered, true)) start
      state).1 = order.foldl (fun gathered entry => gather entry.1 entry.2 gathered) start
  next : (next link codec state).1 = none → rows = []
  drain : ∀ limit, rows.length ≤ limit →
    ((Redis.storage link codec).drain limit state).1.Perm
        (rows.filterMap (readRow? state.1.options codec)) ∧
      quiet.keyspace ((Redis.storage link codec).drain limit state).2.2 =
        foreignRows codec state.1.options (quiet.keyspace state.2)
  clear : quiet.keyspace (clear link codec state).2 =
    foreignRows codec state.1.options (quiet.keyspace state.2)

/-- Every quiescent server, whatever its pages, enumerates the rows of a map. -/
theorem enumerates_rows {link : RedisLink σ} (quiet : link.Quiescent) (codec : KeyCodec κ)
    {state : State σ} (steady : quiet.steady state.2) (opened : state.1.closed = false) :
    Enumerates quiet codec state
      (ownedRows codec state.1.options (quiet.keyspace state.2)) where
  keys := (keys_rows codec steady opened).1
  len := by
    refine ⟨rfl, ?_⟩
    change (Redis.keys link codec state).1.length = _
    rw [(keys_rows codec steady opened).1.length_eq]
    exact length_filterMap_ownedKey? codec state.1.options (quiet.keyspace state.2)
  range gather start := by
    rcases (range_rows codec steady opened _ start).1 with ⟨order, perm, visited⟩
    refine ⟨order, perm, visited.trans ?_⟩
    rw [walk_of_goesOn gather]
  next nothing := by
    rcases (next_row codec steady opened).2 with
      ⟨_, none, _⟩ | ⟨_, _, entry, _, some, _⟩
    · exact none
    · rw [nothing] at some
      cases some
  drain limit enough := by
    rcases drain_rows codec steady opened limit with
      ⟨taken, left, order, count, drained, keyspace⟩
    rw [Nat.min_eq_right enough] at count
    have all : left = [] := by
      have lengths := order.length_eq
      rw [List.length_append, count] at lengths
      exact List.length_eq_zero_iff.mp (by omega)
    rw [all, List.append_nil] at order
    rw [drained, keyspace]
    refine ⟨order.filterMap _, foldl_erase_eq_foreignRows fun key => ?_⟩
    exact (order.map Prod.fst).mem_iff
  clear := clear_rows codec steady opened

/-! ## A server that stutters -/

/-- The keys of a scan, in the order of the keyspace. -/
def scannedKeys (keyspace : Tree) (pattern : Bytes) : List Bytes :=
  (keyspace.entries.map Prod.fst).filter (Glob.isMatch pattern)

/-- Three pages: an empty one, one of all keys, and one that has them twice more. -/
def stuttering : Pagination where
  pages keyspace pattern _ :=
    [(0, []), (7, scannedKeys keyspace pattern),
      (3, (scannedKeys keyspace pattern).reverse ++ scannedKeys keyspace pattern)]
  bound _ := 3
  starts keyspace pattern count := ⟨[], _, rfl⟩
  distinct keyspace pattern count := by
    change [(0 : UInt64), 7, 3].Nodup
    decide
  members keyspace pattern count key := by
    simp only [List.flatMap_cons, List.flatMap_nil, List.nil_append, List.append_nil,
      List.mem_append, List.mem_reverse, or_self, scannedKeys, List.mem_filter,
      Tree.isSome_get?_iff]
  short keyspace pattern count := Nat.le_refl 3

/-- Two rows of a map, a key under its prefix that is not one whole key, and a key of
another program. -/
def crowded : Tree :=
  Tree.ofList [([107, 5], [1]), ([107, 6], [2]), ([107, 5, 6], [3]), ([120], [4])]

/-- A map behind a prefix is enumerated on the crowded server that stutters. -/
theorem stuttering_enumerates :
    crowded.size = 4 ∧
      Enumerates (RedisLink.pagedQuiescent stuttering) (Schema.int .i64).keyCodec
        (connected { keyPrefix := "k" }, crowded) [([107, 5], [1]), ([107, 6], [2])] := by
  have rows : ownedRows (Schema.int .i64).keyCodec { keyPrefix := "k" } crowded =
      [([107, 5], [1]), ([107, 6], [2])] := by
    decide +kernel
  refine ⟨by decide +kernel, ?_⟩
  rw [← rows]
  exact @enumerates_rows _ _ _ (RedisLink.pagedQuiescent stuttering) (Schema.int .i64).keyCodec
    (connected { keyPrefix := "k" }, crowded) trivial rfl

end Redis
end TypedStore
