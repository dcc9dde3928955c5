import TypedStore.Proofs.Redis.Rows
import TypedStore.Proofs.Storage.Calls

/-!
# Calls as functions of the keyspace

On a quiescent server a call is a function of the keyspace and of the order in
which the server lists the keys that a scan asks for: `answerOn`.  Every call of
an open handle is of this form for some listing of all the keys that match,
each once, whatever pages the server makes of them.

`RedisLink.listing` is a server for which the listings are given in advance.  It
shows that every listing can occur, so that `answerOn` says no more than a
server may do.
-/

namespace TypedStore
namespace Redis

variable {σ κ : Type}

/-- Whether a list holds the keys that a scan asks for, each once. -/
structure Lists (options : RedisOptions) (keyspace : Tree) (listed : List Bytes) : Prop where
  distinct : listed.Nodup
  members : ∀ key, key ∈ listed ↔
    (keyspace.get? key).isSome = true ∧ Glob.isMatch options.pattern key = true

/-- What a call answers and leaves, where these are the keys that a scan lists. -/
def answerOn (codec : KeyCodec κ) (options : RedisOptions) (listed : List Bytes)
    (keyspace : Tree) : (call : StorageCall κ Bytes) → call.Answer × Tree
  | .load key => ((serverKey? codec options key).bind keyspace.get?, keyspace)
  | .store key value =>
    ((), match serverKey? codec options key with
      | none => keyspace
      | some serverKey => keyspace.insert serverKey value)
  | .storeIfAbsent key value =>
    match serverKey? codec options key with
    | none => (false, keyspace)
    | some serverKey =>
      if (keyspace.get? serverKey).isSome then (false, keyspace)
      else (true, keyspace.insert serverKey value)
  | .delete keys => ((), (keys.filterMap (serverKey? codec options)).foldl Tree.erase keyspace)
  | .range visit start =>
    ((visit.walk (listed.filterMap (entryAt? codec options keyspace)) start).1, keyspace)
  | .next =>
    match listed.find? fun serverKey => (entryAt? codec options keyspace serverKey).isSome with
    | none => (none, keyspace)
    | some serverKey => (entryAt? codec options keyspace serverKey, keyspace.erase serverKey)
  | .keys => (listed.filterMap (ownedKey? codec options), keyspace)
  | .len => ((listed.filterMap (ownedKey? codec options)).length, keyspace)
  | .clear =>
    ((), (listed.filter fun serverKey => (ownedKey? codec options serverKey).isSome).foldl
      Tree.erase keyspace)

/-! ## Quiescent servers -/

section

variable {link : RedisLink σ} {quiet : link.Quiescent} {codec : KeyCodec κ} {state : State σ}

theorem exists_lists (options : RedisOptions) (keyspace : Tree) :
    ∃ listed, Lists options keyspace listed := by
  refine ⟨(keyspace.entries.map Prod.fst).filter (Glob.isMatch options.pattern),
    keyspace.nodup_keys.filter _, ?_⟩
  intro key
  rw [List.mem_filter, Tree.isSome_get?_iff]

/-- An entry that is taken comes first in some listing. -/
theorem exists_lists_cons {options : RedisOptions} {keyspace : Tree} {serverKey : Bytes}
    (present : (keyspace.get? serverKey).isSome = true)
    (matched : Glob.isMatch options.pattern serverKey = true) :
    ∃ rest, Lists options keyspace (serverKey :: rest) := by
  rcases exists_lists options keyspace with ⟨listed, distinct, members⟩
  have member := (members serverKey).mpr ⟨present, matched⟩
  refine ⟨listed.erase serverKey, ?_, ?_⟩
  · exact (List.perm_cons_erase member).nodup_iff.mp distinct
  · intro key
    rw [← (List.perm_cons_erase member).mem_iff, members]

/-- Whether a call answers and leaves what it does for some listing. -/
def Answers (quiet : link.Quiescent) (codec : KeyCodec κ) (state : State σ)
    (call : StorageCall κ Bytes) (answered : call.Answer × State σ) : Prop :=
  ∃ listed, Lists state.1.options (quiet.keyspace state.2) listed ∧
    answered.1 = (answerOn codec state.1.options listed (quiet.keyspace state.2) call).1 ∧
    Stays quiet state answered.2 ∧ quiet.keyspace answered.2.2 =
      (answerOn codec state.1.options listed (quiet.keyspace state.2) call).2

variable (steady : quiet.steady state.2) (opened : state.1.closed = false)
include steady opened

theorem load_answers (key : κ) :
    Answers quiet codec state (.load key) (load link codec key state) := by
  rcases exists_lists state.1.options (quiet.keyspace state.2) with ⟨listed, lists⟩
  refine ⟨listed, lists, ?_⟩
  rw [load, opened, if_neg Bool.false_ne_true, answerOn]
  cases serverKey? codec state.1.options key with
  | none => exact ⟨rfl, .refl steady, rfl⟩
  | some serverKey =>
    rcases get_spec steady serverKey with ⟨after, stays, same, got⟩
    dsimp only [Option.bind_some]
    rcases got with ⟨absent, answered⟩ | ⟨value, present, answered⟩
    · rw [answered, absent]
      exact ⟨rfl, stays, same⟩
    · rw [answered, present]
      exact ⟨rfl, stays, same⟩

theorem store_answers (accepted : quiet.accepts state.1.options.expireMillis) (key : κ)
    (value : Bytes) :
    Answers quiet codec state (.store key value) ((), store link codec key value state) := by
  rcases exists_lists state.1.options (quiet.keyspace state.2) with ⟨listed, lists⟩
  refine ⟨listed, lists, rfl, ?_⟩
  rw [store, opened, if_neg Bool.false_ne_true, answerOn]
  cases serverKey? codec state.1.options key with
  | none => exact ⟨.refl steady, rfl⟩
  | some serverKey =>
    rcases set_spec steady accepted serverKey value false with ⟨after, written, stays, keyspace⟩
    dsimp only
    rw [written]
    exact ⟨stays, keyspace⟩

theorem storeIfAbsent_answers (accepted : quiet.accepts state.1.options.expireMillis) (key : κ)
    (value : Bytes) :
    Answers quiet codec state (.storeIfAbsent key value)
      (storeIfAbsent link codec key value state) := by
  rcases exists_lists state.1.options (quiet.keyspace state.2) with ⟨listed, lists⟩
  refine ⟨listed, lists, ?_⟩
  rw [storeIfAbsent, opened, if_neg Bool.false_ne_true, answerOn]
  cases serverKey? codec state.1.options key with
  | none => exact ⟨rfl, .refl steady, rfl⟩
  | some serverKey =>
    rcases set_spec steady accepted serverKey value true with ⟨after, written, stays, keyspace⟩
    rw [Bool.true_and] at written keyspace
    dsimp only
    rw [written]
    split at keyspace
    · next present => rw [if_pos present, present]; exact ⟨rfl, stays, keyspace⟩
    · next absent =>
      rw [if_neg absent, Bool.eq_false_iff.mpr absent]
      exact ⟨rfl, stays, keyspace⟩

theorem delete_answers (removed : List κ) :
    Answers quiet codec state (.delete removed) ((), delete link codec removed state) := by
  rcases exists_lists state.1.options (quiet.keyspace state.2) with ⟨listed, lists⟩
  refine ⟨listed, lists, rfl, ?_⟩
  cases removed with
  | nil => exact ⟨.refl steady, rfl⟩
  | cons key rest =>
    rcases deleteRaw_spec ((key :: rest).filterMap (serverKey? codec state.1.options)) steady with
      ⟨after, deleted, stays, keyspace⟩
    rw [delete, opened, List.isEmpty_cons, Bool.or_false, if_neg Bool.false_ne_true, deleted]
    exact ⟨stays, keyspace⟩

theorem range_answers {α : Type} (visit : Visitor κ Bytes α) (start : α) :
    Answers quiet codec state (.range visit start)
      (range link codec (α := α) visit start state) := by
  rcases owing_start steady with ⟨pages, bound, owing⟩
  rcases rangeFrom_spec codec visit pages start steady (owing.weaken fun _ _ _ => trivial) with
    ⟨listed, after, visited, stays, same, distinct, members⟩
  have answered : range link codec visit start state = ((visit.walk (listed.filterMap
      (entryAt? codec state.1.options (quiet.keyspace state.2))) start).1, after) := by
    rw [range, opened, if_neg Bool.false_ne_true, bound, visited]
  rw [answered]
  refine ⟨listed, ⟨distinct, ?_⟩, rfl, stays, same⟩
  intro key
  rw [members]
  exact and_iff_left List.not_mem_nil

theorem next_answers : Answers quiet codec state .next (next link codec state) := by
  rcases owing_start steady with ⟨pages, bound, owing⟩
  rw [next, opened, if_neg Bool.false_ne_true, bound]
  rcases popFrom_spec codec pages steady (owing.weaken fun _ _ _ => trivial) with
    ⟨after, taken, stays, same, foreign⟩ | ⟨entry, after, taken, stays, serverKey, held, keyspace⟩
  · rcases exists_lists state.1.options (quiet.keyspace state.2) with ⟨listed, lists⟩
    have nothing : listed.find? (fun serverKey =>
        (entryAt? codec state.1.options (quiet.keyspace state.2) serverKey).isSome) = none := by
      apply List.find?_eq_none.mpr
      intro serverKey member
      rw [entryAt?, foreign serverKey ((lists.members serverKey).mp member)]
      exact Bool.false_ne_true
    rw [taken]
    refine ⟨listed, lists, ?_⟩
    rw [answerOn, nothing]
    exact ⟨rfl, stays, same⟩
  · -- The entry taken is the first of a listing that begins with its key.
    rcases Option.bind_eq_some_iff.mp held with ⟨key, owned, mapped⟩
    rcases Option.map_eq_some_iff.mp mapped with ⟨value, found, _⟩
    have present : ((quiet.keyspace state.2).get? serverKey).isSome = true := by
      rw [found]
      rfl
    rcases exists_lists_cons present (isMatch_of_ownedKey? owned) with ⟨rest, lists⟩
    have first : (serverKey :: rest).find? (fun serverKey =>
        (entryAt? codec state.1.options (quiet.keyspace state.2) serverKey).isSome) =
        some serverKey := by
      apply List.find?_cons_of_pos
      rw [held]
      rfl
    rw [taken]
    refine ⟨serverKey :: rest, lists, ?_⟩
    rw [answerOn, first]
    exact ⟨held.symm, stays, keyspace⟩

theorem keys_answers : Answers quiet codec state .keys (keys link codec state) := by
  rcases scanKeys_spec steady with ⟨listed, after, scanned, stays, same, distinct, members⟩
  refine ⟨listed, ⟨distinct, members⟩, ?_⟩
  rw [keys, opened, if_neg Bool.false_ne_true, scanned, ← stays.options]
  exact ⟨rfl, stays, same⟩

theorem clear_answers : Answers quiet codec state .clear ((), clear link codec state) := by
  rcases scanKeys_spec steady with ⟨listed, scanned, found, stays, same, distinct, members⟩
  rcases deleteRaw_spec (listed.filter fun serverKey =>
    (ownedKey? codec scanned.1.options serverKey).isSome) stays.steady with
    ⟨after, deleted, deleteStays, keyspace⟩
  refine ⟨listed, ⟨distinct, members⟩, rfl, ?_⟩
  rw [clear, opened, if_neg Bool.false_ne_true, found]
  dsimp only
  rw [deleted]
  refine ⟨deleteStays.trans stays, ?_⟩
  rw [keyspace, same, stays.options]
  rfl

/-- Every call of an open handle is a function of the keyspace and of some listing. -/
theorem perform_answers (accepted : quiet.accepts state.1.options.expireMillis)
    (call : StorageCall κ Bytes) :
    Answers quiet codec state call ((Redis.storage link codec).perform call state) := by
  cases call with
  | load key => exact load_answers steady opened key
  | store key value => exact store_answers steady opened accepted key value
  | storeIfAbsent key value => exact storeIfAbsent_answers steady opened accepted key value
  | delete removed => exact delete_answers steady opened removed
  | range visit start => exact range_answers steady opened visit start
  | next => exact next_answers steady opened
  | keys => exact keys_answers steady opened
  | len =>
    rcases keys_answers steady opened with ⟨listed, lists, answer, later⟩
    exact ⟨listed, lists, congrArg List.length answer, later⟩
  | clear => exact clear_answers steady opened

end

end Redis
end TypedStore
