import TypedStore.Proofs.Contract.Refinement
import TypedStore.Proofs.Redis.Rows

/-!
# The remote engine is a finite map

On a quiescent server that accepts the expiry of a handle, the rows behind the
prefix mirror a map.  Keys of other programs may be there too; they are neither read
nor removed.  The server keeps an entry until a command removes it, so nothing is
said here about entries that expire.
-/

namespace TypedStore
namespace Redis

variable {σ κ : Type} {link : RedisLink σ} {quiet : link.Quiescent} {codec : KeyCodec κ}

/-- The map that a handle and its server stand for. -/
inductive Represents (quiet : link.Quiescent) (codec : KeyCodec κ) :
    State σ → MapState κ Bytes → Prop where
  | closed {state : State σ} (closed : state.1.closed = true) : Represents quiet codec state none
  | opened {state : State σ} {contents : Listing κ Bytes} (opened : state.1.closed = false)
    (steady : quiet.steady state.2) (accepted : quiet.accepts state.1.options.expireMillis)
    (mirrors : Mirrors (SpellsServerKey codec state.1.options) Eq
      (ownedRows codec state.1.options (quiet.keyspace state.2)) contents) :
    Represents quiet codec state (some contents)

section

variable {state after : State σ} {contents : Listing κ Bytes}

/-- What the handle stands for, when the rows after a command are known. -/
theorem Stays.represents (stays : Stays quiet state after) (opened : state.1.closed = false)
    (accepted : quiet.accepts state.1.options.expireMillis)
    (mirrors : Mirrors (SpellsServerKey codec state.1.options) Eq
      (ownedRows codec state.1.options (quiet.keyspace after.2)) contents) :
    Represents quiet codec after (some contents) := by
  refine .opened (stays.closed.trans opened) stays.steady ?_ ?_
  · rw [stays.options]
    exact accepted
  · rw [stays.options]
    exact mirrors

/-- A command that leaves the keyspace as it is leaves the map as it is. -/
theorem Stays.represents_same (stays : Stays quiet state after)
    (same : quiet.keyspace after.2 = quiet.keyspace state.2) (opened : state.1.closed = false)
    (accepted : quiet.accepts state.1.options.expireMillis)
    (mirrors : Mirrors (SpellsServerKey codec state.1.options) Eq
      (ownedRows codec state.1.options (quiet.keyspace state.2)) contents) :
    Represents quiet codec after (some contents) := by
  apply stays.represents opened accepted
  rw [same]
  exact mirrors

end

section

variable {options : RedisOptions} {keyspace : Tree} {contents : Listing κ Bytes}

/-- What a walk over all keys reads is the entries of the map. -/
theorem filterMap_entryAt?_perm_entries {listed : List Bytes} (distinct : listed.Nodup)
    (members : ∀ key, key ∈ listed ↔
      (keyspace.get? key).isSome = true ∧ Glob.isMatch options.pattern key = true)
    (mirrors : Mirrors (SpellsServerKey codec options) Eq (ownedRows codec options keyspace)
      contents) :
    (listed.filterMap (entryAt? codec options keyspace)).Perm contents.entries := by
  refine (filterMap_entryAt?_perm distinct members).trans (mirrors.filterMap_perm ?_)
  rintro ⟨serverKey, stored⟩ ⟨key, value⟩ spelled same
  dsimp only at spelled same
  rw [readRow?, spelled.ownedKey?, same]
  rfl

/-- The entry read under a key of the server is one of the map, and removing the
key removes it. -/
theorem mirrors_of_entryAt? [DecidableEq κ]
    (mirrors : Mirrors (SpellsServerKey codec options) Eq (ownedRows codec options keyspace)
      contents) {serverKey : Bytes} {key : κ} {value : Bytes}
    (held : entryAt? codec options keyspace serverKey = some (key, value)) :
    contents.get? key = some value ∧
      Mirrors (SpellsServerKey codec options) Eq
        (ownedRows codec options (keyspace.erase serverKey)) (contents.erase key) := by
  rcases Option.bind_eq_some_iff.mp held with ⟨ownedKey, owned, mapped⟩
  rcases Option.map_eq_some_iff.mp mapped with ⟨stored, found, same⟩
  cases same
  have listed : (serverKey, value) ∈ ownedRows codec options keyspace := by
    refine mem_ownedRows.mpr ⟨found, ?_⟩
    rw [owned]
    rfl
  rcases mirrors.exists_of_mem listed with ⟨spelledKey, sameValue, spelled, rfl, member⟩
  have sameKey : spelledKey = key := by
    have both := spelled.ownedKey?.symm.trans owned
    exact Option.some.inj both
  rw [sameKey] at spelled member
  refine ⟨Listing.get?_of_mem member, ?_⟩
  rw [ownedRows_erase]
  exact mirrors.filter biUnique_spellsServerKey spelled

variable [DecidableEq κ]

/-- Looking up in the keyspace is looking up in the map. -/
theorem get?_eq_contents (mirrors : Mirrors (SpellsServerKey codec options) Eq
      (ownedRows codec options keyspace) contents) {serverKey : Bytes} {key : κ}
    (spelled : SpellsServerKey codec options serverKey key) :
    keyspace.get? serverKey = contents.get? key := by
  have found := mirrors.find? biUnique_spellsServerKey spelled
  rw [find?_ownedRows keyspace spelled.ownedKey?] at found
  exact eq_of_rel_eq found

theorem mirrors_insert (mirrors : Mirrors (SpellsServerKey codec options) Eq
      (ownedRows codec options keyspace) contents) {serverKey : Bytes} {key : κ}
    (spelled : SpellsServerKey codec options serverKey key) (value : Bytes) :
    Mirrors (SpellsServerKey codec options) Eq
      (ownedRows codec options (keyspace.insert serverKey value)) (contents.insert key value) :=
  mirrors.insert biUnique_spellsServerKey spelled rfl
    (ownedRows_insert_perm keyspace spelled.ownedKey? value)

/-- A key for which nothing can be written is not in the map, and is passed over. -/
theorem mirrors_foldl_erase {removed : List κ} (faithful : ∀ key ∈ removed, codec.Faithful key)
    (mirrors : Mirrors (SpellsServerKey codec options) Eq (ownedRows codec options keyspace)
      contents) :
    Mirrors (SpellsServerKey codec options) Eq
      (ownedRows codec options
        ((removed.filterMap (serverKey? codec options)).foldl Tree.erase keyspace))
      (contents.eraseAll removed) := by
  induction removed generalizing keyspace contents with
  | nil => exact mirrors
  | cons key rest hypothesis =>
    have others : ∀ other ∈ rest, codec.Faithful other :=
      fun other member => faithful other (List.mem_cons_of_mem _ member)
    rcases (faithful key List.mem_cons_self).spelled_or with known | ⟨unwritable, unspelled⟩
    · rcases exists_spellsServerKey options known with ⟨serverKey, spelled⟩
      rw [List.filterMap_cons, spelled.serverKey?]
      apply hypothesis others
      rw [ownedRows_erase]
      exact mirrors.filter biUnique_spellsServerKey spelled
    · have noKey : serverKey? codec options key = none := by
        rw [serverKey?, unwritable]
        rfl
      rw [List.filterMap_cons, noKey,
        mirrors.eraseAll_cons_of_unspelled (not_spellsServerKey unspelled)]
      exact hypothesis others mirrors

end

/-! ## Operations -/

section

variable {state : State σ}

/-- Looking a key up finds what the server holds for it. -/
theorem load_of_writable (opened : state.1.closed = false) (steady : quiet.steady state.2) {key : κ}
    {serverKey : Bytes} (writable : serverKey? codec state.1.options key = some serverKey) :
    ∃ after, load link codec key state = ((quiet.keyspace state.2).get? serverKey, after) ∧
      Stays quiet state after ∧ quiet.keyspace after.2 = quiet.keyspace state.2 := by
  rcases get_spec steady serverKey with ⟨after, stays, same, got⟩
  refine ⟨after, ?_, stays, same⟩
  rw [load, opened, if_neg Bool.false_ne_true, writable]
  dsimp only
  rcases got with ⟨absent, answered⟩ | ⟨value, held, answered⟩
  · rw [answered, absent]
  · rw [answered, held]

/-- A value is inserted under a key for which the server holds nothing. -/
theorem storeIfAbsent_of_writable (opened : state.1.closed = false)
    (steady : quiet.steady state.2) (accepted : quiet.accepts state.1.options.expireMillis)
    {key : κ} {serverKey : Bytes}
    (writable : serverKey? codec state.1.options key = some serverKey) (value : Bytes) :
    ∃ after, storeIfAbsent link codec key value state =
        (!((quiet.keyspace state.2).get? serverKey).isSome, after) ∧
      Stays quiet state after ∧
      quiet.keyspace after.2 =
        if ((quiet.keyspace state.2).get? serverKey).isSome then quiet.keyspace state.2
        else (quiet.keyspace state.2).insert serverKey value := by
  rcases set_spec steady accepted serverKey value true with ⟨after, written, stays, keyspace⟩
  rw [Bool.true_and] at written keyspace
  refine ⟨after, ?_, stays, keyspace⟩
  rw [storeIfAbsent, opened, if_neg Bool.false_ne_true, writable]
  dsimp only
  rw [written]

end

section

variable [DecidableEq κ] {state : State σ} {map : MapState κ Bytes}

theorem load_spec (represents : Represents quiet codec state map) {key : κ}
    (faithful : codec.Faithful key) :
    (load link codec key state).1 = map.seen.get? key ∧
      Represents quiet codec (load link codec key state).2 map := by
  cases represents with
  | closed closed =>
    rw [load, if_pos closed]
    exact ⟨rfl, .closed closed⟩
  | @opened contents opened steady accepted mirrors =>
    rcases faithful.spelled_or with known | ⟨unwritable, unspelled⟩
    · rcases exists_spellsServerKey state.1.options known with ⟨serverKey, spelled⟩
      rcases load_of_writable opened steady spelled.serverKey? with ⟨after, loaded, stays, same⟩
      rw [loaded]
      exact ⟨get?_eq_contents mirrors spelled, stays.represents_same same opened accepted mirrors⟩
    · rw [load, opened, if_neg Bool.false_ne_true, serverKey?, unwritable]
      exact ⟨(mirrors.get?_eq_none (not_spellsServerKey unspelled)).symm,
        .opened opened steady accepted mirrors⟩

theorem represents_store (represents : Represents quiet codec state map) {key : κ}
    (known : codec.Restores key) (value : Bytes) :
    Represents quiet codec (store link codec key value state) (map.map (·.insert key value)) := by
  cases represents with
  | closed closed =>
    rw [store, if_pos closed]
    exact .closed closed
  | opened opened steady accepted mirrors =>
    rcases exists_spellsServerKey state.1.options known with ⟨serverKey, spelled⟩
    rcases set_spec steady accepted serverKey value false with ⟨after, written, stays, keyspace⟩
    rw [store, opened, if_neg Bool.false_ne_true, spelled.serverKey?]
    dsimp only
    rw [written]
    apply stays.represents opened accepted
    rw [keyspace]
    exact mirrors_insert mirrors spelled value

theorem represents_storeIfAbsent (represents : Represents quiet codec state map) {key : κ}
    (known : codec.Restores key) (value : Bytes) :
    Represents quiet codec (storeIfAbsent link codec key value state).2
      (map.map (·.insertAbsent key value)) := by
  cases represents with
  | closed closed =>
    rw [storeIfAbsent, if_pos closed]
    exact .closed closed
  | @opened contents opened steady accepted mirrors =>
    rcases exists_spellsServerKey state.1.options known with ⟨serverKey, spelled⟩
    rcases storeIfAbsent_of_writable opened steady accepted spelled.serverKey? value with
      ⟨after, written, stays, keyspace⟩
    rw [written]
    apply stays.represents opened accepted
    change Mirrors _ Eq _ (contents.insertAbsent key value)
    rw [keyspace, get?_eq_contents mirrors spelled, Listing.insertAbsent]
    split
    · exact mirrors
    · exact mirrors_insert mirrors spelled value

theorem represents_delete (represents : Represents quiet codec state map) {removed : List κ}
    (faithful : ∀ key ∈ removed, codec.Faithful key) :
    Represents quiet codec (delete link codec removed state) (map.map (·.eraseAll removed)) := by
  cases represents with
  | closed closed =>
    rw [delete, closed, Bool.or_true, if_pos rfl]
    exact .closed closed
  | opened opened steady accepted mirrors =>
    cases removed with
    | nil => exact .opened opened steady accepted mirrors
    | cons key rest =>
      rcases deleteRaw_spec ((key :: rest).filterMap (serverKey? codec state.1.options)) steady with
        ⟨after, deleted, stays, keyspace⟩
      rw [delete, opened, List.isEmpty_cons, Bool.or_false, if_neg Bool.false_ne_true, deleted]
      apply stays.represents opened accepted
      rw [keyspace]
      exact mirrors_foldl_erase faithful mirrors

theorem range_spec {α : Type} (visit : Visitor κ Bytes α) (start : α)
    (represents : Represents quiet codec state map) :
    (∃ order, order.Perm map.seen.entries ∧
      (range link codec visit start state).1 = (visit.walk order start).1) ∧
      Represents quiet codec (range link codec visit start state).2 map := by
  cases represents with
  | closed closed =>
    rw [range, if_pos closed]
    exact ⟨⟨[], List.Perm.refl _, rfl⟩, .closed closed⟩
  | opened opened steady accepted mirrors =>
    rcases owing_start steady with ⟨pages, bound, owing⟩
    rcases rangeFrom_spec codec visit pages start steady
      (owing.weaken fun _ _ _ => trivial) with
      ⟨listed, after, visited, stays, same, distinct, members⟩
    rw [range, opened, if_neg Bool.false_ne_true, bound, visited]
    refine ⟨⟨_, ?_, rfl⟩, stays.represents_same same opened accepted mirrors⟩
    refine filterMap_entryAt?_perm_entries distinct ?_ mirrors
    intro key
    rw [members]
    exact and_iff_left List.not_mem_nil

theorem next_spec (represents : Represents quiet codec state map) :
    ((next link codec state).1 = none ∧ map.seen.entries = [] ∧
        Represents quiet codec (next link codec state).2 map) ∨
      ∃ key value, (next link codec state).1 = some (key, value) ∧
        map.seen.get? key = some value ∧
        Represents quiet codec (next link codec state).2 (map.map (·.erase key)) := by
  cases represents with
  | closed closed =>
    rw [next, if_pos closed]
    exact .inl ⟨rfl, rfl, .closed closed⟩
  | @opened contents opened steady accepted mirrors =>
    rcases owing_start steady with ⟨pages, bound, owing⟩
    rw [next, opened, if_neg Bool.false_ne_true, bound]
    rcases popFrom_spec codec pages steady (owing.weaken fun _ _ _ => trivial) with
      ⟨after, taken, stays, same, foreign⟩ |
      ⟨⟨key, value⟩, after, taken, stays, serverKey, held, keyspace⟩
    · rw [taken]
      refine .inl ⟨rfl, mirrors.nil_iff.mp ?_, stays.represents_same same opened accepted mirrors⟩
      apply List.eq_nil_iff_forall_not_mem.mpr
      rintro ⟨serverKey, value⟩ member
      rcases mem_ownedRows.mp member with ⟨found, owned⟩
      rcases Option.isSome_iff_exists.mp owned with ⟨key, ownedKey⟩
      have listable : Listable quiet state serverKey := by
        refine ⟨?_, isMatch_of_ownedKey? ownedKey⟩
        rw [found]
        rfl
      rw [foreign serverKey listable] at ownedKey
      cases ownedKey
    · rw [taken]
      rcases mirrors_of_entryAt? mirrors held with ⟨present, left⟩
      refine .inr ⟨key, value, rfl, present, stays.represents opened accepted ?_⟩
      rw [keyspace]
      exact left

theorem keys_spec (represents : Represents quiet codec state map) :
    (keys link codec state).1.Perm map.seen.keys ∧
      Represents quiet codec (keys link codec state).2 map := by
  cases represents with
  | closed closed =>
    rw [keys, if_pos closed]
    exact ⟨List.Perm.refl _, .closed closed⟩
  | opened opened steady accepted mirrors =>
    rcases scanKeys_spec steady with ⟨listed, after, scanned, stays, same, distinct, members⟩
    rw [keys, opened, if_neg Bool.false_ne_true, scanned]
    dsimp only
    refine ⟨?_, stays.represents_same same opened accepted mirrors⟩
    rw [stays.options, filterMap_ownedKey? fun key member => ((members key).mp member).1]
    exact (filterMap_entryAt?_perm_entries distinct members mirrors).map Prod.fst

omit [DecidableEq κ] in
theorem represents_clear (represents : Represents quiet codec state map) :
    Represents quiet codec (clear link codec state) (map.map fun _ => .empty) := by
  cases represents with
  | closed closed =>
    rw [clear, if_pos closed]
    exact .closed closed
  | opened opened steady accepted mirrors =>
    rcases scanKeys_spec steady with ⟨listed, scannedState, scanned, stays, same, _, members⟩
    rw [clear, opened, if_neg Bool.false_ne_true, scanned]
    dsimp only
    rcases deleteRaw_spec (listed.filter fun serverKey =>
      (ownedKey? codec scannedState.1.options serverKey).isSome) stays.steady with
      ⟨after, deleted, deleteStays, keyspace⟩
    rw [deleted]
    apply (deleteStays.trans stays).represents opened accepted
    rw [keyspace, same, ownedRows_foldl_erase]
    · exact Mirrors.empty
    · rintro ⟨serverKey, value⟩ member
      rcases mem_ownedRows.mp member with ⟨found, owned⟩
      rcases Option.isSome_iff_exists.mp owned with ⟨key, ownedKey⟩
      rw [stays.options]
      refine List.mem_filter.mpr ⟨(members serverKey).mpr ⟨?_, isMatch_of_ownedKey? ownedKey⟩, owned⟩
      rw [found]
      rfl

/-- On a quiescent server every operation is that of the map. -/
theorem refines (quiet : link.Quiescent) : (Redis.storage link codec).Refines codec.Restores
    (fun _ => True) (fun _ => True) (Represents quiet codec) where
  load represents known := load_spec represents known.faithful
  store represents known _ _ := represents_store represents known _
  storeIfAbsent represents known _ _ := represents_storeIfAbsent represents known _
  delete represents known :=
    represents_delete represents fun key member => (known key member).faithful
  range visit start represents := range_spec visit start represents
  next_none := by
    intro state map represents nothing
    change (next link codec state).1 = none at nothing
    rcases next_spec represents with ⟨_, empty, later⟩ | ⟨key, value, taken, _⟩
    · exact ⟨empty, later⟩
    · rw [taken] at nothing
      cases nothing
  next_some := by
    intro state map key value represents taken
    change (next link codec state).1 = some (key, value) at taken
    rcases next_spec represents with ⟨nothing, _⟩ | ⟨first, held, first_taken, present, later⟩
    · rw [nothing] at taken
      cases taken
    · rw [first_taken] at taken
      cases taken
      exact ⟨present, later⟩
  keys represents := keys_spec represents
  len := by
    intro state map represents
    rcases keys_spec represents with ⟨listed, later⟩
    refine ⟨?_, later⟩
    have length := listed.length_eq
    rw [Listing.keys, List.length_map] at length
    exact length
  clear represents := represents_clear represents
  close := by
    intro state map represents
    change (close state).1 = _ ∧ Represents quiet codec (close state).2 none
    cases represents with
    | closed closed =>
      rw [close, if_pos closed]
      exact ⟨rfl, .closed closed⟩
    | opened opened _ _ _ =>
      rw [close, opened]
      exact ⟨rfl, .closed rfl⟩

omit [DecidableEq κ] in
/-- A handle that has just connected stands for the empty map, if no key of the
server belongs to it. -/
theorem represents_connected (quiet : link.Quiescent) {options : RedisOptions} {server : σ}
    (steady : quiet.steady server) (accepted : quiet.accepts options.expireMillis)
    (foreign : ∀ serverKey, ((quiet.keyspace server).get? serverKey).isSome = true →
      ownedKey? codec options serverKey = none) :
    Represents quiet codec (connected options, server) (some .empty) := by
  refine .opened rfl steady accepted ?_
  have none : ownedRows codec options (quiet.keyspace server) = [] := by
    apply List.eq_nil_iff_forall_not_mem.mpr
    rintro ⟨serverKey, value⟩ member
    rcases mem_ownedRows.mp member with ⟨found, owned⟩
    have present : ((quiet.keyspace server).get? serverKey).isSome = true := by
      rw [found]
      rfl
    rw [foreign serverKey present] at owned
    cases owned
  change Mirrors _ Eq (ownedRows codec options (quiet.keyspace server)) _
  rw [none]
  exact Mirrors.empty

end

end Redis
end TypedStore
