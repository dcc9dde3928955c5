import TypedStore.Proofs.Contract.Adapter
import TypedStore.Proofs.Listing.Shedding
import TypedStore.Proofs.Storage.Visits

/-!
# Storages that show what can be read of their payloads

An engine may hold payloads that nobody can read: another program wrote them, a value was
sealed with a key that is gone, or a map of other values uses the same engine.  Such a state
does not stand for the finite map that readers see, but it still stands for the map of its
payloads.  `Storage.Exposes` says how a storage over such a map is read: looking up one key,
walking and listing keys all go by what one function, `reads`, makes of a payload.
`Storage.HandsOut` says the same of taking entries.

A typed layer reads further what its engine has read, so it exposes and hands out the same
payloads.  Only taking an entry takes an argument, since the layer repeats what its engine
does.  `Adapter.Takes` is that loop without any bound on its turns, and its law is proved by
induction on how it ends.
-/

namespace TypedStore

variable {σ κ ν : Type} [DecidableEq κ]

/-- Whether a storage shows, of a map of payloads that its state holds, what can be read of
it in that state. -/
structure Storage.Exposes (storage : Storage σ κ ν) (known : κ → Prop)
    (reads : σ → Bytes → Option ν) (holds : σ → Listing κ Bytes → Prop) : Prop where
  known_of_held : ∀ {state contents key stored}, holds state contents →
    contents.get? key = some stored → known key
  load : ∀ {state contents key}, holds state contents → known key →
    (storage.load key state).1 = (contents.get? key).bind (reads state)
  entries : ∀ {state contents}, holds state contents →
    (storage.entries state).1.Perm (contents.filterMap (reads state)).entries
  keys : ∀ {state contents}, holds state contents → (storage.keys state).1.Perm contents.keys

/-- Whether taking an entry returns one that can be read, and discards only what cannot be.
It does not change how payloads are read. -/
structure Storage.HandsOut (storage : Storage σ κ ν) (reads : σ → Bytes → Option ν)
    (holds : σ → Listing κ Bytes → Prop) : Prop where
  next : ∀ {state contents}, holds state contents →
    ∃ after, contents.Yields (reads state) (storage.next state).1 after ∧
      holds (storage.next state).2 after ∧ reads (storage.next state).2 = reads state
  size : ∀ {state contents}, holds state contents →
    contents.entries.length ≤ storage.size state

section

variable {storage : Storage σ κ ν} {known : κ → Prop} {reads : σ → Bytes → Option ν}
  {holds : σ → Listing κ Bytes → Prop} {state : σ} {contents : Listing κ Bytes}

/-- The entries that can be read are those that can be loaded. -/
theorem Storage.Exposes.mem_filterMap_iff (exposes : storage.Exposes known reads holds)
    (held : holds state contents) {key : κ} {value : ν} :
    (key, value) ∈ (contents.filterMap (reads state)).entries ↔
      known key ∧ (storage.load key state).1 = some value := by
  rw [← Listing.get?_eq_some_iff, Listing.get?_filterMap]
  constructor
  · intro present
    rcases Option.bind_eq_some_iff.mp present with ⟨stored, heldKey, _⟩
    have isKnown := exposes.known_of_held held heldKey
    rw [exposes.load held isKnown]
    exact ⟨isKnown, present⟩
  · rintro ⟨isKnown, loaded⟩
    rw [exposes.load held isKnown] at loaded
    exact loaded

/-- Taking entries one after another returns all that can be read, and then nothing. -/
theorem Storage.HandsOut.drain_perm (handsOut : storage.HandsOut reads holds) (limit : Nat)
    (held : holds state contents) (enough : contents.entries.length ≤ limit) :
    (storage.drain limit state).1.Perm (contents.filterMap (reads state)).entries ∧
      (storage.next (storage.drain limit state).2).1 = none := by
  induction limit generalizing state contents with
  | zero =>
    have empty : contents = .empty :=
      Listing.eq_of_entries (List.length_eq_zero_iff.mp (Nat.le_zero.mp enough))
    rcases handsOut.next held with ⟨after, yields, _, _⟩
    rw [empty] at yields ⊢
    exact ⟨List.Perm.nil, yields.of_empty fun _ _ present => by cases present⟩
  | succ limit hypothesis =>
    rcases handsOut.next held with ⟨left, yields, heldLeft, same⟩
    rw [Storage.drain]
    cases taken : storage.next state with
    | mk answer after =>
      rw [taken] at yields heldLeft same
      rcases answer with _ | ⟨key, value⟩
      · rcases yields with ⟨sheds, rfl⟩
        rcases handsOut.next heldLeft with ⟨_, ended, _, _⟩
        exact ⟨sheds.filterMap_perm, ended.of_empty fun _ _ present => by cases present⟩
      · have shorter := yields.length_lt
        -- What is left fits into the limit, although more than one entry may be gone.
        rcases hypothesis heldLeft (by omega) with ⟨rest, ended⟩
        dsimp only at same rest
        rw [same] at rest
        exact ⟨(rest.cons _).trans yields.perm, ended⟩

end

namespace Adapter

variable {values : ValueCodec ν} {inner : Storage σ κ Bytes} {registry : Registry}

/-- What a payload reads as if the engine has to read it first. -/
def readsThrough (values : ValueCodec ν) (reads : σ → Bytes → Option Bytes)
    (state : Registry × σ) (stored : Bytes) : Option ν :=
  (reads state.2 stored).bind fun payload => (values.decode payload state.1).toOption

/-! ## Walking -/

/-- The entries of an engine that a layer can read, in the order of the engine. -/
def readable (values : ValueCodec ν) (inner : Storage σ κ Bytes) (registry : Registry)
    (state : σ) : List (κ × ν) :=
  Listing.readEntries (fun payload => (values.decode payload registry).toOption)
    (inner.entries state).1

omit [DecidableEq κ] in
/-- A layer over an engine with one order for all visitors walks over the entries that can
be read, in the order of the engine. -/
theorem range_eq_walk (walks : inner.WalksEntries) (state : Registry × σ) {α : Type}
    (visit : Visitor κ ν α) (start : α) :
    ((Adapter.storage values inner).range visit start state).1 =
      (visit.walk (readable values inner state.1 state.2) start).1 := by
  change (inner.range (readableOnly values state.1 visit) start state.2).1 = _
  rw [walks, walk_readableOnly]
  rfl

omit [DecidableEq κ] in
theorem entries_eq (walks : inner.WalksEntries) (state : Registry × σ) :
    ((Adapter.storage values inner).entries state).1 = readable values inner state.1 state.2 :=
  Storage.entries_of_order _ (range_eq_walk walks) state

/-! ## Taking entries -/

/-- What the loop that takes entries until one can be read returns, and the state it leaves
behind.  The loop has no bound on its turns here: where it returns anything, it ends. -/
inductive Takes (values : ValueCodec ν) (inner : Storage σ κ Bytes) (registry : Registry) :
    σ → Option (κ × ν) → σ → Prop where
  | ended {state after : σ} (nothing : inner.next state = (none, after)) :
    Takes values inner registry state none after
  | found {state after : σ} {key : κ} {payload : Bytes} {value : ν}
    (taken : inner.next state = (some (key, payload), after))
    (readable : values.decode payload registry = .ok value) :
    Takes values inner registry state (some (key, value)) after
  | passed {state after last : σ} {key : κ} {payload : Bytes} {fault : CodecError}
    {answer : Option (κ × ν)} (taken : inner.next state = (some (key, payload), after))
    (unreadable : values.decode payload registry = .error fault)
    (rest : Takes values inner registry after answer last) :
    Takes values inner registry state answer last

variable {known : κ → Prop} {reads : σ → Bytes → Option Bytes}
  {holds : σ → Listing κ Bytes → Prop} {contents : Listing κ Bytes}

/-- The loop ends within as many turns as there are entries, and one more. -/
theorem takes_nextReadable (inside : inner.HandsOut reads holds) (fuel : Nat) {state : σ}
    (held : holds state contents) (enough : contents.entries.length < fuel) :
    Takes values inner registry state (nextReadable values inner registry fuel state).1
      (nextReadable values inner registry fuel state).2 := by
  induction fuel generalizing state contents with
  | zero => exact absurd enough (Nat.not_lt_zero _)
  | succ fuel hypothesis =>
    rcases inside.next held with ⟨left, yields, heldLeft, _⟩
    rw [nextReadable]
    cases taken : inner.next state with
    | mk answer after =>
      rw [taken] at yields heldLeft
      rcases answer with _ | ⟨key, payload⟩
      · exact .ended taken
      · dsimp only
        cases decoded : values.decode payload registry with
        | ok value => exact .found taken decoded
        | error fault =>
          have shorter := yields.length_lt
          exact .passed taken decoded (hypothesis heldLeft (by omega))

/-- However often the loop turns, it takes one entry that can be read and some that cannot. -/
theorem Takes.yields (inside : inner.HandsOut reads holds) {state last : σ}
    {answer : Option (κ × ν)} (takes : Takes values inner registry state answer last)
    (held : holds state contents) :
    ∃ after, contents.Yields (readsThrough values reads (registry, state)) answer after ∧
      holds last after ∧ reads last = reads state := by
  induction takes generalizing contents with
  | ended nothing =>
    rcases inside.next held with ⟨left, yields, heldLeft, same⟩
    rw [nothing] at yields heldLeft same
    exact ⟨left, yields.bind_none, heldLeft, same⟩
  | found taken readable =>
    rcases inside.next held with ⟨left, yields, heldLeft, same⟩
    rw [taken] at yields heldLeft same
    refine ⟨left, yields.bind_some ?_, heldLeft, same⟩
    rw [readable]
    rfl
  | passed taken unreadable _ hypothesis =>
    rcases inside.next held with ⟨left, yields, heldLeft, same⟩
    rw [taken] at yields heldLeft same
    dsimp only at yields heldLeft same
    rcases hypothesis heldLeft with ⟨after, later, heldAfter, sameAfter⟩
    -- The other turns start from a later state, but payloads still read as in the first one.
    unfold readsThrough at later
    rw [same] at later sameAfter
    refine ⟨after, .of_sheds (yields.sheds_bind ?_) later, heldAfter, sameAfter⟩
    rw [unreadable]
    rfl

/-- The layer shows what can be read of what its engine shows. -/
theorem exposes (inside : inner.Exposes known reads holds) (walks : inner.WalksEntries) :
    (Adapter.storage values inner).Exposes known (readsThrough values reads)
      fun state => holds state.2 where
  known_of_held held present := inside.known_of_held held present
  load := by
    rintro ⟨registry, state⟩ contents key held isKnown
    have loaded := inside.load held isKnown
    change (inner.load key state).1.bind _ = _
    rw [loaded, Option.bind_assoc]
    rfl
  entries := by
    rintro ⟨registry, state⟩ contents held
    rw [entries_eq walks]
    have order := (inside.entries held).filterMap fun entry =>
      ((values.decode entry.2 registry).toOption).map fun value => (entry.1, value)
    have same := Listing.readEntries_readEntries (reads state)
      (fun payload => (values.decode payload registry).toOption) contents.entries
    exact order.trans (List.Perm.of_eq same)
  keys held := inside.keys held

theorem handsOut (inside : inner.HandsOut reads holds) :
    (Adapter.storage values inner).HandsOut (readsThrough values reads)
      fun state => holds state.2 where
  next := by
    rintro ⟨registry, state⟩ contents held
    have enough := Nat.lt_succ_of_le (inside.size held)
    rcases (takes_nextReadable inside _ held enough).yields inside held with
      ⟨after, yields, heldAfter, same⟩
    refine ⟨after, yields, heldAfter, ?_⟩
    funext stored
    exact congrArg (Option.bind · _) (congrFun same stored)
  size held := inside.size held

end Adapter
end TypedStore
