import TypedStore.Proofs.Contract.FiniteMap
import TypedStore.Proofs.Listing.Entries

/-!
# Storages that refine a finite map

`Storage.Refines` is the simulation: a relation between the states of a storage
and the finite maps they stand for, and one law for each operation.  The laws
speak of keys and values of some kind only, since an engine that encodes its
keys promises nothing about one that does not come back.

A storage may also have room for so many writes only.  `safe` says that a state
is within its room; a write is only answered for if the state after it is, and
`Storage.run` never leaves the room and comes back, which is what `Rooms` asks.

The result for whole programs, `Refines.run`, is by induction on the calls from
the law for one call.
-/

namespace TypedStore

variable {σ κ ν : Type}

/-- Operations only ever take room away. -/
def Storage.Rooms (storage : Storage σ κ ν) (safe : σ → Prop) : Prop :=
  ∀ (allowOverwrite : Bool) (op : MapOp κ ν) (state : σ),
    safe (TypedMap.perform ⟨storage, allowOverwrite⟩ op state).2 → safe state

theorem Storage.rooms_of_forall (storage : Storage σ κ ν) {safe : σ → Prop}
    (always : ∀ state, safe state) : storage.Rooms safe :=
  fun _ _ state _ => always state

/-- If the last state of a run is within its room, so is the first. -/
theorem Storage.Rooms.run {storage : Storage σ κ ν} {safe : σ → Prop} (rooms : storage.Rooms safe)
    (calls : List (MapCall κ ν)) (state : σ) (last : safe (storage.run calls state).2) :
    safe state := by
  induction calls generalizing state with
  | nil => exact last
  | cons call rest hypothesis => exact rooms call.allowOverwrite call.op state (hypothesis _ last)

variable [DecidableEq κ]

/-- A storage whose states stand for finite maps, operation by operation. -/
structure Storage.Refines (storage : Storage σ κ ν) (known : κ → Prop) (storable : ν → Prop)
    (safe : σ → Prop) (represents : σ → MapState κ ν → Prop) : Prop where
  load : ∀ {state map key}, represents state map → known key →
    (storage.load key state).1 = map.seen.get? key ∧ represents (storage.load key state).2 map
  store : ∀ {state map key value}, represents state map → known key → storable value →
    safe (storage.store key value state) →
    represents (storage.store key value state) (map.map (·.insert key value))
  storeIfAbsent : ∀ {state map key value}, represents state map → known key → storable value →
    safe (storage.storeIfAbsent key value state).2 →
    represents (storage.storeIfAbsent key value state).2 (map.map (·.insertAbsent key value))
  delete : ∀ {state map removed}, represents state map → (∀ key ∈ removed, known key) →
    represents (storage.delete removed state) (map.map (·.eraseAll removed))
  range : ∀ {state map} {α : Type} (visit : Visitor κ ν α) (start : α), represents state map →
    (∃ order, order.Perm map.seen.entries ∧
      (storage.range visit start state).1 = (visit.walk order start).1) ∧
      represents (storage.range visit start state).2 map
  next_none : ∀ {state map}, represents state map → (storage.next state).1 = none →
    map.seen.entries = [] ∧ represents (storage.next state).2 map
  next_some : ∀ {state map key value}, represents state map →
    (storage.next state).1 = some (key, value) →
    map.seen.get? key = some value ∧ represents (storage.next state).2 (map.map (·.erase key))
  keys : ∀ {state map}, represents state map →
    (storage.keys state).1.Perm map.seen.keys ∧ represents (storage.keys state).2 map
  len : ∀ {state map}, represents state map →
    (storage.len state).1 = map.seen.entries.length ∧ represents (storage.len state).2 map
  clear : ∀ {state map}, represents state map →
    represents (storage.clear state) (map.map fun _ => .empty)
  close : ∀ {state map}, represents state map →
    (storage.close state).1 = (if map.isSome then .ok () else .error .closed) ∧
      represents (storage.close state).2 none

namespace Storage.Refines

variable {storage : Storage σ κ ν} {known : κ → Prop} {storable : ν → Prop} {safe : σ → Prop}
  {represents : σ → MapState κ ν → Prop}

/-- One call through one map: the contract allows its answer, and the state after
it stands for the map after it. -/
theorem perform (refines : storage.Refines known storable safe represents) {state : σ}
    {map : MapState κ ν} (represented : represents state map) (allowOverwrite : Bool)
    (op : MapOp κ ν) (within : op.Within known storable)
    (room : safe (TypedMap.perform ⟨storage, allowOverwrite⟩ op state).2) :
    ∃ after, op.Allows allowOverwrite map
        (TypedMap.perform ⟨storage, allowOverwrite⟩ op state).1 after ∧
      represents (TypedMap.perform ⟨storage, allowOverwrite⟩ op state).2 after := by
  cases op with
  | load key =>
    rcases refines.load represented within with ⟨answer, later⟩
    exact ⟨map, ⟨answer, rfl⟩, later⟩
  | has key =>
    rcases refines.load represented within with ⟨answer, later⟩
    exact ⟨map, ⟨congrArg Option.isSome answer, rfl⟩, later⟩
  | store key value =>
    cases allowOverwrite with
    | true => exact ⟨_, rfl, refines.store represented within.1 within.2 room⟩
    | false => exact ⟨_, rfl, refines.storeIfAbsent represented within.1 within.2 room⟩
  | delete removed => exact ⟨_, rfl, refines.delete represented within⟩
  | pop key =>
    rcases refines.load represented within with ⟨answer, later⟩
    simp only [TypedMap.perform, TypedMap.pop]
    cases loaded : storage.load key state with
    | mk found after =>
      rw [loaded] at answer later
      cases found with
      | none =>
        refine ⟨map, ⟨answer, ?_⟩, later⟩
        cases map with
        | none => rfl
        | some contents => exact congrArg some (Listing.erase_of_absent answer.symm).symm
      | some value =>
        refine ⟨_, ⟨answer, rfl⟩, ?_⟩
        have only : ∀ other ∈ [key], known other := by
          intro other member
          rw [List.mem_singleton.mp member]
          exact within
        exact refines.delete later only
  | next =>
    cases taken : (storage.next state).1 with
    | none =>
      rcases refines.next_none represented taken with ⟨nothing, later⟩
      refine ⟨map, ?_, later⟩
      change MapOp.Allows allowOverwrite map .next (storage.next state).1 map
      rw [taken]
      exact ⟨nothing, rfl⟩
    | some entry =>
      rcases entry with ⟨key, value⟩
      rcases refines.next_some represented taken with ⟨present, later⟩
      refine ⟨_, ?_, later⟩
      change MapOp.Allows allowOverwrite map .next (storage.next state).1 _
      rw [taken]
      exact ⟨present, rfl⟩
  | range visit start =>
    rcases refines.range visit start represented with ⟨visited, later⟩
    exact ⟨map, ⟨visited, rfl⟩, later⟩
  | keys =>
    rcases refines.keys represented with ⟨answer, later⟩
    exact ⟨map, ⟨answer, rfl⟩, later⟩
  | len =>
    rcases refines.len represented with ⟨answer, later⟩
    exact ⟨map, ⟨answer, rfl⟩, later⟩
  | isEmpty =>
    rcases refines.len represented with ⟨answer, later⟩
    refine ⟨map, ⟨?_, rfl⟩, later⟩
    change ((storage.len state).1 == 0) = _
    rw [answer]
    cases map.seen.entries <;> rfl
  | clear => exact ⟨_, rfl, refines.clear represented⟩
  | close =>
    rcases refines.close represented with ⟨answer, later⟩
    exact ⟨none, ⟨answer, rfl⟩, later⟩

/-- The answers to any list of calls are those of one finite map, the one that
the state stands for before the first call. -/
theorem run (refines : storage.Refines known storable safe represents)
    (rooms : storage.Rooms safe) (calls : List (MapCall κ ν)) {state : σ} {map : MapState κ ν}
    (represented : represents state map)
    (within : ∀ call ∈ calls, call.op.Within known storable)
    (room : safe (storage.run calls state).2) :
    map.Explains (storage.run calls state).1 := by
  induction calls generalizing state map with
  | nil => exact trivial
  | cons call rest hypothesis =>
    have later : safe (TypedMap.perform ⟨storage, call.allowOverwrite⟩ call.op state).2 :=
      rooms.run rest _ room
    rcases refines.perform represented call.allowOverwrite call.op
      (within call List.mem_cons_self) later with ⟨after, allowed, kept⟩
    exact ⟨after, allowed, hypothesis kept (fun other member =>
      within other (List.mem_cons_of_mem _ member)) room⟩

/-- Reading all entries gives those of the map, each once. -/
theorem entries (refines : storage.Refines known storable safe represents) {state : σ}
    {map : MapState κ ν} (represented : represents state map) :
    (storage.entries state).1.Perm map.seen.entries ∧
      represents (storage.entries state).2 map := by
  rcases refines.range Visitor.collect [] represented with ⟨⟨order, perm, visited⟩, later⟩
  refine ⟨?_, later⟩
  have read : (storage.entries state).1 = order := by
    change (storage.range Visitor.collect [] state).1.reverse = order
    rw [visited, Visitor.walk_collect, List.append_nil, List.reverse_reverse]
  rw [read]
  exact perm

/-- A storage on a part of a larger state refines what it refines on the part
alone. -/
theorem within {τ : Type} (refines : storage.Refines known storable safe represents)
    (get : τ → σ) (put : τ → σ → τ) (getPut : ∀ state inner, get (put state inner) = inner) :
    (storage.within get put).Refines known storable (fun state => safe (get state))
      fun state => represents (get state) where
  load represented isKnown := by
    simpa only [Storage.within, getPut] using refines.load represented isKnown
  store represented isKnown stores room := by
    simp only [Storage.within, getPut] at room ⊢
    exact refines.store represented isKnown stores room
  storeIfAbsent represented isKnown stores room := by
    simp only [Storage.within, getPut] at room ⊢
    exact refines.storeIfAbsent represented isKnown stores room
  delete represented areKnown := by
    simpa only [Storage.within, getPut] using refines.delete represented areKnown
  range visit start represented := by
    simpa only [Storage.within, getPut] using refines.range visit start represented
  next_none represented nothing := by
    simpa only [Storage.within, getPut] using refines.next_none represented nothing
  next_some represented taken := by
    simpa only [Storage.within, getPut] using refines.next_some represented taken
  keys represented := by simpa only [Storage.within, getPut] using refines.keys represented
  len represented := by simpa only [Storage.within, getPut] using refines.len represented
  clear represented := by simpa only [Storage.within, getPut] using refines.clear represented
  close represented := by simpa only [Storage.within, getPut] using refines.close represented

end Storage.Refines
end TypedStore
