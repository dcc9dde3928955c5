import TypedStore.Adapter
import TypedStore.Proofs.Contract.Mirror
import TypedStore.Proofs.Contract.Refinement
import TypedStore.Proofs.Registry.Lookup

/-!
# Typed values over a byte engine

If a byte engine refines a finite map of payloads, the typed layer over it
refines a finite map of values.  What is asked of the values is that they
survive being written and read: `ValueCodec.Preserves`.

The registry of the layer grows while payloads lie in the engine, so a payload
has to read back not only under the registry it was written with but under every
one that comes later.  `valid` narrows down the registries that come into
question; without a reason to do so it is everything.
-/

namespace TypedStore

section Codec

variable {ν : Type} (codec : ValueCodec ν) (valid : Registry → Prop)

/-- Whether a payload reads back as a value from now on. -/
def ValueCodec.Reads (registry : Registry) (payload : Bytes) (value : ν) : Prop :=
  ∀ later, valid later → later.Extends registry → codec.decode payload later = .ok value

/-- Values of some kind survive being written and read, and writing them only
adds to a registry. -/
structure ValueCodec.Preserves (storable : ν → Prop) : Prop where
  encode : ∀ {value registry}, storable value → valid registry →
    ∃ payload, (codec.encode value registry).1 = .ok payload ∧
      codec.Reads valid (codec.encode value registry).2 payload value
  valid_encode : ∀ {value registry}, storable value → valid registry →
    valid (codec.encode value registry).2
  extends_encode : ∀ {value registry}, storable value → valid registry →
    (codec.encode value registry).2.Extends registry

variable {codec valid}

theorem ValueCodec.Reads.later {earlier registry : Registry} {payload : Bytes} {value : ν}
    (reads : codec.Reads valid earlier payload value) (extended : registry.Extends earlier) :
    codec.Reads valid registry payload value :=
  fun later isValid extends' => reads later isValid (extends'.trans extended)

theorem ValueCodec.Reads.decode {registry : Registry} {payload : Bytes} {value : ν}
    (reads : codec.Reads valid registry payload value) (isValid : valid registry) :
    codec.decode payload registry = .ok value :=
  reads registry isValid (Registry.Extends.refl registry)

end Codec

namespace Adapter

variable {σ κ ν : Type} [DecidableEq κ] {codec : ValueCodec ν} {valid : Registry → Prop}
  {inner : Storage σ κ Bytes} {known : κ → Prop} {storable : ν → Prop} {safe : σ → Prop}
  {represents : σ → MapState κ Bytes → Prop}

omit [DecidableEq κ] in
theorem biUnique_eq : Relator.BiUnique (Eq : κ → κ → Prop) :=
  ⟨fun _ _ _ first second => first.trans second.symm,
    fun _ _ _ first second => first.symm.trans second⟩

/-- The values of a map are what its payloads read back as. -/
def ReadsAll (codec : ValueCodec ν) (valid : Registry → Prop) (registry : Registry)
    (payloads : MapState κ Bytes) (map : MapState κ ν) : Prop :=
  Option.Rel (fun stored contents =>
    Mirrors Eq (codec.Reads valid registry) stored.entries contents) payloads map

/-- The map of values that a registry and an engine stand for. -/
def Represents (codec : ValueCodec ν) (valid : Registry → Prop)
    (represents : σ → MapState κ Bytes → Prop) (state : Registry × σ) (map : MapState κ ν) : Prop :=
  valid state.1 ∧ ∃ payloads, represents state.2 payloads ∧
    ReadsAll codec valid state.1 payloads map

namespace ReadsAll

variable {registry : Registry} {payloads : MapState κ Bytes} {map : MapState κ ν}

omit [DecidableEq κ] in
theorem later {earlier : Registry} (reads : ReadsAll codec valid earlier payloads map)
    (extended : registry.Extends earlier) : ReadsAll codec valid registry payloads map := by
  cases reads with
  | none => exact Option.Rel.none
  | some mirrors => exact Option.Rel.some (mirrors.imp fun _ _ held => held.later extended)

theorem seen (reads : ReadsAll codec valid registry payloads map) :
    Mirrors Eq (codec.Reads valid registry) payloads.seen.entries map.seen := by
  cases reads with
  | none => exact Mirrors.empty
  | some mirrors => exact mirrors

theorem exists_of_get? (reads : ReadsAll codec valid registry payloads map) {key : κ}
    {payload : Bytes} (present : payloads.seen.get? key = some payload) :
    ∃ value, map.seen.get? key = some value ∧ codec.Reads valid registry payload value := by
  have found := reads.seen.find? biUnique_eq (rfl : key = key)
  change Option.Rel _ (payloads.seen.get? key) _ at found
  rw [present] at found
  cases held : map.seen.get? key with
  | none =>
    rw [held] at found
    cases found
  | some value =>
    rw [held] at found
    cases found with
    | some reads => exact ⟨value, rfl, reads⟩

theorem get? (reads : ReadsAll codec valid registry payloads map) (isValid : valid registry)
    (key : κ) : ((payloads.seen.get? key).bind fun payload =>
      (codec.decode payload registry).toOption) = map.seen.get? key := by
  have found := reads.seen.find? biUnique_eq (rfl : key = key)
  apply bind_eq_of_rel found
  intro payload value back
  rw [back.decode isValid]
  rfl

theorem insert (reads : ReadsAll codec valid registry payloads map) {key : κ} {payload : Bytes}
    {value : ν} (held : codec.Reads valid registry payload value) :
    ReadsAll codec valid registry (payloads.map (·.insert key payload))
      (map.map (·.insert key value)) := by
  cases reads with
  | none => exact Option.Rel.none
  | some mirrors =>
    exact Option.Rel.some
      (mirrors.insert biUnique_eq rfl held (Listing.entries_insert_perm _ key payload))

theorem insertAbsent (reads : ReadsAll codec valid registry payloads map) {key : κ}
    {payload : Bytes} {value : ν} (held : codec.Reads valid registry payload value) :
    ReadsAll codec valid registry (payloads.map (·.insertAbsent key payload))
      (map.map (·.insertAbsent key value)) := by
  cases reads with
  | none => exact Option.Rel.none
  | @some stored contents mirrors =>
    have found := mirrors.find? biUnique_eq (rfl : key = key)
    change Option.Rel _ (stored.get? key) _ at found
    rw [Option.map_some, Option.map_some, Listing.insertAbsent, Listing.insertAbsent,
      isSome_eq_of_rel found]
    split
    · exact Option.Rel.some mirrors
    · exact Option.Rel.some
        (mirrors.insert biUnique_eq rfl held (Listing.entries_insert_perm _ key payload))

theorem erase (reads : ReadsAll codec valid registry payloads map) (key : κ) :
    ReadsAll codec valid registry (payloads.map (·.erase key)) (map.map (·.erase key)) := by
  cases reads with
  | none => exact Option.Rel.none
  | some mirrors => exact Option.Rel.some (mirrors.filter biUnique_eq rfl)

theorem eraseAll (reads : ReadsAll codec valid registry payloads map) (removed : List κ) :
    ReadsAll codec valid registry (payloads.map (·.eraseAll removed))
      (map.map (·.eraseAll removed)) := by
  induction removed generalizing payloads map with
  | nil =>
    cases reads with
    | none => exact Option.Rel.none
    | some mirrors => exact Option.Rel.some mirrors
  | cons key rest hypothesis =>
    have after := hypothesis (reads.erase key)
    rw [Option.map_map, Option.map_map] at after
    exact after

end ReadsAll

omit [DecidableEq κ] in
/-- A walk that passes over unreadable payloads is a walk over the values. -/
theorem walk_readableOnly {α : Type} (visit : Visitor κ ν α) (registry : Registry)
    (rows : List (κ × Bytes)) (start : α) :
    (readableOnly codec registry visit).walk rows start =
      visit.walk (rows.filterMap fun row =>
        (codec.decode row.2 registry).toOption.map fun value => (row.1, value)) start := by
  induction rows generalizing start with
  | nil => rfl
  | cons row rest hypothesis =>
    rcases row with ⟨key, payload⟩
    rw [Visitor.walk, readableOnly]
    cases decoded : codec.decode payload registry with
    | error fault =>
      simp only [decoded, List.filterMap_cons, Except.toOption, Option.map_none]
      exact hypothesis start
    | ok value =>
      simp only [decoded, List.filterMap_cons, Except.toOption, Option.map_some, Visitor.walk]
      cases visit key value start with
      | mk gathered goesOn =>
        cases goesOn with
        | true => exact hypothesis gathered
        | false => rfl

/-- The entries that a walk sees are those of the map. -/
theorem filterMap_decode_perm {registry : Registry} {payloads : MapState κ Bytes}
    {map : MapState κ ν} (reads : ReadsAll codec valid registry payloads map)
    (isValid : valid registry) {rows : List (κ × Bytes)}
    (order : rows.Perm payloads.seen.entries) :
    (rows.filterMap fun row =>
      (codec.decode row.2 registry).toOption.map fun value => (row.1, value)).Perm
        map.seen.entries := by
  apply (reads.seen.perm order).filterMap_perm
  rintro ⟨key, payload⟩ ⟨other, value⟩ spelled held
  dsimp only at spelled held
  dsimp only
  rw [held.decode isValid, spelled]
  rfl

omit [DecidableEq κ] in
theorem next_of_none {registry : Registry} {state : σ}
    (nothing : (inner.next state).1 = none) :
    (Adapter.storage codec inner).next (registry, state) =
      (none, registry, (inner.next state).2) := by
  simp only [Adapter.storage, nextReadable]
  cases taken : inner.next state with
  | mk row after =>
    rw [taken] at nothing
    cases nothing
    rfl

omit [DecidableEq κ] in
/-- A payload that reads back is not passed over. -/
theorem next_of_some {registry : Registry} {state : σ} {key : κ} {payload : Bytes} {value : ν}
    (first : (inner.next state).1 = some (key, payload))
    (back : codec.decode payload registry = .ok value) :
    (Adapter.storage codec inner).next (registry, state) =
      (some (key, value), registry, (inner.next state).2) := by
  simp only [Adapter.storage, nextReadable]
  cases taken : inner.next state with
  | mk row after =>
    rw [taken] at first
    cases first
    dsimp only
    rw [back]

omit [DecidableEq κ] in
/-- A value that encodes is stored as its payload. -/
theorem store_of_encoded {registry : Registry} (state : σ) {key : κ} {value : ν} {payload : Bytes}
    (encoded : (codec.encode value registry).1 = .ok payload) :
    (Adapter.storage codec inner).store key value (registry, state) =
      ((codec.encode value registry).2, inner.store key payload state) := by
  simp only [Adapter.storage]
  cases both : codec.encode value registry with
  | mk result after =>
    rw [both] at encoded
    cases encoded
    rfl

omit [DecidableEq κ] in
theorem storeIfAbsent_of_encoded {registry : Registry} (state : σ) {key : κ} {value : ν}
    {payload : Bytes} (encoded : (codec.encode value registry).1 = .ok payload) :
    ((Adapter.storage codec inner).storeIfAbsent key value (registry, state)).2 =
      ((codec.encode value registry).2, (inner.storeIfAbsent key payload state).2) := by
  simp only [Adapter.storage]
  cases both : codec.encode value registry with
  | mk result after =>
    rw [both] at encoded
    cases encoded
    rfl

/-- The layer refines a map of values if the engine refines a map of payloads. -/
theorem refines (inside : inner.Refines known (fun _ => True) safe represents)
    (preserves : codec.Preserves valid storable) :
    (Adapter.storage codec inner).Refines known storable (fun state => safe state.2)
      (Represents codec valid represents) where
  load := by
    rintro ⟨registry, state⟩ map key ⟨isValid, payloads, represented, reads⟩ isKnown
    rcases inside.load represented isKnown with ⟨answer, later⟩
    refine ⟨?_, isValid, payloads, later, reads⟩
    have read := reads.get? isValid key
    rw [← answer] at read
    exact read
  store := by
    rintro ⟨registry, state⟩ map key value ⟨isValid, payloads, represented, reads⟩ isKnown stores
      room
    rcases preserves.encode stores isValid with ⟨payload, encoded, held⟩
    rw [store_of_encoded state encoded] at room ⊢
    refine ⟨preserves.valid_encode stores isValid, payloads.map (·.insert key payload), ?_, ?_⟩
    · exact inside.store represented isKnown trivial room
    · exact (reads.later (preserves.extends_encode stores isValid)).insert held
  storeIfAbsent := by
    rintro ⟨registry, state⟩ map key value ⟨isValid, payloads, represented, reads⟩ isKnown stores
      room
    rcases preserves.encode stores isValid with ⟨payload, encoded, held⟩
    rw [storeIfAbsent_of_encoded state encoded] at room ⊢
    refine ⟨preserves.valid_encode stores isValid, payloads.map (·.insertAbsent key payload), ?_,
      ?_⟩
    · exact inside.storeIfAbsent represented isKnown trivial room
    · exact (reads.later (preserves.extends_encode stores isValid)).insertAbsent held
  delete := by
    rintro ⟨registry, state⟩ map removed ⟨isValid, payloads, represented, reads⟩ areKnown
    exact ⟨isValid, _, inside.delete represented areKnown, reads.eraseAll removed⟩
  range := by
    rintro ⟨registry, state⟩ map α visit start ⟨isValid, payloads, represented, reads⟩
    rcases inside.range (readableOnly codec registry visit) start represented with
      ⟨⟨order, perm, walked⟩, later⟩
    refine ⟨⟨_, filterMap_decode_perm reads isValid perm, ?_⟩, isValid, payloads, later, reads⟩
    rw [← walk_readableOnly, ← walked]
    rfl
  next_none := by
    rintro ⟨registry, state⟩ map ⟨isValid, payloads, represented, reads⟩ nothing
    cases first : (inner.next state).1 with
    | none =>
      rcases inside.next_none represented first with ⟨noRows, later⟩
      rw [next_of_none first]
      exact ⟨reads.seen.nil_iff.mp noRows, isValid, payloads, later, reads⟩
    | some row =>
      have present := (inside.next_some represented first).1
      rcases reads.exists_of_get? present with ⟨value, _, back⟩
      rw [next_of_some first (back.decode isValid)] at nothing
      cases nothing
  next_some := by
    rintro ⟨registry, state⟩ map key value ⟨isValid, payloads, represented, reads⟩ taken
    cases first : (inner.next state).1 with
    | none =>
      rw [next_of_none first] at taken
      cases taken
    | some row =>
      rcases inside.next_some represented first with ⟨present, later⟩
      rcases reads.exists_of_get? present with ⟨held, found, back⟩
      rw [next_of_some first (back.decode isValid)] at taken ⊢
      cases taken
      exact ⟨found, isValid, _, later, reads.erase row.1⟩
  keys := by
    rintro ⟨registry, state⟩ map ⟨isValid, payloads, represented, reads⟩
    rcases inside.keys represented with ⟨answer, later⟩
    refine ⟨?_, isValid, payloads, later, reads⟩
    have same : (payloads.seen.entries.filterMap fun row => some row.1).Perm map.seen.keys :=
      reads.seen.filterMap_keys_perm fun stored key spelled => congrArg some spelled
    rw [List.filterMap_eq_map'] at same
    exact answer.trans same
  len := by
    rintro ⟨registry, state⟩ map ⟨isValid, payloads, represented, reads⟩
    rcases inside.len represented with ⟨answer, later⟩
    refine ⟨?_, isValid, payloads, later, reads⟩
    rw [← reads.seen.length_eq, ← answer]
    rfl
  clear := by
    rintro ⟨registry, state⟩ map ⟨isValid, payloads, represented, reads⟩
    refine ⟨isValid, _, inside.clear represented, ?_⟩
    cases reads with
    | none => exact Option.Rel.none
    | some _ => exact Option.Rel.some Mirrors.empty
  close := by
    rintro ⟨registry, state⟩ map ⟨isValid, payloads, represented, reads⟩
    rcases inside.close represented with ⟨answer, later⟩
    refine ⟨?_, isValid, none, later, Option.Rel.none⟩
    rw [← isSome_eq_of_rel reads, ← answer]
    rfl

omit [DecidableEq κ] in
theorem safe_of_nextReadable (inside : inner.Rooms safe) (registry : Registry) (fuel : Nat)
    {state : σ} (room : safe (nextReadable codec inner registry fuel state).2) : safe state := by
  induction fuel generalizing state with
  | zero => exact room
  | succ fuel hypothesis =>
    apply inside true .next state
    change safe (inner.next state).2
    rw [nextReadable] at room
    cases taken : inner.next state with
    | mk row after =>
      rw [taken] at room
      cases row with
      | none => exact room
      | some row =>
        rcases row with ⟨key, payload⟩
        dsimp only at room ⊢
        cases decoded : codec.decode payload registry with
        | ok value =>
          rw [decoded] at room
          exact room
        | error fault =>
          rw [decoded] at room
          exact hypothesis room

omit [DecidableEq κ] in
/-- The layer takes as much room as the engine. -/
theorem rooms (inside : inner.Rooms safe) :
    (Adapter.storage codec inner).Rooms fun state => safe state.2 := by
  rintro allowOverwrite op ⟨registry, state⟩ room
  cases op with
  | load key => exact inside true (.load key) state room
  | has key => exact inside true (.load key) state room
  | store key value =>
    cases allowOverwrite with
    | true =>
      change safe ((Adapter.storage codec inner).store key value (registry, state)).2 at room
      simp only [Adapter.storage] at room
      split at room
      · exact inside true (.store key _) state room
      · exact room
    | false =>
      change safe ((Adapter.storage codec inner).storeIfAbsent key value (registry, state)).2.2
        at room
      simp only [Adapter.storage] at room
      split at room
      · exact inside false (.store key _) state room
      · exact room
  | delete removed => exact inside true (.delete removed) state room
  | pop key =>
    change safe (TypedMap.pop ⟨Adapter.storage codec inner, allowOverwrite⟩ key
      (registry, state)).2.2 at room
    apply inside true (.load key) state
    change safe (inner.load key state).2
    simp only [TypedMap.pop, Adapter.storage] at room
    split at room
    · next loaded =>
      rw [← congrArg (fun both => both.2.2) loaded] at room
      exact room
    · next loaded =>
      rw [← congrArg (fun both => both.2.2) loaded] at room
      exact inside true (.delete [key]) _ room
  | next =>
    change safe (nextReadable codec inner registry (inner.size state + 1) state).2 at room
    exact safe_of_nextReadable inside registry _ room
  | range visit start =>
    exact inside true (.range (readableOnly codec registry visit) start) state room
  | keys => exact inside true .keys state room
  | len => exact inside true .len state room
  | isEmpty => exact inside true .len state room
  | clear => exact inside true .clear state room
  | close => exact inside true .close state room

end Adapter
end TypedStore
