import TypedStore.Error

/-!
# The storage interface

A `Storage σ κ ν` is an engine, or a layer over one, that keeps values `ν`
under keys `κ`; `σ` is the state it works on.  Operations take the state and
give the next one.  No operation on data reports an error: a failed read is an
absent entry, a failed write is no write.  Only closing can fail.

A walk over the entries is driven by a `Visitor`, which carries what it has
gathered from entry to entry and says whether to go on.
-/

namespace TypedStore

/-- One visit of a walk: what is gathered after it, and whether to go on. -/
abbrev Visitor (κ ν α : Type) := κ → ν → α → α × Bool

namespace Visitor

/-- Walk over entries in order until the visitor stops or they run out. -/
def walk {κ ν α : Type} (visit : Visitor κ ν α) : List (κ × ν) → α → α × Bool
  | [], gathered => (gathered, true)
  | (key, value) :: rest, gathered =>
    match visit key value gathered with
    | (gathered, true) => walk visit rest gathered
    | (gathered, false) => (gathered, false)

@[simp] theorem walk_nil {κ ν α : Type} (visit : Visitor κ ν α) (gathered : α) :
    visit.walk [] gathered = (gathered, true) := rfl

/-- A walk over two lists goes on to the second unless it stopped in the first. -/
theorem walk_append {κ ν α : Type} (visit : Visitor κ ν α) (first second : List (κ × ν))
    (gathered : α) :
    visit.walk (first ++ second) gathered =
      match visit.walk first gathered with
      | (gathered, true) => visit.walk second gathered
      | (gathered, false) => (gathered, false) := by
  induction first generalizing gathered with
  | nil => rfl
  | cons entry first hypothesis =>
    obtain ⟨key, value⟩ := entry
    simp only [List.cons_append, walk]
    cases visited : visit key value gathered with
    | mk after goesOn =>
      cases goesOn with
      | true => simpa using hypothesis after
      | false => rfl

/-- The visitor that collects every entry, the latest first. -/
def collect {κ ν : Type} : Visitor κ ν (List (κ × ν)) :=
  fun key value seen => ((key, value) :: seen, true)

theorem walk_collect {κ ν : Type} (entries seen : List (κ × ν)) :
    Visitor.walk collect entries seen = (entries.reverse ++ seen, true) := by
  induction entries generalizing seen with
  | nil => rfl
  | cons entry entries hypothesis => simp [walk, collect, hypothesis]

end Visitor

/-- The operations of an engine or of a layer over one. -/
structure Storage (σ κ ν : Type) : Type 1 where
  /-- The value under a key, if it is present and readable. -/
  load : κ → σ → Option ν × σ
  /-- Insert a value or replace the one that is there. -/
  store : κ → ν → σ → σ
  /-- Insert a value under an absent key; the answer says whether it was
  inserted. -/
  storeIfAbsent : κ → ν → σ → Bool × σ
  /-- Remove keys; absent ones are ignored. -/
  delete : List κ → σ → σ
  /-- Visit entries until the visitor stops or they run out. -/
  range : {α : Type} → Visitor κ ν α → α → σ → α × σ
  /-- Remove some entry and return it. -/
  next : σ → Option (κ × ν) × σ
  /-- All keys. -/
  keys : σ → List κ × σ
  /-- The number of entries. -/
  len : σ → Nat × σ
  /-- Remove all entries. -/
  clear : σ → σ
  /-- Release the engine; a second time is an error. -/
  close : σ → Except StoreError Unit × σ
  /-- More entries than this `next` cannot return in a row. -/
  size : σ → Nat

namespace Storage

variable {σ κ ν : Type}

/-- All entries, in the order of a walk. -/
def entries (storage : Storage σ κ ν) (state : σ) : List (κ × ν) × σ :=
  let (seen, state) := storage.range Visitor.collect [] state
  (seen.reverse, state)

/-- Whether no entry is present. -/
def isEmpty (storage : Storage σ κ ν) (state : σ) : Bool × σ :=
  let (count, state) := storage.len state
  (count == 0, state)

/-- Take entries one after another until there is none, at most `limit`. -/
def drain (storage : Storage σ κ ν) : (limit : Nat) → σ → List (κ × ν) × σ
  | 0, state => ([], state)
  | limit + 1, state =>
    match storage.next state with
    | (none, state) => ([], state)
    | (some entry, state) =>
      let (rest, state) := drain storage limit state
      (entry :: rest, state)

/-- A storage on a part of a larger state. -/
def within {τ : Type} (storage : Storage σ κ ν) (get : τ → σ) (put : τ → σ → τ) :
    Storage τ κ ν where
  load key state := let (answer, inner) := storage.load key (get state); (answer, put state inner)
  store key value state := put state (storage.store key value (get state))
  storeIfAbsent key value state :=
    let (answer, inner) := storage.storeIfAbsent key value (get state); (answer, put state inner)
  delete keys state := put state (storage.delete keys (get state))
  range visit gathered state :=
    let (answer, inner) := storage.range visit gathered (get state); (answer, put state inner)
  next state := let (answer, inner) := storage.next (get state); (answer, put state inner)
  keys state := let (answer, inner) := storage.keys (get state); (answer, put state inner)
  len state := let (answer, inner) := storage.len (get state); (answer, put state inner)
  clear state := put state (storage.clear (get state))
  close state := let (answer, inner) := storage.close (get state); (answer, put state inner)
  size state := storage.size (get state)

end Storage

end TypedStore
