import TypedStore.Bytes

/-!
# Ordered byte maps

A `Tree` maps byte strings to byte strings and keeps its entries in ascending
order of their keys; the structure carries the proof.  It is what an ordered
engine stores, whatever its pages look like.
-/

namespace TypedStore

/-- Entries in strictly ascending order of their keys. -/
structure Tree where
  entries : List (Bytes × Bytes)
  ascending : entries.Pairwise fun first second => first.1 < second.1

namespace Tree

/-- No entries. -/
def empty : Tree := ⟨[], List.Pairwise.nil⟩

instance : Inhabited Tree := ⟨empty⟩

/-- The number of entries. -/
def size (tree : Tree) : Nat :=
  tree.entries.length

/-- The value under a key in a list of entries. -/
def find? (key : Bytes) : List (Bytes × Bytes) → Option Bytes
  | [] => none
  | (other, value) :: rest => if key = other then some value else find? key rest

/-- The value under a key. -/
def get? (tree : Tree) (key : Bytes) : Option Bytes :=
  find? key tree.entries

/-- Put an entry in its place, replacing the one of the same key. -/
def put (key value : Bytes) : List (Bytes × Bytes) → List (Bytes × Bytes)
  | [] => [(key, value)]
  | (other, old) :: rest =>
    if key = other then (key, value) :: rest
    else if key < other then (key, value) :: (other, old) :: rest
    else (other, old) :: put key value rest

theorem mem_put {key value : Bytes} {entries : List (Bytes × Bytes)} {entry : Bytes × Bytes}
    (member : entry ∈ put key value entries) : entry = (key, value) ∨ entry ∈ entries := by
  induction entries with
  | nil => simpa [put] using member
  | cons head rest hypothesis =>
    obtain ⟨other, old⟩ := head
    simp only [put] at member
    split at member
    · rcases List.mem_cons.1 member with here | there
      · exact .inl here
      · exact .inr (List.mem_cons_of_mem _ there)
    · split at member
      · rcases List.mem_cons.1 member with here | there
        · exact .inl here
        · exact .inr there
      · rcases List.mem_cons.1 member with here | there
        · exact .inr (here ▸ List.mem_cons_self)
        · rcases hypothesis there with new | old
          · exact .inl new
          · exact .inr (List.mem_cons_of_mem _ old)

/-- Two different byte strings are ordered one way or the other. -/
theorem lt_of_ne_of_not_lt {first second : Bytes} (different : first ≠ second)
    (notBefore : ¬first < second) : second < first := by
  by_cases after : second < first
  · exact after
  · exact absurd (List.le_antisymm (List.not_lt.1 after) (List.not_lt.1 notBefore)) different

theorem ascending_put (key value : Bytes) {entries : List (Bytes × Bytes)}
    (ascending : entries.Pairwise fun first second => first.1 < second.1) :
    (put key value entries).Pairwise fun first second => first.1 < second.1 := by
  induction entries with
  | nil => simp [put]
  | cons head rest hypothesis =>
    obtain ⟨other, old⟩ := head
    have later := List.pairwise_cons.1 ascending
    simp only [put]
    split
    · next same =>
      subst same
      exact List.pairwise_cons.2 ⟨later.1, later.2⟩
    · next different =>
      split
      · next before =>
        refine List.pairwise_cons.2 ⟨?_, ascending⟩
        intro entry member
        rcases List.mem_cons.1 member with here | there
        · exact here ▸ before
        · exact List.lt_trans before (later.1 entry there)
      · next notBefore =>
        refine List.pairwise_cons.2 ⟨?_, hypothesis later.2⟩
        intro entry member
        rcases mem_put member with new | old
        · exact new ▸ lt_of_ne_of_not_lt different notBefore
        · exact later.1 entry old

/-- Insert an entry or replace the one of the same key. -/
def insert (tree : Tree) (key value : Bytes) : Tree :=
  ⟨put key value tree.entries, ascending_put key value tree.ascending⟩

/-- Remove a key. -/
def erase (tree : Tree) (key : Bytes) : Tree :=
  ⟨tree.entries.filter fun entry => decide (entry.1 ≠ key),
    tree.ascending.sublist List.filter_sublist⟩

/-- Remove the entry with the smallest key and return it. -/
def popMin (tree : Tree) : Option (Bytes × Bytes) × Tree :=
  match tree with
  | ⟨[], ascending⟩ => (none, ⟨[], ascending⟩)
  | ⟨entry :: rest, ascending⟩ => (some entry, ⟨rest, (List.pairwise_cons.1 ascending).2⟩)

/-- A tree of the given entries, the last of each key. -/
def ofList (entries : List (Bytes × Bytes)) : Tree :=
  entries.foldl (fun tree (key, value) => tree.insert key value) empty

theorem find?_put (key value wanted : Bytes) (entries : List (Bytes × Bytes)) :
    find? wanted (put key value entries) =
      if wanted = key then some value else find? wanted entries := by
  induction entries with
  | nil => simp [put, find?]
  | cons head rest hypothesis =>
    obtain ⟨other, old⟩ := head
    by_cases same : key = other
    · subst same
      by_cases found : wanted = key <;> simp [put, find?, found]
    · by_cases before : key < other
      · by_cases found : wanted = key <;> simp [put, find?, same, before, found]
      · by_cases found : wanted = key
        · subst found
          simp [put, find?, same, before, hypothesis]
        · simp [put, find?, same, before, hypothesis, found]

@[simp] theorem get?_insert (tree : Tree) (key value wanted : Bytes) :
    (tree.insert key value).get? wanted = if wanted = key then some value else tree.get? wanted :=
  find?_put key value wanted tree.entries

@[simp] theorem get?_erase (tree : Tree) (key wanted : Bytes) :
    (tree.erase key).get? wanted = if wanted = key then none else tree.get? wanted := by
  obtain ⟨entries, ascending⟩ := tree
  simp only [get?, erase]
  clear ascending
  induction entries with
  | nil => simp [find?]
  | cons entry rest hypothesis =>
    obtain ⟨other, value⟩ := entry
    by_cases same : other = key
    · subst same
      by_cases found : wanted = other
      · simpa [List.filter_cons, find?, found] using hypothesis
      · simpa [List.filter_cons, find?, found] using hypothesis
    · by_cases found : wanted = key
      · subst found
        have other : ¬wanted = other := fun equal => same equal.symm
        simpa [List.filter_cons, find?, same, other] using hypothesis
      · simp only [List.filter_cons, same, ne_eq, not_false_eq_true, decide_true, if_true, find?]
        split
        · simp
        · simpa [found] using hypothesis

end Tree

end TypedStore
