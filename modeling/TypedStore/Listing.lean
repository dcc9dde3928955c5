/-!
# Finite maps as lists

A `Listing` is a finite map kept as a list of entries with distinct keys.
Replacing an entry keeps its place; a new entry goes to the end.  The lemmas
say what each operation does to look-ups.
-/

namespace TypedStore

/-- Entries with distinct keys. -/
structure Listing (κ ν : Type) where
  entries : List (κ × ν)
  distinct : (entries.map Prod.fst).Nodup

namespace Listing

variable {κ ν : Type} [DecidableEq κ]

/-- No entries. -/
def empty : Listing κ ν := ⟨[], List.nodup_nil⟩

instance : Inhabited (Listing κ ν) := ⟨empty⟩

/-- The keys, in order. -/
def keys (listing : Listing κ ν) : List κ :=
  listing.entries.map Prod.fst

/-- The value in a list of entries. -/
def find? (key : κ) : List (κ × ν) → Option ν
  | [] => none
  | (other, value) :: rest => if key = other then some value else find? key rest

/-- The value under a key. -/
def get? (listing : Listing κ ν) (key : κ) : Option ν :=
  find? key listing.entries

/-- Replace the value of a key, or append an entry. -/
def put (key : κ) (value : ν) : List (κ × ν) → List (κ × ν)
  | [] => [(key, value)]
  | (other, old) :: rest =>
    if key = other then (key, value) :: rest else (other, old) :: put key value rest

theorem mem_keys_put (key : κ) (value : ν) (wanted : κ) (entries : List (κ × ν)) :
    wanted ∈ (put key value entries).map Prod.fst ↔
      wanted = key ∨ wanted ∈ entries.map Prod.fst := by
  induction entries with
  | nil => simp [put]
  | cons entry rest hypothesis =>
    obtain ⟨other, old⟩ := entry
    by_cases same : key = other
    · simp [put, same]
    · simp only [put, same, if_false, List.map_cons, List.mem_cons, hypothesis]
      constructor <;> rintro (h | h | h) <;> simp [h]

theorem nodup_put (key : κ) (value : ν) {entries : List (κ × ν)}
    (distinct : (entries.map Prod.fst).Nodup) : ((put key value entries).map Prod.fst).Nodup := by
  induction entries with
  | nil => simp [put]
  | cons entry rest hypothesis =>
    obtain ⟨other, old⟩ := entry
    simp only [List.map_cons, List.nodup_cons] at distinct
    by_cases same : key = other
    · subst same
      simpa [put] using distinct
    · simp only [put, same, if_false, List.map_cons, List.nodup_cons]
      refine ⟨fun member => ?_, hypothesis distinct.2⟩
      rcases (mem_keys_put key value other rest).1 member with equal | present
      · exact same equal.symm
      · exact distinct.1 present

/-- Insert an entry or replace the one of the same key. -/
def insert (listing : Listing κ ν) (key : κ) (value : ν) : Listing κ ν :=
  ⟨put key value listing.entries, nodup_put key value listing.distinct⟩

/-- Remove a key. -/
def erase (listing : Listing κ ν) (key : κ) : Listing κ ν :=
  ⟨listing.entries.filter fun entry => decide (entry.1 ≠ key),
    List.Nodup.sublist (List.Sublist.map Prod.fst List.filter_sublist) listing.distinct⟩

/-- Remove keys. -/
def eraseAll (listing : Listing κ ν) (keys : List κ) : Listing κ ν :=
  keys.foldl erase listing

/-- Remove the first entry and return it. -/
def takeFirst (listing : Listing κ ν) : Option (κ × ν) × Listing κ ν :=
  match listing with
  | ⟨[], distinct⟩ => (none, ⟨[], distinct⟩)
  | ⟨entry :: rest, distinct⟩ =>
    (some entry, ⟨rest, (List.nodup_cons.1 (by simpa using distinct)).2⟩)

theorem find?_put (key : κ) (value : ν) (wanted : κ) (entries : List (κ × ν)) :
    find? wanted (put key value entries) =
      if wanted = key then some value else find? wanted entries := by
  induction entries with
  | nil => simp [put, find?]
  | cons entry rest hypothesis =>
    obtain ⟨other, old⟩ := entry
    by_cases same : key = other
    · subst same
      by_cases found : wanted = key <;> simp [put, find?, found]
    · by_cases found : wanted = key
      · subst found
        simp [put, find?, same, hypothesis]
      · simp [put, find?, same, hypothesis, found]

@[simp] theorem get?_insert (listing : Listing κ ν) (key : κ) (value : ν) (wanted : κ) :
    (listing.insert key value).get? wanted =
      if wanted = key then some value else listing.get? wanted :=
  find?_put key value wanted listing.entries

@[simp] theorem get?_erase (listing : Listing κ ν) (key wanted : κ) :
    (listing.erase key).get? wanted = if wanted = key then none else listing.get? wanted := by
  obtain ⟨entries, distinct⟩ := listing
  simp only [get?, erase]
  clear distinct
  induction entries with
  | nil => simp [find?]
  | cons entry rest hypothesis =>
    obtain ⟨other, value⟩ := entry
    by_cases same : other = key
    · subst same
      by_cases found : wanted = other
      · simpa [List.filter_cons, find?, found] using hypothesis
      · simpa [List.filter_cons, find?, found] using hypothesis
    · by_cases found : wanted = other
      · subst found
        simp [find?, same]
      · simpa [List.filter_cons, find?, same, found] using hypothesis

end Listing

end TypedStore
