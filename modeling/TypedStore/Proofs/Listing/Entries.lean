import Mathlib.Data.List.Forall2
import Mathlib.Data.List.Perm.Basic
import TypedStore.Listing

/-!
# Listings up to the order of their entries

Engines keep the entries of one map in orders of their own.  The lemmas here
compare lists of entries with distinct keys up to a permutation: look-ups do not
see the order, and putting an entry is removing its key and adding it at the
end, as far as the order does not matter.
-/

namespace TypedStore

theorem exists_of_forall₂ {α β : Type} {relation : α → β → Prop} {firsts : List α}
    {seconds : List β} (pairs : List.Forall₂ relation firsts seconds) {first : α}
    (member : first ∈ firsts) : ∃ second ∈ seconds, relation first second := by
  induction pairs with
  | nil => cases member
  | cons related _ hypothesis =>
    rcases List.mem_cons.mp member with here | later
    · rw [here]
      exact ⟨_, List.mem_cons_self, related⟩
    · rcases hypothesis later with ⟨second, listed, found⟩
      exact ⟨second, List.mem_cons_of_mem _ listed, found⟩

namespace Listing

variable {κ ν : Type} [DecidableEq κ]

theorem mem_of_find? {key : κ} {value : ν} {entries : List (κ × ν)}
    (found : find? key entries = some value) : (key, value) ∈ entries := by
  induction entries with
  | nil => cases found
  | cons entry rest hypothesis =>
    rcases entry with ⟨other, old⟩
    rw [find?] at found
    by_cases same : key = other
    · rw [if_pos same] at found
      cases found
      rw [same]
      exact List.mem_cons_self
    · rw [if_neg same] at found
      exact List.mem_cons_of_mem _ (hypothesis found)

theorem find?_of_mem {key : κ} {value : ν} {entries : List (κ × ν)}
    (distinct : (entries.map Prod.fst).Nodup) (member : (key, value) ∈ entries) :
    find? key entries = some value := by
  induction entries with
  | nil => cases member
  | cons entry rest hypothesis =>
    rcases entry with ⟨other, old⟩
    have parts := List.nodup_cons.mp distinct
    rw [find?]
    rcases List.mem_cons.mp member with here | later
    · cases here
      rw [if_pos rfl]
    · have different : key ≠ other := by
        intro same
        apply parts.1
        rw [← same]
        exact List.mem_map.mpr ⟨(key, value), later, rfl⟩
      rw [if_neg different]
      exact hypothesis parts.2 later

theorem find?_eq_none_iff {key : κ} {entries : List (κ × ν)} :
    find? key entries = none ↔ key ∉ entries.map Prod.fst := by
  induction entries with
  | nil => simp only [find?, List.map_nil, List.not_mem_nil, not_false_eq_true]
  | cons entry rest hypothesis =>
    rcases entry with ⟨other, old⟩
    rw [find?, List.map_cons, List.mem_cons, not_or]
    by_cases same : key = other
    · rw [if_pos same]
      exact iff_of_false (Option.some_ne_none old) fun both => both.1 same
    · rw [if_neg same, hypothesis]
      exact ⟨fun absent => ⟨same, absent⟩, fun both => both.2⟩

/-- A look-up does not see the order of entries with distinct keys. -/
theorem find?_perm {key : κ} {first second : List (κ × ν)} (order : first.Perm second)
    (distinct : (second.map Prod.fst).Nodup) : find? key first = find? key second := by
  have firstDistinct : (first.map Prod.fst).Nodup := (order.map Prod.fst).nodup_iff.mpr distinct
  cases found : find? key second with
  | none =>
    rw [find?_eq_none_iff] at found ⊢
    intro member
    exact found ((order.map Prod.fst).mem_iff.mp member)
  | some value => exact find?_of_mem firstDistinct (order.mem_iff.mpr (mem_of_find? found))

theorem filter_of_absent {key : κ} {entries : List (κ × ν)}
    (absent : key ∉ entries.map Prod.fst) :
    entries.filter (fun entry => decide (entry.1 ≠ key)) = entries := by
  apply List.filter_eq_self.mpr
  intro entry member
  apply decide_eq_true
  intro same
  apply absent
  rw [← same]
  exact List.mem_map.mpr ⟨entry, member, rfl⟩

theorem length_filter_of_mem {key : κ} {value : ν} {entries : List (κ × ν)}
    (distinct : (entries.map Prod.fst).Nodup) (member : (key, value) ∈ entries) :
    (entries.filter fun entry => decide (entry.1 ≠ key)).length + 1 = entries.length := by
  induction entries with
  | nil => cases member
  | cons entry rest hypothesis =>
    have parts := List.nodup_cons.mp distinct
    rcases List.mem_cons.mp member with here | later
    · have dropped : decide (entry.1 ≠ key) = false := by
        rw [← here]
        exact decide_eq_false fun different => different rfl
      have absent : key ∉ rest.map Prod.fst := by
        rw [← here] at parts
        exact parts.1
      rw [List.filter_cons, dropped, filter_of_absent absent]
      rfl
    · have kept : decide (entry.1 ≠ key) = true := by
        apply decide_eq_true
        intro same
        apply parts.1
        rw [same]
        exact List.mem_map.mpr ⟨(key, value), later, rfl⟩
      rw [List.filter_cons, kept]
      exact congrArg (· + 1) (hypothesis parts.2 later)

theorem put_of_absent {key : κ} (value : ν) {entries : List (κ × ν)}
    (absent : key ∉ entries.map Prod.fst) : put key value entries = entries ++ [(key, value)] := by
  induction entries with
  | nil => rfl
  | cons entry rest hypothesis =>
    rcases entry with ⟨other, old⟩
    rw [List.map_cons, List.mem_cons, not_or] at absent
    rw [put, if_neg absent.1, hypothesis absent.2, List.cons_append]

/-- Putting an entry is removing its key and adding it, up to the order. -/
theorem put_perm (key : κ) (value : ν) {entries : List (κ × ν)}
    (distinct : (entries.map Prod.fst).Nodup) :
    (put key value entries).Perm
      (entries.filter (fun entry => decide (entry.1 ≠ key)) ++ [(key, value)]) := by
  induction entries with
  | nil => exact List.Perm.refl _
  | cons entry rest hypothesis =>
    rcases entry with ⟨other, old⟩
    have parts := List.nodup_cons.mp distinct
    rw [put]
    by_cases same : key = other
    · have absent : key ∉ rest.map Prod.fst := by
        rw [same]
        exact parts.1
      have dropped : decide (other ≠ key) = false := decide_eq_false fun different =>
        different same.symm
      rw [if_pos same, List.filter_cons, dropped, filter_of_absent absent]
      exact (List.perm_append_singleton (key, value) rest).symm
    · have kept : decide (other ≠ key) = true := decide_eq_true fun equal => same equal.symm
      rw [if_neg same, List.filter_cons, kept]
      exact (hypothesis parts.2).cons _

theorem entries_insert_perm (listing : Listing κ ν) (key : κ) (value : ν) :
    (listing.insert key value).entries.Perm
      (listing.entries.filter (fun entry => decide (entry.1 ≠ key)) ++ [(key, value)]) :=
  put_perm key value listing.distinct

theorem get?_of_mem {listing : Listing κ ν} {key : κ} {value : ν}
    (member : (key, value) ∈ listing.entries) : listing.get? key = some value :=
  find?_of_mem listing.distinct member

theorem isSome_get?_iff {listing : Listing κ ν} {key : κ} :
    (listing.get? key).isSome = true ↔ key ∈ listing.keys := by
  rw [← not_iff_not, Option.not_isSome_iff_eq_none]
  exact find?_eq_none_iff

omit [DecidableEq κ] in
theorem eq_of_entries {first second : Listing κ ν} (same : first.entries = second.entries) :
    first = second := by
  cases first
  cases same
  rfl

/-- Erasing an absent key changes nothing. -/
theorem erase_of_absent {listing : Listing κ ν} {key : κ} (absent : listing.get? key = none) :
    listing.erase key = listing := by
  apply eq_of_entries
  exact filter_of_absent (find?_eq_none_iff.mp absent)

end Listing
end TypedStore
