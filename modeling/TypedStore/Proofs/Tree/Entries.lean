import Mathlib.Data.List.Nodup
import TypedStore.Proofs.Listing.Entries
import TypedStore.Tree

/-!
# Trees as lists of entries

A tree keeps its entries in order, which nothing but walking and taking the
smallest depends on.  As far as look-ups and the set of entries go it behaves
like a listing, and the lemmas about listings apply.
-/

namespace TypedStore
namespace Tree

theorem find?_eq_listing (key : Bytes) (entries : List (Bytes × Bytes)) :
    find? key entries = Listing.find? key entries := by
  induction entries with
  | nil => rfl
  | cons entry rest hypothesis =>
    rcases entry with ⟨other, value⟩
    rw [find?, Listing.find?, hypothesis]

theorem get?_eq_listing (tree : Tree) (key : Bytes) :
    tree.get? key = Listing.find? key tree.entries :=
  find?_eq_listing key tree.entries

theorem isSome_get?_iff {tree : Tree} {key : Bytes} :
    (tree.get? key).isSome = true ↔ key ∈ tree.entries.map Prod.fst := by
  rw [get?_eq_listing, ← not_iff_not, ← Listing.find?_eq_none_iff, Option.not_isSome_iff_eq_none]

theorem eq_of_entries {first second : Tree} (same : first.entries = second.entries) :
    first = second := by
  cases first
  cases same
  rfl

theorem absent_of_forall_lt {key : Bytes} {entries : List (Bytes × Bytes)}
    (before : ∀ entry ∈ entries, key < entry.1) : key ∉ entries.map Prod.fst := by
  intro member
  rcases List.mem_map.mp member with ⟨entry, listed, same⟩
  have below := before entry listed
  rw [same] at below
  exact List.lt_irrefl key below

theorem nodup_keys (tree : Tree) : (tree.entries.map Prod.fst).Nodup := by
  rcases tree with ⟨entries, ascending⟩
  dsimp only
  induction entries with
  | nil => exact List.nodup_nil
  | cons entry rest hypothesis =>
    have parts := List.pairwise_cons.mp ascending
    exact List.nodup_cons.mpr ⟨absent_of_forall_lt parts.1, hypothesis parts.2⟩

/-- Putting an entry in its place is removing its key and adding it, up to the
order. -/
theorem put_perm (key value : Bytes) {entries : List (Bytes × Bytes)}
    (ascending : entries.Pairwise fun first second => first.1 < second.1) :
    (put key value entries).Perm
      (entries.filter (fun entry => decide (entry.1 ≠ key)) ++ [(key, value)]) := by
  induction entries with
  | nil => exact List.Perm.refl _
  | cons entry rest hypothesis =>
    rcases entry with ⟨other, old⟩
    have parts := List.pairwise_cons.mp ascending
    rw [put]
    by_cases same : key = other
    · have absent : key ∉ rest.map Prod.fst := by
        rw [same]
        exact absent_of_forall_lt parts.1
      have dropped : decide (other ≠ key) = false := decide_eq_false fun different =>
        different same.symm
      rw [if_pos same, List.filter_cons, dropped, Listing.filter_of_absent absent]
      exact (List.perm_append_singleton (key, value) rest).symm
    · rw [if_neg same]
      by_cases before : key < other
      · have absent : key ∉ ((other, old) :: rest).map Prod.fst := by
          apply absent_of_forall_lt
          intro entry member
          rcases List.mem_cons.mp member with here | later
          · rw [here]
            exact before
          · exact List.lt_trans before (parts.1 entry later)
        rw [if_pos before, Listing.filter_of_absent absent]
        exact (List.perm_append_singleton (key, value) ((other, old) :: rest)).symm
      · have kept : decide (other ≠ key) = true := decide_eq_true fun equal => same equal.symm
        rw [if_neg before, List.filter_cons, kept]
        exact (hypothesis parts.2).cons _

theorem entries_insert_perm (tree : Tree) (key value : Bytes) :
    (tree.insert key value).entries.Perm
      (tree.entries.filter (fun entry => decide (entry.1 ≠ key)) ++ [(key, value)]) :=
  put_perm key value tree.ascending

/-- A new key makes one more entry, an old one does not. -/
theorem size_insert (tree : Tree) (key value : Bytes) :
    (tree.insert key value).size =
      if (tree.get? key).isSome then tree.size else tree.size + 1 := by
  have length := (tree.entries_insert_perm key value).length_eq
  rw [List.length_append, List.length_singleton] at length
  cases found : tree.get? key with
  | none =>
    have absent : key ∉ tree.entries.map Prod.fst := by
      rw [get?_eq_listing] at found
      exact Listing.find?_eq_none_iff.mp found
    rw [Listing.filter_of_absent absent] at length
    exact length
  | some old =>
    have present : (key, old) ∈ tree.entries := by
      rw [get?_eq_listing] at found
      exact Listing.mem_of_find? found
    have others := Listing.length_filter_of_mem tree.nodup_keys present
    rw [Option.isSome_some, if_pos rfl, size, length, others]
    rfl

theorem size_erase (tree : Tree) (key : Bytes) :
    (tree.erase key).size = if (tree.get? key).isSome then tree.size - 1 else tree.size := by
  cases found : tree.get? key with
  | none =>
    have absent : key ∉ tree.entries.map Prod.fst := by
      rw [get?_eq_listing] at found
      exact Listing.find?_eq_none_iff.mp found
    exact congrArg List.length (Listing.filter_of_absent absent)
  | some old =>
    have present : (key, old) ∈ tree.entries := by
      rw [get?_eq_listing] at found
      exact Listing.mem_of_find? found
    have others := Listing.length_filter_of_mem tree.nodup_keys present
    exact Nat.eq_sub_of_add_eq others

/-! ## Look-ups determine a tree -/

theorem mem_entries_iff {tree : Tree} {key value : Bytes} :
    (key, value) ∈ tree.entries ↔ tree.get? key = some value := by
  rw [get?_eq_listing]
  exact ⟨Listing.find?_of_mem tree.nodup_keys, Listing.mem_of_find?⟩

/-- Trees in which every key finds the same are the same. -/
theorem eq_of_get? {first second : Tree} (same : ∀ key, first.get? key = second.get? key) :
    first = second := by
  have order : first.entries.Perm second.entries := by
    apply (List.perm_ext_iff_of_nodup (List.Nodup.of_map Prod.fst first.nodup_keys)
      (List.Nodup.of_map Prod.fst second.nodup_keys)).mpr
    rintro ⟨key, value⟩
    rw [mem_entries_iff, mem_entries_iff, same]
  apply eq_of_entries
  apply order.eq_of_pairwise ?_ first.ascending second.ascending
  intro entry other _ _ before after
  exact absurd (List.lt_trans before after) (List.lt_irrefl entry.1)

theorem erase_of_absent {tree : Tree} {key : Bytes} (absent : tree.get? key = none) :
    tree.erase key = tree := by
  apply eq_of_get?
  intro wanted
  rw [get?_erase]
  split
  · next here => rw [here, absent]
  · rfl

/-- Removing keys one after another removes them all. -/
theorem get?_foldl_erase (removed : List Bytes) (tree : Tree) (wanted : Bytes) :
    (removed.foldl erase tree).get? wanted =
      if wanted ∈ removed then none else tree.get? wanted := by
  induction removed generalizing tree with
  | nil => rfl
  | cons key rest hypothesis =>
    rw [List.foldl_cons, hypothesis, get?_erase]
    by_cases later : wanted ∈ rest
    · rw [if_pos later, if_pos (List.mem_cons_of_mem key later)]
    · by_cases here : wanted = key
      · rw [if_neg later, if_pos here, if_pos (List.mem_cons.mpr (.inl here))]
      · have absent : wanted ∉ key :: rest := fun member =>
          (List.mem_cons.mp member).elim here later
        rw [if_neg later, if_neg here, if_neg absent]

/-- It does not matter in which order keys are removed, and how often. -/
theorem foldl_erase_congr {first second : List Bytes} (same : ∀ key, key ∈ first ↔ key ∈ second)
    (tree : Tree) : first.foldl erase tree = second.foldl erase tree := by
  apply eq_of_get?
  intro wanted
  rw [get?_foldl_erase, get?_foldl_erase]
  exact ite_congr (propext (same wanted)) (fun _ => rfl) fun _ => rfl

/-- Removing keys changes nothing exactly if they are all absent. -/
theorem foldl_erase_eq_self_iff {removed : List Bytes} {tree : Tree} :
    removed.foldl erase tree = tree ↔ ∀ key ∈ removed, tree.get? key = none := by
  constructor
  · intro same key member
    rw [← same, get?_foldl_erase, if_pos member]
  · intro absent
    apply eq_of_get?
    intro wanted
    rw [get?_foldl_erase]
    split
    · next member => exact (absent wanted member).symm
    · rfl

/-! ## Parts of a tree -/

section Restrict

variable (kept : Bytes → Prop) [DecidablePred kept]

/-- The entries whose keys are of some kind. -/
def restrict (tree : Tree) : Tree :=
  ⟨tree.entries.filter fun entry => decide (kept entry.1),
    tree.ascending.sublist List.filter_sublist⟩

theorem get?_restrict (tree : Tree) (wanted : Bytes) :
    (tree.restrict kept).get? wanted = if kept wanted then tree.get? wanted else none := by
  apply Option.ext
  intro value
  rw [← mem_entries_iff, restrict, List.mem_filter, mem_entries_iff, decide_eq_true_eq]
  split
  · next isKept => exact and_iff_left isKept
  · next other => exact ⟨fun both => absurd both.2 other, fun impossible => by cases impossible⟩

variable {kept}

theorem restrict_insert {key : Bytes} (isKept : kept key) (tree : Tree) (value : Bytes) :
    (tree.insert key value).restrict kept = (tree.restrict kept).insert key value := by
  apply eq_of_get?
  intro wanted
  rw [get?_restrict, get?_insert, get?_insert, get?_restrict]
  by_cases here : wanted = key
  · rw [if_pos here, if_pos here, here, if_pos isKept]
  · rw [if_neg here, if_neg here]

theorem restrict_foldl_erase (removed : List Bytes) (tree : Tree) :
    (removed.foldl erase tree).restrict kept = removed.foldl erase (tree.restrict kept) := by
  apply eq_of_get?
  intro wanted
  rw [get?_restrict, get?_foldl_erase, get?_foldl_erase, get?_restrict]
  split <;> split <;> rfl

/-- What is not kept does not matter. -/
theorem restrict_congr {first second : Tree}
    (same : ∀ key, kept key → first.get? key = second.get? key) :
    first.restrict kept = second.restrict kept := by
  apply eq_of_get?
  intro wanted
  rw [get?_restrict, get?_restrict]
  split
  · next isKept => exact same wanted isKept
  · rfl

end Restrict

end Tree
end TypedStore
