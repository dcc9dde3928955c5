import TypedStore.Memory
import TypedStore.Proofs.Contract.Refinement

/-!
# Memory is a finite map

A store in memory keeps its listing as it is, so it stands for exactly one map.
Nothing is asked of keys and values, which are never encoded.
-/

namespace TypedStore
namespace Memory

variable {κ ν : Type} [DecidableEq κ]

/-- The map that a store in memory stands for. -/
def mapState (memory : Memory κ ν) : MapState κ ν :=
  if memory.closed then none else some memory.listing

theorem entries_seen (memory : Memory κ ν) : memory.mapState.seen.entries = memory.visible := by
  unfold mapState visible
  cases memory.closed <;> rfl

/-- Taking the first entry is erasing its key. -/
theorem takeFirst_of_cons {listing : Listing κ ν} {key : κ} {value : ν}
    {rest : List (κ × ν)} (first : listing.entries = (key, value) :: rest) :
    listing.takeFirst.2 = listing.erase key := by
  rcases listing with ⟨entries, distinct⟩
  subst first
  apply Listing.eq_of_entries
  have parts := List.nodup_cons.mp distinct
  have dropped : decide (key ≠ key) = false := decide_eq_false fun different => different rfl
  change rest = ((key, value) :: rest).filter fun entry => decide (entry.1 ≠ key)
  rw [List.filter_cons, dropped, Listing.filter_of_absent parts.1]
  rfl

theorem refines : (Memory.storage : Storage (Memory κ ν) κ ν).Refines (fun _ => True)
    (fun _ => True) (fun _ => True) (fun memory map => map = memory.mapState) where
  load := by
    rintro ⟨listing, closed⟩ map key rfl -
    cases closed <;> exact ⟨rfl, rfl⟩
  store := by
    rintro ⟨listing, closed⟩ map key value rfl - - -
    cases closed <;> rfl
  storeIfAbsent := by
    rintro ⟨listing, closed⟩ map key value rfl - - -
    cases closed with
    | true => rfl
    | false =>
      simp only [storage, storeIfAbsent, mapState, Bool.false_eq_true, if_false, Option.map_some,
        Listing.insertAbsent]
      split <;> rfl
  delete := by
    rintro ⟨listing, closed⟩ map removed rfl -
    cases closed <;> rfl
  range := by
    rintro memory map α visit start rfl
    refine ⟨⟨memory.visible, ?_, rfl⟩, rfl⟩
    rw [entries_seen]
  next_none := by
    rintro ⟨⟨entries, distinct⟩, closed⟩ map rfl nothing
    cases closed with
    | true => exact ⟨rfl, rfl⟩
    | false =>
      cases entries with
      | nil => exact ⟨rfl, rfl⟩
      | cons entry rest => cases nothing
  next_some := by
    rintro ⟨⟨entries, distinct⟩, closed⟩ map key value rfl taken
    cases closed with
    | true => cases taken
    | false =>
      cases entries with
      | nil => cases taken
      | cons entry rest =>
        rcases entry with ⟨first, held⟩
        cases taken
        have erased : (⟨(key, value) :: rest, distinct⟩ : Listing κ ν).takeFirst.2 =
            (⟨(key, value) :: rest, distinct⟩ : Listing κ ν).erase key := takeFirst_of_cons rfl
        refine ⟨Listing.get?_of_mem List.mem_cons_self, ?_⟩
        exact congrArg some erased.symm
  keys := by
    rintro memory map rfl
    refine ⟨?_, rfl⟩
    change (memory.visible.map Prod.fst).Perm (memory.mapState.seen.entries.map Prod.fst)
    rw [entries_seen]
  len := by
    rintro memory map rfl
    refine ⟨?_, rfl⟩
    rw [entries_seen]
    rfl
  clear := by
    rintro ⟨listing, closed⟩ map rfl
    cases closed <;> rfl
  close := by
    rintro ⟨listing, closed⟩ map rfl
    cases closed <;> exact ⟨rfl, rfl⟩

end Memory
end TypedStore
