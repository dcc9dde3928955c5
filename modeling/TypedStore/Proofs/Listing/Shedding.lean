import Mathlib.Data.List.Nodup
import TypedStore.Proofs.Listing.Entries

/-!
# Reading the values of a listing, and losing some of them

`Listing.filterMap` is what readers see of a listing when its values have to be read first:
an entry whose value cannot be read is not there.  `Listing.Sheds` says that a listing has
lost some entries of some kind and is otherwise what it was.  Losing entries that cannot be
read is not seen by readers.

`Listing.Yields` is taking an entry out: one that can be read, unless there is none, and any
number of entries that cannot be.
-/

namespace TypedStore
namespace Listing

variable {κ ν ω : Type}

/-! ## Reading values -/

/-- The entries whose values can be read, as they read. -/
def readEntries (read : ν → Option ω) (entries : List (κ × ν)) : List (κ × ω) :=
  entries.filterMap fun entry => (read entry.2).map fun value => (entry.1, value)

theorem readEntries_cons_some {read : ν → Option ω} {key : κ} {stored : ν} {value : ω}
    (reads : read stored = some value) (rest : List (κ × ν)) :
    readEntries read ((key, stored) :: rest) = (key, value) :: readEntries read rest := by
  rw [readEntries, List.filterMap_cons, reads]
  rfl

theorem readEntries_cons_none {read : ν → Option ω} {key : κ} {stored : ν}
    (unreadable : read stored = none) (rest : List (κ × ν)) :
    readEntries read ((key, stored) :: rest) = readEntries read rest := by
  rw [readEntries, List.filterMap_cons, unreadable]
  rfl

theorem mem_readEntries {read : ν → Option ω} {entries : List (κ × ν)} {key : κ} {value : ω} :
    (key, value) ∈ readEntries read entries ↔
      ∃ stored, (key, stored) ∈ entries ∧ read stored = some value := by
  rw [readEntries, List.mem_filterMap]
  constructor
  · rintro ⟨⟨other, stored⟩, member, same⟩
    rcases Option.map_eq_some_iff.mp same with ⟨held, reads, equal⟩
    cases equal
    exact ⟨stored, member, reads⟩
  · rintro ⟨stored, member, reads⟩
    refine ⟨(key, stored), member, ?_⟩
    dsimp only
    rw [reads]
    rfl

theorem keys_readEntries_sublist (read : ν → Option ω) (entries : List (κ × ν)) :
    ((readEntries read entries).map Prod.fst).Sublist (entries.map Prod.fst) := by
  induction entries with
  | nil => exact List.Sublist.slnil
  | cons entry rest hypothesis =>
    rcases entry with ⟨key, stored⟩
    cases reads : read stored with
    | none =>
      rw [readEntries_cons_none reads]
      exact hypothesis.cons key
    | some value =>
      rw [readEntries_cons_some reads]
      exact hypothesis.cons_cons key

/-- Reading in two steps is reading once. -/
theorem readEntries_readEntries {μ : Type} (first : ν → Option ω) (second : ω → Option μ)
    (entries : List (κ × ν)) :
    readEntries second (readEntries first entries) =
      readEntries (fun stored => (first stored).bind second) entries := by
  rw [readEntries, readEntries, readEntries, List.filterMap_filterMap]
  apply List.filterMap_congr
  rintro ⟨key, stored⟩ _
  dsimp only
  cases first stored <;> rfl

/-- The map of the values that can be read. -/
def filterMap (read : ν → Option ω) (listing : Listing κ ν) : Listing κ ω :=
  ⟨readEntries read listing.entries,
    listing.distinct.sublist (keys_readEntries_sublist read listing.entries)⟩

/-- What can always be read is read as it is. -/
theorem filterMap_some (listing : Listing κ ν) : listing.filterMap some = listing :=
  eq_of_entries List.filterMap_some

variable [DecidableEq κ]

theorem get?_eq_some_iff {listing : Listing κ ν} {key : κ} {value : ν} :
    listing.get? key = some value ↔ (key, value) ∈ listing.entries :=
  ⟨mem_of_find?, get?_of_mem⟩

theorem get?_filterMap (read : ν → Option ω) (listing : Listing κ ν) (key : κ) :
    (listing.filterMap read).get? key = (listing.get? key).bind read := by
  apply Option.ext
  intro value
  rw [get?_eq_some_iff, filterMap, mem_readEntries, Option.bind_eq_some_iff]
  simp only [get?_eq_some_iff]

/-- Look-ups fix the entries, up to their order. -/
theorem entries_perm_of_get? {first second : Listing κ ν}
    (same : ∀ key, first.get? key = second.get? key) : first.entries.Perm second.entries := by
  apply (List.perm_ext_iff_of_nodup (List.Nodup.of_map Prod.fst first.distinct)
    (List.Nodup.of_map Prod.fst second.distinct)).mpr
  rintro ⟨key, value⟩
  rw [← get?_eq_some_iff, ← get?_eq_some_iff, same]

/-- An entry and the others are all entries. -/
theorem perm_cons_erase {listing : Listing κ ν} {key : κ} {value : ν}
    (present : listing.get? key = some value) :
    ((key, value) :: (listing.erase key).entries).Perm listing.entries := by
  have same : ∀ wanted, (listing.insert key value).get? wanted = listing.get? wanted := by
    intro wanted
    rw [get?_insert]
    split
    · next here => rw [here, present]
    · rfl
  have moved := (listing.entries_insert_perm key value).symm.trans (entries_perm_of_get? same)
  exact (List.perm_append_singleton (key, value) (listing.erase key).entries).symm.trans moved

theorem length_erase {listing : Listing κ ν} {key : κ} {value : ν}
    (present : listing.get? key = some value) :
    (listing.erase key).entries.length + 1 = listing.entries.length :=
  (perm_cons_erase present).length_eq

/-! ## Losing entries -/

/-- Whether a listing has lost some entries of some kind, and nothing else has changed. -/
def Sheds (kind : ν → Prop) (before after : Listing κ ν) : Prop :=
  ∀ key, after.get? key = before.get? key ∨
    after.get? key = none ∧ ∃ value, before.get? key = some value ∧ kind value

namespace Sheds

variable {kind : ν → Prop} {before after : Listing κ ν}

theorem refl (listing : Listing κ ν) : Sheds kind listing listing :=
  fun _ => .inl rfl

theorem trans {last : Listing κ ν} (earlier : Sheds kind before after)
    (later : Sheds kind after last) : Sheds kind before last := by
  intro key
  rcases later key with same | ⟨gone, value, present, ofKind⟩
  · rw [same]
    exact earlier key
  · rcases earlier key with same | ⟨absent, _⟩
    · exact .inr ⟨gone, value, same.symm.trans present, ofKind⟩
    · rw [absent] at present
      cases present

theorem mono {other : ν → Prop} (sheds : Sheds kind before after)
    (wider : ∀ value, kind value → other value) : Sheds other before after := by
  intro key
  rcases sheds key with same | ⟨gone, value, present, ofKind⟩
  · exact .inl same
  · exact .inr ⟨gone, value, present, wider value ofKind⟩

/-- Removing an entry of the kind. -/
theorem erase {key : κ} {value : ν} (present : before.get? key = some value)
    (ofKind : kind value) : Sheds kind before (before.erase key) := by
  intro wanted
  rw [get?_erase]
  split
  · next here =>
    rw [here]
    exact .inr ⟨rfl, value, present, ofKind⟩
  · exact .inl rfl

/-- What is left was there before. -/
theorem get?_of_after (sheds : Sheds kind before after) {key : κ} {value : ν}
    (present : after.get? key = some value) : before.get? key = some value := by
  rcases sheds key with same | ⟨gone, _⟩
  · rw [← same]
    exact present
  · rw [gone] at present
    cases present

theorem length_le (sheds : Sheds kind before after) :
    after.entries.length ≤ before.entries.length := by
  apply List.Subperm.length_le
  apply List.subperm_of_subset (List.Nodup.of_map Prod.fst after.distinct)
  rintro ⟨key, value⟩ member
  exact get?_eq_some_iff.mp (sheds.get?_of_after (get?_eq_some_iff.mpr member))

/-- Everything may go only if everything is of the kind. -/
theorem of_empty (sheds : Sheds kind before .empty) {key : κ} {value : ν}
    (present : before.get? key = some value) : kind value := by
  rcases sheds key with same | ⟨_, other, held, ofKind⟩
  · rw [present] at same
    cases same
  · rw [present] at held
    cases held
    exact ofKind

/-- Losing what cannot be read is not seen by readers. -/
theorem get?_bind {read : ν → Option ω}
    (sheds : Sheds (fun value => read value = none) before after) (key : κ) :
    (after.get? key).bind read = (before.get? key).bind read := by
  rcases sheds key with same | ⟨gone, value, present, unreadable⟩
  · rw [same]
  · rw [gone, present, Option.bind_some, unreadable, Option.bind_none]

theorem filterMap_perm {read : ν → Option ω}
    (sheds : Sheds (fun value => read value = none) before after) :
    (after.filterMap read).entries.Perm (before.filterMap read).entries := by
  apply entries_perm_of_get?
  intro key
  rw [get?_filterMap, get?_filterMap, sheds.get?_bind]

end Sheds

/-! ## Taking an entry out -/

/-- What may be taken from a listing, and what is left of it: an entry that can be read, and
with it some that cannot be.  Nothing is returned only if nothing can be read, and then
nothing is left. -/
def Yields (read : ν → Option ω) (before : Listing κ ν) : Option (κ × ω) → Listing κ ν → Prop
  | none, after => Sheds (fun value => read value = none) before .empty ∧ after = .empty
  | some (key, value), after => ∃ left, Sheds (fun stored => read stored = none) before left ∧
    (left.get? key).bind read = some value ∧ after = left.erase key

namespace Yields

variable {read : ν → Option ω} {before after : Listing κ ν}

theorem of_empty {answer : Option (κ × ω)} (unreadable : ∀ key value,
    before.get? key = some value → read value = none) (yields : before.Yields read answer after) :
    answer = none := by
  rcases answer with _ | ⟨key, value⟩
  · rfl
  · rcases yields with ⟨left, sheds, reads, _⟩
    rcases Option.bind_eq_some_iff.mp reads with ⟨stored, present, readable⟩
    rw [unreadable key stored (sheds.get?_of_after present)] at readable
    cases readable

/-- What was shed before is shed with it. -/
theorem of_sheds {first : Listing κ ν} {answer : Option (κ × ω)}
    (sheds : Sheds (fun value => read value = none) first before)
    (yields : before.Yields read answer after) : first.Yields read answer after := by
  rcases answer with _ | ⟨key, value⟩
  · exact ⟨sheds.trans yields.1, yields.2⟩
  · rcases yields with ⟨left, later, taken⟩
    exact ⟨left, sheds.trans later, taken⟩

section Some

variable {key : κ} {value : ω}

/-- The entry that is returned is the one that was read before. -/
theorem get?_bind (yields : before.Yields read (some (key, value)) after) :
    (before.get? key).bind read = some value := by
  rcases yields with ⟨left, sheds, reads, _⟩
  rw [← sheds.get?_bind]
  exact reads

theorem get?_eq_none (yields : before.Yields read (some (key, value)) after) :
    after.get? key = none := by
  rcases yields with ⟨left, _, _, rfl⟩
  rw [get?_erase, if_pos rfl]

/-- All else is untouched, unless it could not be read. -/
theorem get?_of_ne (yields : before.Yields read (some (key, value)) after) {other : κ}
    (different : other ≠ key) : after.get? other = before.get? other ∨
      after.get? other = none ∧ ∃ stored, before.get? other = some stored ∧ read stored = none := by
  rcases yields with ⟨left, sheds, _, rfl⟩
  rw [get?_erase, if_neg different]
  exact sheds other

theorem length_lt (yields : before.Yields read (some (key, value)) after) :
    after.entries.length < before.entries.length := by
  rcases yields with ⟨left, sheds, reads, rfl⟩
  rcases Option.bind_eq_some_iff.mp reads with ⟨stored, present, _⟩
  have shorter := sheds.length_le
  have one := length_erase present
  omega

/-- The entries that can be read are the one that is returned and those that are left. -/
theorem perm (yields : before.Yields read (some (key, value)) after) :
    ((key, value) :: (after.filterMap read).entries).Perm (before.filterMap read).entries := by
  rcases yields with ⟨left, sheds, reads, rfl⟩
  have present : (left.filterMap read).get? key = some value := by
    rw [get?_filterMap]
    exact reads
  have same : ((left.erase key).filterMap read).entries.Perm
      ((left.filterMap read).erase key).entries := by
    apply entries_perm_of_get?
    intro wanted
    rw [get?_filterMap, get?_erase, get?_erase, get?_filterMap]
    split <;> rfl
  exact ((same.cons _).trans (perm_cons_erase present)).trans sheds.filterMap_perm

end Some

/-! ### Values that can all be read -/

theorem of_present {key : κ} {value : ν} (present : before.get? key = some value) :
    before.Yields some (some (key, value)) (before.erase key) := by
  refine ⟨before, Sheds.refl before, ?_, rfl⟩
  rw [present, Option.bind_some]

theorem of_nil (nothing : before.entries = []) :
    before.Yields (some : ν → Option ν) none .empty := by
  have empty : before = .empty := eq_of_entries nothing
  rw [empty]
  exact ⟨Sheds.refl _, rfl⟩

/-! ### Reading what was read once more -/

variable {μ : Type} {further : ω → Option μ}

theorem bind_none (yields : before.Yields read none after) :
    before.Yields (fun stored => (read stored).bind further) none after := by
  refine ⟨yields.1.mono fun value unreadable => ?_, yields.2⟩
  dsimp only
  rw [unreadable, Option.bind_none]

theorem bind_some {key : κ} {value : ω} {last : μ}
    (yields : before.Yields read (some (key, value)) after) (reads : further value = some last) :
    before.Yields (fun stored => (read stored).bind further) (some (key, last)) after := by
  rcases yields with ⟨left, sheds, found, taken⟩
  refine ⟨left, sheds.mono fun value unreadable => ?_, ?_, taken⟩
  · dsimp only
    rw [unreadable, Option.bind_none]
  · rw [← Option.bind_assoc, found, Option.bind_some, reads]

/-- If what is returned cannot be read any further, it is only shed. -/
theorem sheds_bind {key : κ} {value : ω} (yields : before.Yields read (some (key, value)) after)
    (unreadable : further value = none) :
    Sheds (fun stored => (read stored).bind further = none) before after := by
  rcases yields with ⟨left, sheds, found, rfl⟩
  rcases Option.bind_eq_some_iff.mp found with ⟨stored, present, reads⟩
  refine Sheds.trans (sheds.mono fun other nothing => ?_) (Sheds.erase present ?_)
  · rw [nothing, Option.bind_none]
  · rw [reads, Option.bind_some, unreadable]

end Yields

end Listing
end TypedStore
