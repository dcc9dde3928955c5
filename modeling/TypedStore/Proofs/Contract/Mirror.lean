import Mathlib.Data.List.Forall2
import TypedStore.Adapter
import TypedStore.Proofs.Listing.Entries

/-!
# Stored rows that mirror a map

An engine keeps rows: a stored key, spelled out from a key of the map, and a
stored value that can be opened to a value of the map.  `Mirrors` says that the
rows are those of a given map, each entry in one row, in whatever order the
engine keeps them.

Each change of the rows that engines make has one lemma here.  They ask for the
rows only up to their order, so that an engine that keeps them sorted and one
that appends have the same proof.
-/

namespace TypedStore

variable {ρ ω κ ν : Type}

/-- Whether rows are the entries of a map, up to their order. -/
def Mirrors (spells : ρ → κ → Prop) (opens : ω → ν → Prop) (rows : List (ρ × ω))
    (contents : Listing κ ν) : Prop :=
  ∃ order : List (κ × ν), order.Perm contents.entries ∧
    List.Forall₂ (fun row entry => spells row.1 entry.1 ∧ opens row.2 entry.2) rows order

theorem isSome_eq_of_rel {α β : Type} {relation : α → β → Prop} {first : Option α}
    {second : Option β} (related : Option.Rel relation first second) :
    first.isSome = second.isSome := by
  cases related <;> rfl

theorem eq_of_rel_eq {α : Type} {first second : Option α} (related : Option.Rel Eq first second) :
    first = second := by
  cases related with
  | none => rfl
  | some same => exact congrArg some same

theorem bind_eq_of_rel {α β : Type} {relation : α → β → Prop} {first : Option α}
    {second : Option β} (related : Option.Rel relation first second) {read : α → Option β}
    (reads : ∀ stored value, relation stored value → read stored = some value) :
    first.bind read = second := by
  cases related with
  | none => rfl
  | some both => exact reads _ _ both

namespace Mirrors

variable {spells : ρ → κ → Prop} {opens : ω → ν → Prop} {rows : List (ρ × ω)}
  {contents : Listing κ ν}

theorem empty : Mirrors spells opens [] (.empty : Listing κ ν) :=
  ⟨[], List.Perm.refl _, List.Forall₂.nil⟩

theorem length_eq (mirrors : Mirrors spells opens rows contents) :
    rows.length = contents.entries.length := by
  rcases mirrors with ⟨order, perm, pairs⟩
  rw [pairs.length_eq, perm.length_eq]

/-- What can be opened stays open when more can be. -/
theorem imp {later : ω → ν → Prop} (mirrors : Mirrors spells opens rows contents)
    (more : ∀ stored value, opens stored value → later stored value) :
    Mirrors spells later rows contents := by
  rcases mirrors with ⟨order, perm, pairs⟩
  exact ⟨order, perm, pairs.imp fun row entry both => ⟨both.1, more _ _ both.2⟩⟩

/-- The order of the rows does not matter. -/
theorem perm (mirrors : Mirrors spells opens rows contents) {other : List (ρ × ω)}
    (order : other.Perm rows) : Mirrors spells opens other contents := by
  rcases mirrors with ⟨entries, entriesPerm, pairs⟩
  rcases List.perm_comp_forall₂ order pairs with ⟨entries', pairs', perm'⟩
  exact ⟨entries', perm'.trans entriesPerm, pairs'⟩

/-- Reading every row gives the entries of the map. -/
theorem filterMap_perm (mirrors : Mirrors spells opens rows contents)
    {read : ρ × ω → Option (κ × ν)}
    (reads : ∀ row entry, spells row.1 entry.1 → opens row.2 entry.2 → read row = some entry) :
    (rows.filterMap read).Perm contents.entries := by
  rcases mirrors with ⟨order, perm, pairs⟩
  have same : rows.filterMap read = order := by
    clear perm
    induction pairs with
    | nil => rfl
    | cons both _ hypothesis =>
      rw [List.filterMap_cons, reads _ _ both.1 both.2]
      exact congrArg (_ :: ·) hypothesis
  rw [same]
  exact perm

/-- The same for keys alone, read off the stored keys. -/
theorem filterMap_keys_perm (mirrors : Mirrors spells opens rows contents)
    {read : ρ → Option κ} (reads : ∀ stored key, spells stored key → read stored = some key) :
    (rows.filterMap fun row => read row.1).Perm contents.keys := by
  rcases mirrors with ⟨order, perm, pairs⟩
  have same : (rows.filterMap fun row => read row.1) = order.map Prod.fst := by
    clear perm
    induction pairs with
    | nil => rfl
    | cons both _ hypothesis =>
      rw [List.filterMap_cons, reads _ _ both.1]
      exact congrArg (_ :: ·) hypothesis
  rw [same]
  exact perm.map Prod.fst

theorem exists_of_mem (mirrors : Mirrors spells opens rows contents) {row : ρ × ω}
    (member : row ∈ rows) : ∃ key value, spells row.1 key ∧ opens row.2 value ∧
      (key, value) ∈ contents.entries := by
  rcases mirrors with ⟨order, perm, pairs⟩
  rcases exists_of_forall₂ pairs member with ⟨⟨key, value⟩, listed, spelled, opened⟩
  exact ⟨key, value, spelled, opened, perm.mem_iff.mp listed⟩

theorem exists_row_of_mem (mirrors : Mirrors spells opens rows contents) {key : κ} {value : ν}
    (member : (key, value) ∈ contents.entries) : ∃ row ∈ rows, spells row.1 key ∧
      opens row.2 value := by
  rcases mirrors with ⟨order, perm, pairs⟩
  exact exists_of_forall₂ pairs.flip (perm.mem_iff.mpr member)

theorem nil_iff (mirrors : Mirrors spells opens rows contents) :
    rows = [] ↔ contents.entries = [] := by
  rw [← List.length_eq_zero_iff, mirrors.length_eq, List.length_eq_zero_iff]

section Changes

variable [DecidableEq κ]

/-- A key that no stored key spells is not in the map. -/
theorem get?_eq_none (mirrors : Mirrors spells opens rows contents) {key : κ}
    (unspelled : ∀ stored, ¬spells stored key) : contents.get? key = none := by
  apply Listing.find?_eq_none_iff.mpr
  intro listed
  rcases List.mem_map.mp listed with ⟨⟨other, value⟩, member, same⟩
  rcases mirrors.exists_row_of_mem member with ⟨row, _, spelled, _⟩
  rw [← same] at unspelled
  exact unspelled row.1 spelled

/-- A key of the map is spelled. -/
theorem exists_spelled (mirrors : Mirrors spells opens rows contents) {key : κ} {value : ν}
    (present : contents.get? key = some value) : ∃ stored, spells stored key := by
  by_contra none
  rw [mirrors.get?_eq_none (not_exists.mp none)] at present
  cases present

/-- Removing a key that no stored key spells changes nothing. -/
theorem eraseAll_cons_of_unspelled (mirrors : Mirrors spells opens rows contents) {key : κ}
    (unspelled : ∀ stored, ¬spells stored key) (rest : List κ) :
    contents.eraseAll (key :: rest) = contents.eraseAll rest := by
  change (contents.erase key).eraseAll rest = contents.eraseAll rest
  rw [Listing.erase_of_absent (mirrors.get?_eq_none unspelled)]

/-- Taking one row away takes its entry, which the map holds. -/
theorem pop (mirrors : Mirrors spells opens rows contents) {row : ρ × ω} {rest : List (ρ × ω)}
    (order : rows.Perm (row :: rest)) :
    ∃ key value, spells row.1 key ∧ opens row.2 value ∧ contents.get? key = some value ∧
      Mirrors spells opens rest (contents.erase key) := by
  rcases mirrors.perm order.symm with ⟨entries, perm, pairs⟩
  cases pairs with
  | @cons _ entry _ others both pairs =>
    rcases entry with ⟨key, value⟩
    have distinct : (((key, value) :: others).map Prod.fst).Nodup :=
      (perm.map Prod.fst).nodup_iff.mpr contents.distinct
    have absent : key ∉ others.map Prod.fst := (List.nodup_cons.mp distinct).1
    have dropped : decide (key ≠ key) = false := decide_eq_false fun different => different rfl
    have left : ((key, value) :: others).filter (fun entry => decide (entry.1 ≠ key)) = others := by
      rw [List.filter_cons, dropped, Listing.filter_of_absent absent]
      rfl
    refine ⟨key, value, both.1, both.2, ?_, others, ?_, pairs⟩
    · exact Listing.get?_of_mem (perm.mem_iff.mp List.mem_cons_self)
    · rw [← left]
      exact perm.filter _

variable [DecidableEq ρ]

/-- Looking a stored key up finds what the map holds under the key it spells. -/
theorem find? (mirrors : Mirrors spells opens rows contents) (unique : Relator.BiUnique spells)
    {stored : ρ} {key : κ} (spelled : spells stored key) :
    Option.Rel opens (Listing.find? stored rows) (contents.get? key) := by
  rcases mirrors with ⟨order, perm, pairs⟩
  have inOrder : contents.get? key = Listing.find? key order :=
    (Listing.find?_perm perm contents.distinct).symm
  rw [inOrder]
  clear perm inOrder
  induction pairs with
  | nil => exact Option.Rel.none
  | @cons row entry rows order both _ hypothesis =>
    rcases row with ⟨other, value⟩
    rcases entry with ⟨otherKey, held⟩
    rw [Listing.find?, Listing.find?]
    by_cases same : stored = other
    · have sameKey : key = otherKey := unique.2 spelled (by
        rw [same]
        exact both.1)
      rw [if_pos same, if_pos sameKey]
      exact Option.Rel.some both.2
    · have different : ¬key = otherKey := by
        intro equal
        apply same
        apply unique.1 spelled
        rw [equal]
        exact both.1
      rw [if_neg same, if_neg different]
      exact hypothesis

/-- Removing a stored key removes the key it spells. -/
theorem filter (mirrors : Mirrors spells opens rows contents) (unique : Relator.BiUnique spells)
    {stored : ρ} {key : κ} (spelled : spells stored key) :
    Mirrors spells opens (rows.filter fun row => decide (row.1 ≠ stored)) (contents.erase key) := by
  rcases mirrors with ⟨order, perm, pairs⟩
  refine ⟨order.filter fun entry => decide (entry.1 ≠ key), perm.filter _, ?_⟩
  refine List.rel_filter ?_ pairs
  intro row entry both
  dsimp only
  rw [decide_eq_true_eq, decide_eq_true_eq, not_iff_not]
  constructor
  · intro same
    apply unique.2 both.1
    rw [same]
    exact spelled
  · intro same
    apply unique.1 both.1
    rw [same]
    exact spelled

/-- Writing a row in place of the one of the same key puts the entry. -/
theorem insert (mirrors : Mirrors spells opens rows contents) (unique : Relator.BiUnique spells)
    {stored : ρ} {key : κ} {sealed : ω} {value : ν} (spelled : spells stored key)
    (opened : opens sealed value) {written : List (ρ × ω)}
    (order : written.Perm
      ((rows.filter fun row => decide (row.1 ≠ stored)) ++ [(stored, sealed)])) :
    Mirrors spells opens written (contents.insert key value) := by
  rcases mirrors.filter unique spelled with ⟨others, perm, pairs⟩
  have together : Mirrors spells opens
      ((rows.filter fun row => decide (row.1 ≠ stored)) ++ [(stored, sealed)])
      (contents.insert key value) := by
    refine ⟨others ++ [(key, value)], ?_, ?_⟩
    · exact (perm.append_right _).trans (contents.entries_insert_perm key value).symm
    · exact List.rel_append pairs (List.Forall₂.cons ⟨spelled, opened⟩ List.Forall₂.nil)
  exact together.perm order

end Changes

end Mirrors

/-! ## Keys spelled by a codec -/

namespace KeyCodec

variable (codec : KeyCodec κ)

/-- Whether bytes are what a key is written as, and read back as that key. -/
def Spells (bytes : Bytes) (key : κ) : Prop :=
  codec.encode key = .ok bytes ∧ codec.decode bytes = .ok key

/-- Whether a key can be written and comes back. -/
def Restores (key : κ) : Prop :=
  ∃ bytes, codec.Spells bytes key

/-- Whether a key comes back whenever it can be written. -/
def Faithful (key : κ) : Prop :=
  ∀ bytes, codec.encode key = .ok bytes → codec.decode bytes = .ok key

variable {codec}

theorem biUnique_spells : Relator.BiUnique codec.Spells := by
  constructor
  · intro first key second firstSpells secondSpells
    have same := firstSpells.1.symm.trans secondSpells.1
    exact Except.ok.inj same
  · intro bytes first second firstSpells secondSpells
    have same := firstSpells.2.symm.trans secondSpells.2
    exact Except.ok.inj same

theorem Spells.bytes? {bytes : Bytes} {key : κ} (spelled : codec.Spells bytes key) :
    codec.bytes? key = some bytes := by
  rw [KeyCodec.bytes?, spelled.1]
  rfl

theorem Spells.key? {bytes : Bytes} {key : κ} (spelled : codec.Spells bytes key) :
    codec.key? bytes = some key := by
  rw [KeyCodec.key?, spelled.2]
  rfl

theorem Restores.faithful {key : κ} (known : codec.Restores key) : codec.Faithful key := by
  rcases known with ⟨bytes, spelled⟩
  intro other written
  rw [Except.ok.inj (written.symm.trans spelled.1)]
  exact spelled.2

/-- A key that comes back whenever it can be written is spelled, or nothing can be written
for it. -/
theorem Faithful.spelled_or {key : κ} (faithful : codec.Faithful key) :
    (∃ bytes, codec.Spells bytes key) ∨
      codec.bytes? key = none ∧ ∀ bytes, ¬codec.Spells bytes key := by
  cases written : codec.encode key with
  | ok bytes => exact .inl ⟨bytes, written, faithful bytes written⟩
  | error fault =>
    refine .inr ⟨?_, ?_⟩
    · rw [KeyCodec.bytes?, written]
      rfl
    · intro bytes spelled
      have both := spelled.1.symm.trans written
      cases both

end KeyCodec
end TypedStore
