import TypedStore.Proofs.Contract.Memory
import TypedStore.Proofs.Migration.Copies

/-!
# Renaming in a migration

Renaming moves keys that begin with the source prefix and leaves all others where
they are, so a moved key may come to a place that is taken: old prefix and rest
become new prefix and rest, and an entry may be there under that very key.  This
is the only way in which two keys meet.  Then one of the two entries stays in the
target, though both are counted.

Nothing else is lost.  The target has one entry for each new key, and every entry
that meets no other is found under its new key.
-/

namespace TypedStore

theorem afterStart?_eq_some {start characters rest : List Char} :
    afterStart? start characters = some rest ↔ characters = start ++ rest := by
  induction start generalizing characters with
  | nil => exact ⟨Option.some.inj, congrArg some⟩
  | cons wanted start hypothesis =>
    cases characters with
    | nil => exact iff_of_false nofun nofun
    | cons character characters =>
      rw [afterStart?, List.cons_append, List.cons.injEq]
      by_cases same : wanted = character
      · rw [if_pos same, hypothesis]
        exact ⟨fun equal => ⟨same.symm, equal⟩, fun both => both.2⟩
      · rw [if_neg same]
        exact iff_of_false nofun fun both => same both.1.symm

namespace MigrationSettings

variable (settings : MigrationSettings)

/-- Whether renaming moves a key that consists of the source prefix and a rest. -/
structure Moves (rest : String) : Prop where
  source : settings.sourcePrefix ≠ ""
  target : settings.targetPrefix ≠ ""
  rest : rest ≠ ""

/-- Whether a key is moved onto another one that stays. -/
structure Collides (moved kept : String) : Prop where
  different : moved ≠ kept
  shape : ∃ rest, settings.Moves rest ∧ moved = settings.sourcePrefix ++ rest ∧
    kept = settings.targetPrefix ++ rest
  stays : settings.rename kept = kept

variable {settings}

theorem rename_of_moves {rest : String} (moves : settings.Moves rest) :
    settings.rename (settings.sourcePrefix ++ rest) = settings.targetPrefix ++ rest := by
  have after : afterStart? settings.sourcePrefix.toList
      (settings.sourcePrefix ++ rest).toList = some rest.toList :=
    afterStart?_eq_some.mpr String.toList_append
  have fromSource : settings.sourcePrefix.isEmpty = false :=
    Bool.eq_false_iff.mpr fun empty => moves.source (String.isEmpty_iff.mp empty)
  have toTarget : settings.targetPrefix.isEmpty = false :=
    Bool.eq_false_iff.mpr fun empty => moves.target (String.isEmpty_iff.mp empty)
  rw [rename, renameKey, fromSource, toTarget, Bool.or_self, if_neg Bool.false_ne_true, after]
  cases characters : rest.toList with
  | nil => exact absurd (String.toList_eq_nil_iff.mp characters) moves.rest
  | cons first others =>
    dsimp only
    rw [← characters, String.ofList_toList]

/-- A key is moved, or it stays. -/
theorem rename_cases (key : String) :
    settings.rename key = key ∨ ∃ rest, settings.Moves rest ∧
      key = settings.sourcePrefix ++ rest := by
  rw [rename, renameKey]
  split
  · exact .inl rfl
  · next both =>
    rw [Bool.or_eq_true, not_or] at both
    split
    · exact .inl rfl
    · exact .inl rfl
    · next rest notNil after =>
      refine .inr ⟨String.ofList rest, ⟨?_, ?_, ?_⟩, ?_⟩
      · exact fun empty => both.1 (String.isEmpty_iff.mpr empty)
      · exact fun empty => both.2 (String.isEmpty_iff.mpr empty)
      · intro empty
        apply notNil
        have noCharacters := congrArg String.toList empty
        rw [String.toList_ofList] at noCharacters
        exact noCharacters
      · apply String.toList_inj.mp
        rw [String.toList_append, String.toList_ofList]
        exact afterStart?_eq_some.mp after

theorem Collides.rename_eq {moved kept : String} (collides : settings.Collides moved kept) :
    settings.rename moved = settings.rename kept := by
  rcases collides.shape with ⟨rest, moves, fromHere, toThere⟩
  rw [collides.stays, fromHere, rename_of_moves moves, toThere]

theorem collides_of_rename_eq {moved kept rest : String} (different : moved ≠ kept)
    (moves : settings.Moves rest) (fromHere : moved = settings.sourcePrefix ++ rest)
    (stays : settings.rename kept = kept) (same : settings.rename moved = settings.rename kept) :
    settings.Collides moved kept := by
  rw [stays, fromHere, rename_of_moves moves] at same
  exact ⟨different, ⟨rest, moves, fromHere, same.symm⟩, stays⟩

/-- Two keys come to the same place exactly when one is moved onto the other. -/
theorem rename_eq_iff {first second : String} (different : first ≠ second) :
    settings.rename first = settings.rename second ↔
      settings.Collides first second ∨ settings.Collides second first := by
  constructor
  · intro same
    rcases rename_cases first with stays | ⟨rest, moves, fromHere⟩
    · rcases rename_cases second with alsoStays | ⟨rest, moves, fromHere⟩
      · exact absurd (stays.symm.trans (same.trans alsoStays)) different
      · exact .inr (collides_of_rename_eq different.symm moves fromHere stays same.symm)
    · rcases rename_cases second with stays | ⟨other, alsoMoves, alsoFromHere⟩
      · exact .inl (collides_of_rename_eq different moves fromHere stays same)
      · rw [fromHere, alsoFromHere, rename_of_moves moves, rename_of_moves alsoMoves,
          String.append_right_inj] at same
        rw [fromHere, alsoFromHere, same] at different
        exact absurd rfl different
  · rintro (collides | collides)
    · exact collides.rename_eq
    · exact collides.rename_eq.symm

end MigrationSettings

namespace Migration

variable {σ ν : Type} {settings : MigrationSettings} {allowOverwrite : Bool}

/-- An entry that meets no other stays. -/
theorem winner_of_alone {entries : List (String × ν)} (distinct : (entries.map Prod.fst).Nodup)
    {key : String} {value : ν} (member : (key, value) ∈ entries)
    (selected : settings.selects key = true)
    (alone : ∀ other ∈ entries.map Prod.fst, settings.selects other = true →
      ¬settings.Collides key other ∧ ¬settings.Collides other key) :
    winner settings allowOverwrite entries (settings.rename key) = some value := by
  have present : (winner settings allowOverwrite entries (settings.rename key)).isSome = true :=
    isSome_winner_iff.mpr
      (mem_newKeys.mpr ⟨key, List.mem_map_of_mem member, selected, rfl⟩)
  rcases Option.isSome_iff_exists.mp present with ⟨found, won⟩
  rcases exists_of_winner won with ⟨other, there, otherSelected, same⟩
  have own : other = key := by
    by_contra different
    have apart := alone other (List.mem_map_of_mem there) otherSelected
    exact ((MigrationSettings.rename_eq_iff different).mp same).elim apart.2 apart.1
  rw [own] at there
  have held := (Listing.find?_of_mem distinct there).symm.trans
    (Listing.find?_of_mem distinct member)
  rw [won, held]

theorem length_dedup_eq_iff {α : Type} [DecidableEq α] {items : List α} :
    items.dedup.length = items.length ↔ items.Nodup := by
  rw [← List.dedup_eq_self]
  exact ⟨(List.dedup_sublist items).eq_of_length, congrArg List.length⟩

/-- The new keys are distinct exactly when no selected key is moved onto another
one. -/
theorem nodup_renamed_iff {keys : List String} (distinct : keys.Nodup) :
    (newKeys settings keys).Nodup ↔
      ∀ moved ∈ keys, ∀ kept ∈ keys, settings.selects moved = true →
        settings.selects kept = true → ¬settings.Collides moved kept := by
  rw [newKeys, List.nodup_map_iff_inj_on (distinct.filter _)]
  constructor
  · intro injective moved movedListed kept keptListed movedSelected keptSelected collides
    exact collides.different (injective moved (List.mem_filter.mpr ⟨movedListed, movedSelected⟩)
      kept (List.mem_filter.mpr ⟨keptListed, keptSelected⟩) collides.rename_eq)
  · intro apart first firstListed second secondListed same
    rcases List.mem_filter.mp firstListed with ⟨firstThere, firstSelected⟩
    rcases List.mem_filter.mp secondListed with ⟨secondThere, secondSelected⟩
    by_contra different
    rcases (MigrationSettings.rename_eq_iff different).mp same with collides | collides
    · exact apart first firstThere second secondThere firstSelected secondSelected collides
    · exact apart second secondThere first firstThere secondSelected firstSelected collides

/-- Two keys come to the same place exactly when one is moved onto the other.  A run
in time between two maps, into an empty target that accepts what it is given,
counts every selected entry as migrated and reports no fault.  The target
then has one entry for each new key, so as many as were counted exactly when no
selected key is moved onto another one.  An entry that meets no other is found
under its new key with its own value; where entries meet, the last in the order
of the walk is found there, or the first if the target denies overwriting. -/
theorem renaming_loses_only_collisions {source target : TypedMap σ String ν} {verify : Bool}
    {knownThere known : String → Prop} {storableThere storable : ν → Prop}
    {safeThere safe : σ → Prop} {representsThere represents : σ → MapState String ν → Prop}
    (readable : source.storage.Refines knownThere storableThere safeThere representsThere)
    (refines : target.storage.Refines known storable safe represents)
    (rooms : target.storage.Rooms safe) {clock later : Source Nat} {state after : σ}
    {stats : MigrationStats} {contents : Listing String ν}
    (full : representsThere state (some contents))
    (empty : represents (source.storage.entries state).2 (some .empty))
    (accepted : ∀ entry ∈ contents.entries, Accepted settings known storable entry)
    (ran : run source (some target) settings verify clock state = some (stats, later, after))
    (room : safe after) (inTime : stats.timedOut = false) :
    (∀ first second, first ≠ second →
        (settings.rename first = settings.rename second ↔
          settings.Collides first second ∨ settings.Collides second first)) ∧
      stats.errors = [] ∧
      stats.migrated = (newKeys settings contents.keys).length ∧
      (target.len after).1 = (newKeys settings contents.keys).dedup.length ∧
      ((target.len after).1 = stats.migrated ↔
        ∀ moved ∈ contents.keys, ∀ kept ∈ contents.keys, settings.selects moved = true →
          settings.selects kept = true → ¬settings.Collides moved kept) ∧
      (∀ key value, contents.get? key = some value → settings.selects key = true →
        (∀ other ∈ contents.keys, settings.selects other = true →
          ¬settings.Collides key other ∧ ¬settings.Collides other key) →
        (target.load (settings.rename key) after).1 = some value) ∧
      ∀ wanted, known wanted → (target.load wanted after).1 =
        winner settings target.allowOverwrite (source.storage.entries state).1 wanted := by
  have order := (readable.entries full).1
  have acceptedHere : ∀ entry ∈ (source.storage.entries state).1,
      Accepted settings known storable entry :=
    fun entry member => accepted entry (order.mem_iff.mp member)
  rcases run_accepted refines rooms empty acceptedHere ran room inTime with
    ⟨errors, migrated, holds⟩
  have keys : (newKeys settings ((source.storage.entries state).1.map Prod.fst)).Perm
      (newKeys settings contents.keys) := ((order.map Prod.fst).filter _).map _
  have counted : stats.migrated = (newKeys settings contents.keys).length :=
    migrated.trans keys.length_eq
  have length : (target.len after).1 = (newKeys settings contents.keys).dedup.length := by
    rw [← keys.dedup.length_eq]
    exact (refines.len holds).1.trans (length_foldl_empty _)
  have found : ∀ wanted, known wanted → (target.load wanted after).1 =
      winner settings target.allowOverwrite (source.storage.entries state).1 wanted := by
    intro wanted isKnown
    exact (refines.load holds isKnown).1.trans (get?_foldl_empty _ wanted)
  refine ⟨fun _ _ => MigrationSettings.rename_eq_iff, errors, counted, length, ?_, ?_, found⟩
  · rw [length, counted, length_dedup_eq_iff]
    exact nodup_renamed_iff contents.distinct
  · intro key value held selected alone
    have member : (key, value) ∈ (source.storage.entries state).1 :=
      order.mem_iff.mpr (Listing.mem_of_find? held)
    rw [found _ (acceptedHere _ member selected).1]
    apply winner_of_alone ((order.map Prod.fst).nodup_iff.mpr contents.distinct) member selected
    intro other listed
    exact alone other ((order.map Prod.fst).mem_iff.mp listed)

/-! ## Two stores in memory -/

/-- The first of two stores in memory. -/
def firstOfTwo : TypedMap (Memory String DynValue × Memory String DynValue) String DynValue :=
  ⟨Memory.storage.within Prod.fst fun both memory => (memory, both.2), true⟩

/-- The second of two stores in memory. -/
def secondOfTwo : TypedMap (Memory String DynValue × Memory String DynValue) String DynValue :=
  ⟨Memory.storage.within Prod.snd fun both memory => (both.1, memory), true⟩

theorem firstOfTwo_refines : firstOfTwo.storage.Refines (fun _ => True) (fun _ => True)
    (fun _ => True) fun both map => map = both.1.mapState :=
  Memory.refines.within Prod.fst (fun both memory => (memory, both.2)) fun _ _ => rfl

theorem secondOfTwo_refines : secondOfTwo.storage.Refines (fun _ => True) (fun _ => True)
    (fun _ => True) fun both map => map = both.2.mapState :=
  Memory.refines.within Prod.snd (fun both memory => (both.1, memory)) fun _ _ => rfl

/-- Settings by which the old prefix becomes the new one. -/
def oldToNew : MigrationSettings where
  sourcePrefix := "old_"
  targetPrefix := "new_"

/-- A text as a dynamic value. -/
def dynText (text : String) : DynValue := .typed .text (.text text)

/-- An old key and a plain one. -/
def oldAndPlain : Listing String DynValue :=
  ⟨[("old_a", dynText "first"), ("plain", dynText "second")], by decide⟩

/-- An old key and a new one with the same rest. -/
def oldAndNew : Listing String DynValue :=
  ⟨[("old_a", dynText "first"), ("new_a", dynText "second")], by decide⟩

/-- Keys that do not meet arrive, each with its own value. -/
theorem old_and_plain_arrive :
    ∃ stats later after, run firstOfTwo (some secondOfTwo) oldToNew true (.constant 0)
        (⟨oldAndPlain, false⟩, .empty) = some (stats, later, after) ∧
      (secondOfTwo.len after).1 = stats.migrated ∧
      (secondOfTwo.load "new_a" after).1 = some (dynText "first") := by
  refine ⟨_, _, _, rfl, ?_⟩
  have full : (⟨oldAndPlain, false⟩ : Memory String DynValue).mapState = some oldAndPlain := rfl
  have arrived := renaming_loses_only_collisions firstOfTwo_refines secondOfTwo_refines
    (secondOfTwo.storage.rooms_of_forall fun _ => trivial) full.symm rfl
    (fun _ _ _ => ⟨trivial, trivial⟩)
    (rfl : run firstOfTwo (some secondOfTwo) oldToNew true (.constant 0)
        (⟨oldAndPlain, false⟩, .empty) = some _) trivial rfl
  have apart : ∀ moved ∈ oldAndPlain.keys, ∀ kept ∈ oldAndPlain.keys,
      ¬oldToNew.Collides moved kept := by
    have distinct : ∀ moved ∈ oldAndPlain.keys, ∀ kept ∈ oldAndPlain.keys, moved ≠ kept →
        oldToNew.rename moved ≠ oldToNew.rename kept := by
      decide +kernel
    intro moved movedListed kept keptListed collides
    exact distinct moved movedListed kept keptListed collides.different collides.rename_eq
  have listed : "old_a" ∈ oldAndPlain.keys := List.mem_cons_self
  constructor
  · exact arrived.2.2.2.2.1.mpr fun moved there kept here _ _ => apart moved there kept here
  · exact arrived.2.2.2.2.2.1 "old_a" _ rfl rfl fun other there _ =>
      ⟨apart _ listed other there, apart other there _ listed⟩

/-- A run that ends in time and without faults counts both entries and leaves the
target with one of them. -/
theorem old_is_lost_on_new :
    ∃ stats later after, run firstOfTwo (some secondOfTwo) oldToNew true (.constant 0)
        (⟨oldAndNew, false⟩, .empty) = some (stats, later, after) ∧
      stats.errors = [] ∧ stats.timedOut = false ∧ stats.migrated = 2 ∧
      (secondOfTwo.len after).1 = 1 ∧
      (firstOfTwo.load "old_a" after).1 = some (dynText "first") ∧
      (secondOfTwo.load (oldToNew.rename "old_a") after).1 = some (dynText "second") :=
  ⟨_, _, _, rfl, by decide +kernel⟩

end Migration
end TypedStore
