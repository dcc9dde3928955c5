import TypedStore.Proofs.Contract.Mirror
import TypedStore.Proofs.Contract.Refinement
import TypedStore.Proofs.Lsm.Protection

/-!
# The log-structured engine is a finite map

The entries of an open handle mirror a map: the stored keys are spelled by the
codec, and the stored values open under the protection that the handle has at
that moment.  Sealing a value may change the protection, so what was stored
before has to stay open; that is what a consistent vault guarantees.

The count of a handle is right whenever its entries mirror a map.  It moves by
one with each insertion and removal, and the operations that look up a key
first are the ones that decide whether it moves.
-/

namespace TypedStore
namespace Lsm

variable {aead : Aead} {κ : Type} {codec : KeyCodec κ}

/-! ## What a handle stands for -/

/-- The map that a handle stands for. -/
inductive Represents (aead : Aead) (codec : KeyCodec κ) : Lsm → MapState κ Bytes → Prop where
  | closed {lsm : Lsm} (closed : lsm.closed = true) : Represents aead codec lsm none
  | opened {lsm : Lsm} {contents : Listing κ Bytes} (opened : lsm.closed = false)
    (consistent : lsm.protection.Consistent aead) (counted : lsm.count = lsm.entries.size)
    (mirrors : Mirrors codec.Spells
      (fun stored value => lsm.protection.unlock aead stored = .ok value)
      lsm.entries.entries contents) :
    Represents aead codec lsm (some contents)

/-- Looking a key up finds what is stored under its bytes, if that can be unlocked. -/
theorem load_of_writable {lsm : Lsm} (opened : lsm.closed = false) {key : κ} {bytes : Bytes}
    (writable : codec.bytes? key = some bytes) :
    lsm.load aead codec key = (lsm.entries.get? bytes).bind fun stored =>
      (lsm.protection.unlock aead stored).toOption := by
  rw [load, opened, writable]
  rfl

variable [DecidableEq κ]

theorem visible_perm {lsm : Lsm} {map : MapState κ Bytes}
    (represents : Represents aead codec lsm map) :
    (lsm.visible aead codec).Perm map.seen.entries := by
  cases represents with
  | closed closed =>
    rw [visible, if_pos closed]
    exact List.Perm.refl _
  | opened opened _ _ mirrors =>
    rw [visible, opened]
    apply mirrors.filterMap_perm
    rintro ⟨stored, sealed⟩ ⟨key, value⟩ spelled unlocked
    dsimp only at spelled unlocked
    rw [readEntry]
    dsimp only
    rw [spelled.key?, unlocked]
    rfl

/-- Nothing is stored for a key that cannot be written. -/
theorem load_eq {lsm : Lsm} {map : MapState κ Bytes} (represents : Represents aead codec lsm map)
    {key : κ} (faithful : codec.Faithful key) : lsm.load aead codec key = map.seen.get? key := by
  cases represents with
  | closed closed =>
    rw [load, if_pos closed]
    rfl
  | @opened contents opened _ _ mirrors =>
    rcases faithful.spelled_or with ⟨bytes, spelled⟩ | ⟨unwritable, unspelled⟩
    · have found := mirrors.find? KeyCodec.biUnique_spells spelled
      rw [load_of_writable opened spelled.bytes?, Tree.get?_eq_listing]
      apply bind_eq_of_rel found
      intro stored value unlocked
      rw [unlocked]
      rfl
    · rw [load, opened, unwritable]
      exact (mirrors.get?_eq_none unspelled).symm

/-- A value locked under a new protection, in place of the one of the same key. -/
theorem represents_insertStored {lsm : Lsm} {contents : Listing κ Bytes}
    (opened : lsm.closed = false)
    (counted : lsm.count = lsm.entries.size)
    (mirrors : Mirrors codec.Spells
      (fun stored value => lsm.protection.unlock aead stored = .ok value)
      lsm.entries.entries contents)
    {protection : Protection} (consistent : protection.Consistent aead)
    (kept : ∀ other plain, lsm.protection.unlock aead other = .ok plain →
      protection.unlock aead other = .ok plain)
    {key : κ} {bytes stored value : Bytes} (spelled : codec.Spells bytes key)
    (unlocked : protection.unlock aead stored = .ok value) :
    Represents aead codec ({ lsm with protection }.insertStored bytes stored)
      (some (contents.insert key value)) := by
  refine .opened opened consistent ?_ ?_
  · change (if (lsm.entries.get? bytes).isSome then lsm.count else lsm.count + 1) =
      ((lsm.entries.insert bytes stored).size : Int)
    rw [Tree.size_insert, counted]
    split <;> rfl
  · exact (mirrors.imp kept).insert KeyCodec.biUnique_spells spelled unlocked
      (lsm.entries.entries_insert_perm bytes stored)

theorem represents_store (sound : aead.Sound) {lsm : Lsm} {map : MapState κ Bytes}
    (represents : Represents aead codec lsm map) {key : κ} (known : codec.Restores key)
    (value : Bytes) (room : hasRoom (lsm.store aead codec key value)) :
    Represents aead codec (lsm.store aead codec key value) (map.map (·.insert key value)) := by
  rcases known with ⟨bytes, spelled⟩
  cases represents with
  | closed closed =>
    rw [store, if_pos closed]
    exact .closed closed
  | opened opened consistent counted mirrors =>
    have notClosed : ¬lsm.closed = true := by
      rw [opened]
      exact Bool.false_ne_true
    rw [store, if_neg notClosed, spelled.bytes?] at room ⊢
    dsimp only at room ⊢
    cases locked : lsm.protection.lock aead value with
    | mk result protection =>
      rw [locked] at room
      have within : (lsm.protection.lock aead value).2.ringSize < Vault.capacity := by
        rw [locked]
        cases result <;> exact room
      rcases consistent.lock sound value within with ⟨stored, made, unlocked, later, kept⟩
      rw [locked] at made unlocked later kept
      dsimp only at made
      subst made
      exact represents_insertStored opened counted mirrors later kept spelled unlocked

omit [DecidableEq κ] in
/-- A value to be inserted is sealed first.  What was sealed before still opens, also when
the key is there and the value is not inserted. -/
theorem exists_storeIfAbsent (sound : aead.Sound) {lsm : Lsm} (opened : lsm.closed = false)
    (consistent : lsm.protection.Consistent aead) {key : κ} {bytes : Bytes}
    (writable : codec.bytes? key = some bytes) {value : Bytes}
    (room : hasRoom (lsm.storeIfAbsent aead codec key value).2) :
    ∃ stored protection, protection.unlock aead stored = .ok value ∧
      protection.Consistent aead ∧
      (∀ other plain, lsm.protection.unlock aead other = .ok plain →
        protection.unlock aead other = .ok plain) ∧
      lsm.storeIfAbsent aead codec key value =
        if (lsm.entries.get? bytes).isSome then (false, { lsm with protection })
        else (true, { lsm with protection }.insertStored bytes stored) := by
  have notClosed : ¬lsm.closed = true := by
    rw [opened]
    exact Bool.false_ne_true
  rw [storeIfAbsent, if_neg notClosed, writable] at room ⊢
  dsimp only at room ⊢
  cases locked : lsm.protection.lock aead value with
  | mk result protection =>
    rw [locked] at room
    have within : (lsm.protection.lock aead value).2.ringSize < Vault.capacity := by
      rw [locked]
      cases result with
      | error fault => exact room
      | ok stored =>
        dsimp only at room
        split at room <;> exact room
    rcases consistent.lock sound value within with ⟨stored, made, unlocked, later, kept⟩
    rw [locked] at made unlocked later kept
    dsimp only at made
    subst made
    exact ⟨stored, protection, unlocked, later, kept, rfl⟩

theorem represents_storeIfAbsent (sound : aead.Sound) {lsm : Lsm} {map : MapState κ Bytes}
    (represents : Represents aead codec lsm map) {key : κ} (known : codec.Restores key)
    (value : Bytes) (room : hasRoom (lsm.storeIfAbsent aead codec key value).2) :
    Represents aead codec (lsm.storeIfAbsent aead codec key value).2
      (map.map (·.insertAbsent key value)) := by
  rcases known with ⟨bytes, spelled⟩
  cases represents with
  | closed closed =>
    rw [storeIfAbsent, if_pos closed]
    exact .closed closed
  | @opened contents opened consistent counted mirrors =>
    have found := mirrors.find? KeyCodec.biUnique_spells spelled
    rw [← Tree.get?_eq_listing] at found
    rcases exists_storeIfAbsent sound opened consistent spelled.bytes? room with
      ⟨stored, protection, unlocked, later, kept, answered⟩
    rw [answered, Option.map_some, Listing.insertAbsent, ← isSome_eq_of_rel found]
    by_cases present : (lsm.entries.get? bytes).isSome = true
    · rw [if_pos present, if_pos present]
      exact .opened opened later counted (mirrors.imp kept)
    · rw [if_neg present, if_neg present]
      exact represents_insertStored opened counted mirrors later kept spelled unlocked

/-! ## Removing entries -/

/-- A key for which nothing can be written is not in the map, and is passed over. -/
theorem mirrors_foldl_erase {opens : Bytes → Bytes → Prop} {tree : Tree}
    {contents : Listing κ Bytes} (mirrors : Mirrors codec.Spells opens tree.entries contents)
    {removed : List κ} (faithful : ∀ key ∈ removed, codec.Faithful key) :
    Mirrors codec.Spells opens ((removed.filterMap codec.bytes?).foldl Tree.erase tree).entries
      (contents.eraseAll removed) := by
  induction removed generalizing tree contents with
  | nil => exact mirrors
  | cons key rest hypothesis =>
    have others : ∀ other ∈ rest, codec.Faithful other :=
      fun other member => faithful other (List.mem_cons_of_mem _ member)
    rcases (faithful key List.mem_cons_self).spelled_or with
      ⟨bytes, spelled⟩ | ⟨unwritable, unspelled⟩
    · rw [List.filterMap_cons, spelled.bytes?, List.foldl_cons]
      exact hypothesis (mirrors.filter KeyCodec.biUnique_spells spelled) others
    · rw [List.filterMap_cons, unwritable, mirrors.eraseAll_cons_of_unspelled unspelled]
      exact hypothesis mirrors others

theorem represents_delete {lsm : Lsm} {map : MapState κ Bytes}
    (represents : Represents aead codec lsm map) {removed : List κ}
    (faithful : ∀ key ∈ removed, codec.Faithful key) :
    Represents aead codec (lsm.delete codec removed) (map.map (·.eraseAll removed)) := by
  cases represents with
  | closed closed =>
    rw [delete, if_pos closed]
    exact .closed closed
  | opened opened consistent counted mirrors =>
    rcases delete_spec codec opened counted removed with
      ⟨entries, stillCounted, protection, stillOpen⟩
    refine .opened stillOpen ?_ stillCounted ?_
    · rw [protection]
      exact consistent
    · rw [entries, protection]
      exact mirrors_foldl_erase mirrors faithful

/-! ## Taking the first entry -/

omit [DecidableEq κ] in
theorem next_of_nil {lsm : Lsm} (empty : lsm.entries.entries = []) :
    (lsm.next aead codec).1 = none ∧ (lsm.next aead codec).2 = lsm := by
  rcases lsm with ⟨⟨entries, ascending⟩, protection, compression, count, closed⟩
  dsimp only at empty
  subst empty
  cases closed with
  | true => exact ⟨rfl, rfl⟩
  | false =>
    have same : count - ((0 : Nat) : Int) = count := Int.sub_zero count
    refine ⟨rfl, ?_⟩
    change Lsm.mk _ protection compression (count - ((0 : Nat) : Int)) false = _
    rw [same]
    rfl

omit [DecidableEq κ] in
theorem next_of_cons {lsm : Lsm} (opened : lsm.closed = false) {row : Bytes × Bytes}
    {rest : List (Bytes × Bytes)} (first : lsm.entries.entries = row :: rest) {key : κ}
    {value : Bytes} (spelled : codec.Spells row.1 key)
    (unlocked : lsm.protection.unlock aead row.2 = .ok value) :
    (lsm.next aead codec).1 = some (key, value) ∧
      (lsm.next aead codec).2.entries.entries = rest ∧
      (lsm.next aead codec).2.count = lsm.count - 1 ∧
      (lsm.next aead codec).2.protection = lsm.protection ∧
      (lsm.next aead codec).2.closed = false := by
  have read : readEntry aead codec lsm.protection row = some (key, value) := by
    rw [readEntry, spelled.key?, unlocked]
    rfl
  have taken : popFrom aead codec lsm.protection lsm.entries.entries 0 =
      (some (key, value), 1) := by
    rw [first, popFrom, read]
  have stepped : lsm.next aead codec =
      (some (key, value), { lsm with
        entries := dropFirst lsm.entries 1, count := lsm.count - ((1 : Nat) : Int) }) := by
    rw [next, opened, taken]
    rfl
  rw [stepped]
  refine ⟨rfl, ?_, rfl, rfl, opened⟩
  change lsm.entries.entries.drop 1 = rest
  rw [first]
  rfl

theorem represents_next_some {lsm : Lsm} {map : MapState κ Bytes}
    (represents : Represents aead codec lsm map) {key : κ} {value : Bytes}
    (taken : (lsm.next aead codec).1 = some (key, value)) :
    map.seen.get? key = some value ∧
      Represents aead codec (lsm.next aead codec).2 (map.map (·.erase key)) := by
  cases represents with
  | closed closed =>
    rw [next, if_pos closed] at taken
    cases taken
  | @opened contents opened consistent counted mirrors =>
    cases rows : lsm.entries.entries with
    | nil =>
      rw [(next_of_nil rows).1] at taken
      cases taken
    | cons row rest =>
      rw [rows] at mirrors
      rcases mirrors.pop (List.Perm.refl _) with ⟨first, held, spelled, unlocked, present, left⟩
      rcases next_of_cons opened rows spelled unlocked with
        ⟨answer, entries, count, protection, open'⟩
      rw [answer] at taken
      cases taken
      refine ⟨present, .opened open' ?_ ?_ ?_⟩
      · rw [protection]
        exact consistent
      · rw [count, counted, Tree.size, Tree.size, rows, entries, List.length_cons]
        omega
      · rw [protection, entries]
        exact left

theorem represents_next_none {lsm : Lsm} {map : MapState κ Bytes}
    (represents : Represents aead codec lsm map) (nothing : (lsm.next aead codec).1 = none) :
    map.seen.entries = [] ∧ Represents aead codec (lsm.next aead codec).2 map := by
  cases represents with
  | closed closed =>
    rw [next, if_pos closed]
    exact ⟨rfl, .closed closed⟩
  | @opened contents opened consistent counted mirrors =>
    cases rows : lsm.entries.entries with
    | nil =>
      rw [(next_of_nil rows).2]
      exact ⟨mirrors.nil_iff.mp rows, .opened opened consistent counted mirrors⟩
    | cons row rest =>
      rw [rows] at mirrors
      rcases mirrors.pop (List.Perm.refl _) with ⟨first, held, spelled, unlocked, _, _⟩
      rw [(next_of_cons opened rows spelled unlocked).1] at nothing
      cases nothing

/-! ## The engine -/

theorem refines (sound : aead.Sound) :
    (Lsm.storage aead codec).Refines codec.Restores (fun _ => True) hasRoom
      (Represents aead codec) where
  load represents known := ⟨load_eq represents known.faithful, represents⟩
  store represents known _ room := represents_store sound represents known _ room
  storeIfAbsent represents known _ room := represents_storeIfAbsent sound represents known _ room
  delete represents known :=
    represents_delete represents fun key member => (known key member).faithful
  range := by
    intro lsm map α visit start represents
    exact ⟨⟨_, visible_perm represents, rfl⟩, represents⟩
  next_none represents nothing := represents_next_none represents nothing
  next_some represents taken := represents_next_some represents taken
  keys := by
    intro lsm map represents
    refine ⟨?_, represents⟩
    change (lsm.keys codec).Perm map.seen.keys
    cases represents with
    | closed closed =>
      rw [keys, if_pos closed]
      exact List.Perm.refl _
    | opened opened _ _ mirrors =>
      rw [keys, opened]
      exact mirrors.filterMap_keys_perm fun stored key spelled => spelled.key?
  len := by
    intro lsm map represents
    refine ⟨?_, represents⟩
    change lsm.len = _
    cases represents with
    | closed closed =>
      rw [len, if_pos closed]
      rfl
    | @opened contents opened _ counted mirrors =>
      rw [len, opened, counted]
      exact mirrors.length_eq
  clear := by
    intro lsm map represents
    change Represents aead codec lsm.clear _
    cases represents with
    | closed closed =>
      rw [clear, if_pos closed]
      exact .closed closed
    | opened opened consistent _ _ =>
      have notClosed : ¬lsm.closed = true := by
        rw [opened]
        exact Bool.false_ne_true
      rw [clear, if_neg notClosed]
      exact .opened opened consistent rfl Mirrors.empty
  close := by
    intro lsm map represents
    change lsm.close.1 = _ ∧ Represents aead codec lsm.close.2 none
    cases represents with
    | closed closed =>
      rw [close, if_pos closed]
      exact ⟨rfl, .closed closed⟩
    | opened opened _ _ _ =>
      rw [close, opened]
      exact ⟨rfl, .closed rfl⟩

omit [DecidableEq κ] in
/-- Operations never take data keys out of the ring. -/
theorem rooms : (Lsm.storage aead codec).Rooms hasRoom := by
  intro allowOverwrite op lsm room
  cases op with
  | store key value =>
    cases allowOverwrite with
    | true => exact Nat.lt_of_le_of_lt (lsm.ringSize_store_le key value) room
    | false => exact Nat.lt_of_le_of_lt (lsm.ringSize_storeIfAbsent_le key value) room
  | delete removed =>
    change (lsm.delete codec removed).protection.ringSize < Vault.capacity at room
    rw [protection_delete] at room
    exact room
  | pop key =>
    change (TypedMap.pop ⟨Lsm.storage aead codec, allowOverwrite⟩ key
      lsm).2.protection.ringSize < Vault.capacity at room
    simp only [TypedMap.pop, Lsm.storage] at room
    split at room
    · next loaded =>
      dsimp only at room
      rw [← (Prod.mk.inj loaded).2] at room
      exact room
    · next loaded =>
      dsimp only at room
      rw [protection_delete, ← (Prod.mk.inj loaded).2] at room
      exact room
  | next =>
    change (lsm.next aead codec).2.protection.ringSize < Vault.capacity at room
    rw [protection_next] at room
    exact room
  | clear =>
    change lsm.clear.protection.ringSize < Vault.capacity at room
    rw [clear] at room
    split at room <;> exact room
  | close =>
    change lsm.close.2.protection.ringSize < Vault.capacity at room
    rw [close] at room
    split at room <;> exact room
  | _ => exact room

/-! ## Opening -/

omit [DecidableEq κ] in
/-- A handle on a directory without entries and records stands for the empty map,
whether it seals values or not. -/
theorem represents_of_open (sound : aead.Sound) {options : LsmOptions} {compression : Bool}
    {outside : Surroundings} {lsm : Lsm}
    (opened : open? aead options { compression } outside = .ok lsm) :
    Represents aead codec lsm (some .empty) := by
  rcases open?_eq_ok_iff.mp opened with ⟨_, _, protection, chosen, rfl⟩
  refine .opened rfl ?_ rfl Mirrors.empty
  cases given : options.encryptionKey with
  | none =>
    rw [given] at chosen
    dsimp only at chosen
    rw [chosen]
    exact trivial
  | some key =>
    rw [given] at chosen
    rcases chosen with ⟨vault, vaultOpened, rfl⟩
    rcases Vault.load?_empty sound key options.keyRotation outside with
      ⟨fresh, loaded, consistent, _, _⟩
    have same := (Vault.open?_eq_ok_iff.mp vaultOpened).2.symm.trans loaded
    rw [Except.ok.inj same]
    exact consistent

end Lsm
end TypedStore
