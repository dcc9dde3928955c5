import TypedStore.Memory
import TypedStore.Proofs.Contract.Exposure
import TypedStore.Proofs.Contract.Lsm
import TypedStore.Proofs.Contract.Memory
import TypedStore.Proofs.Contract.Redis
import TypedStore.Proofs.Contract.Sqlite
import TypedStore.Proofs.Redis.Visits

/-!
# What engines hold

`Contains` says of an open handle which payloads its engine keeps and under which keys.  For the
engines that encode keys these are keys that come back whenever they can be written.  About
the payloads nothing is said: they are any bytes, and under a sealing log-structured engine
those bytes need not be anything that its vault has sealed.

Whatever it holds, an engine exposes it and hands it out.  Only the log-structured engine
reads what it keeps, and so it is the only one whose own `next` passes over entries.
-/

namespace TypedStore

variable {κ : Type} [DecidableEq κ]

/-! ## Memory -/

namespace Memory

/-- Whether an open store in memory holds these payloads. -/
def Contains (memory : Memory κ Bytes) (contents : Listing κ Bytes) : Prop :=
  memory = ⟨contents, false⟩

theorem walksEntries : (Memory.storage : Storage (Memory κ Bytes) κ Bytes).WalksEntries :=
  .of_order visible fun _ _ _ _ => rfl

theorem exposes : (Memory.storage : Storage (Memory κ Bytes) κ Bytes).Exposes (fun _ => True)
    (fun _ => some) Contains where
  known_of_held _ _ := trivial
  load := by
    rintro _ contents key rfl -
    exact (Option.bind_fun_some _).symm
  entries := by
    rintro _ contents rfl
    rw [Listing.filterMap_some]
    exact List.Perm.of_eq (Storage.entries_of_order visible (fun _ _ _ _ => rfl) _)
  keys := by
    rintro _ contents rfl
    exact List.Perm.refl _

theorem handsOut : (Memory.storage : Storage (Memory κ Bytes) κ Bytes).HandsOut (fun _ => some)
    Contains where
  next := by
    rintro _ ⟨entries, distinct⟩ rfl
    cases entries with
    | nil => exact ⟨.empty, .of_nil rfl, rfl, rfl⟩
    | cons entry rest =>
      rcases entry with ⟨key, value⟩
      refine ⟨_, .of_present (Listing.get?_of_mem List.mem_cons_self), ?_, rfl⟩
      have taken : (⟨(key, value) :: rest, distinct⟩ : Listing κ Bytes).takeFirst.2 =
          (⟨(key, value) :: rest, distinct⟩ : Listing κ Bytes).erase key := takeFirst_of_cons rfl
      exact congrArg (Memory.mk · false) taken
  size := by
    rintro _ contents rfl
    exact Nat.le_refl _

end Memory

variable {codec : KeyCodec κ}

/-! ## The log-structured engine -/

namespace Lsm

/-- Whether an open handle keeps these bytes. -/
structure Contains (codec : KeyCodec κ) (lsm : Lsm) (contents : Listing κ Bytes) : Prop where
  opened : lsm.closed = false
  mirrors : Mirrors codec.Spells Eq lsm.entries.entries contents

/-- What a handle reads of the bytes that it keeps. -/
def reads (aead : Aead) (lsm : Lsm) (stored : Bytes) : Option Bytes :=
  (lsm.protection.unlock aead stored).toOption

variable {aead : Aead} {lsm : Lsm} {contents : Listing κ Bytes}

omit [DecidableEq κ] in
theorem walksEntries : (Lsm.storage aead codec).WalksEntries :=
  .of_order (visible aead codec) fun _ _ _ _ => rfl

omit [DecidableEq κ] in
theorem readEntry_eq {protection : Protection} {row : Bytes × Bytes} {key : κ}
    (spelled : codec.Spells row.1 key) : readEntry aead codec protection row =
      (protection.unlock aead row.2).toOption.map fun value => (key, value) := by
  rw [readEntry, spelled.key?]
  cases (protection.unlock aead row.2).toOption <;> rfl

omit [DecidableEq κ] in
/-- Reading the rows gives the entries that can be read. -/
theorem filterMap_readEntry_perm (protection : Protection) {rows : List (Bytes × Bytes)}
    (mirrors : Mirrors codec.Spells Eq rows contents) :
    (rows.filterMap (readEntry aead codec protection)).Perm
      (contents.filterMap fun stored => (protection.unlock aead stored).toOption).entries := by
  rcases mirrors with ⟨order, perm, pairs⟩
  have same : rows.filterMap (readEntry aead codec protection) =
      Listing.readEntries (fun stored => (protection.unlock aead stored).toOption) order := by
    clear perm
    induction pairs with
    | nil => rfl
    | @cons row entry _ _ both _ hypothesis =>
      rw [List.filterMap_cons, readEntry_eq both.1, both.2, hypothesis]
      rfl
  rw [same]
  exact perm.filterMap _

/-- Rows are taken from the front up to and with the first one that can be read. -/
theorem popFrom_yields (aead : Aead) (protection : Protection) {rows : List (Bytes × Bytes)}
    {contents : Listing κ Bytes} (mirrors : Mirrors codec.Spells Eq rows contents) (taken : Nat) :
    ∃ passed left, (popFrom aead codec protection rows taken).2 = taken + passed ∧
      Mirrors codec.Spells Eq (rows.drop passed) left ∧
      contents.Yields (fun stored => (protection.unlock aead stored).toOption)
        (popFrom aead codec protection rows taken).1 left := by
  induction rows generalizing contents taken with
  | nil =>
    have empty : contents = .empty := Listing.eq_of_entries (mirrors.nil_iff.mp rfl)
    rw [empty]
    exact ⟨0, .empty, rfl, Mirrors.empty, Listing.Sheds.refl _, rfl⟩
  | cons row rest hypothesis =>
    rcases mirrors.pop (List.Perm.refl _) with ⟨key, stored, spelled, same, present, left⟩
    rw [popFrom, readEntry_eq spelled, same]
    cases unlocked : (protection.unlock aead stored).toOption with
    | some value =>
      refine ⟨1, contents.erase key, rfl, left, contents, Listing.Sheds.refl _, ?_, rfl⟩
      rw [present, Option.bind_some, unlocked]
    | none =>
      -- The row is passed over, so its entry is shed before the next one is looked at.
      rcases hypothesis left (taken + 1) with ⟨passed, last, count, mirrorsLast, yields⟩
      refine ⟨passed + 1, last, ?_, mirrorsLast, .of_sheds (.erase present unlocked) yields⟩
      change (popFrom aead codec protection rest (taken + 1)).2 = taken + (passed + 1)
      rw [count]
      omega

omit [DecidableEq κ] in
theorem Contains.notClosed (held : lsm.Contains codec contents) : ¬lsm.closed = true := by
  rw [held.opened]
  exact Bool.false_ne_true

theorem Contains.next (held : lsm.Contains codec contents) (aead : Aead) :
    ∃ after, contents.Yields (lsm.reads aead) (lsm.next aead codec).1 after ∧
      (lsm.next aead codec).2.Contains codec after := by
  rcases popFrom_yields aead lsm.protection held.mirrors 0 with
    ⟨passed, left, count, mirrors, yields⟩
  rw [Nat.zero_add] at count
  rw [Lsm.next, if_neg held.notClosed]
  refine ⟨left, yields, held.opened, ?_⟩
  dsimp only
  rw [count]
  exact mirrors

theorem exposes : (Lsm.storage aead codec).Exposes codec.Faithful (reads aead)
    (Contains codec) where
  known_of_held held present :=
    KeyCodec.Restores.faithful (held.mirrors.exists_spelled present)
  load := by
    intro lsm contents key held faithful
    change lsm.load aead codec key = _
    rcases faithful.spelled_or with ⟨bytes, spelled⟩ | ⟨unwritable, unspelled⟩
    · have found := eq_of_rel_eq (held.mirrors.find? KeyCodec.biUnique_spells spelled)
      rw [load_of_writable held.opened spelled.bytes?, Tree.get?_eq_listing, found]
      rfl
    · rw [load, held.opened, unwritable, held.mirrors.get?_eq_none unspelled]
      rfl
  entries := by
    intro lsm contents held
    have same : ((Lsm.storage aead codec).entries lsm).1 = lsm.visible aead codec :=
      Storage.entries_of_order _ (fun _ _ _ _ => rfl) lsm
    rw [same, visible, if_neg held.notClosed]
    exact filterMap_readEntry_perm lsm.protection held.mirrors
  keys := by
    intro lsm contents held
    change (lsm.keys codec).Perm contents.keys
    rw [Lsm.keys, held.opened]
    exact held.mirrors.filterMap_keys_perm fun stored key spelled => spelled.key?

theorem handsOut : (Lsm.storage aead codec).HandsOut (reads aead) (Contains codec) where
  next := by
    intro lsm contents held
    rcases held.next aead with ⟨after, yields, heldAfter⟩
    refine ⟨after, yields, heldAfter, ?_⟩
    funext stored
    change ((lsm.next aead codec).2.protection.unlock aead stored).toOption = _
    rw [protection_next]
    rfl
  size held := Nat.le_of_eq held.mirrors.length_eq.symm

end Lsm

/-! ## The table engine -/

namespace Sqlite

/-- Whether an open handle works on a table of these payloads.  What it remembers of the
number of rows does not matter. -/
structure Contains (codec : KeyCodec κ) (state : State) (contents : Listing κ Bytes) : Prop where
  opened : state.2.closed = false
  mirrors : Mirrors (SpellsCell codec) HoldsCell state.1.rows contents

omit [DecidableEq κ] in
theorem walksEntries : (Sqlite.storage codec).WalksEntries :=
  .of_order (visible codec) fun _ _ _ _ => rfl

omit [DecidableEq κ] in
theorem Represents.contains {state : State} {contents : Listing κ Bytes}
    (represents : Represents codec state (some contents)) : Contains codec state contents := by
  cases represents with
  | opened opened _ mirrors => exact ⟨opened, mirrors⟩

omit [DecidableEq κ] in
/-- Forgetting the number of rows, the handle stands for the map. -/
theorem Contains.represents {state : State} {contents : Listing κ Bytes}
    (held : Contains codec state contents) :
    Represents codec (state.1, state.2.forget) (some contents) :=
  represents_forget held.opened held.mirrors

theorem exposes : (Sqlite.storage codec).Exposes codec.Faithful (fun _ => some)
    (Contains codec) where
  known_of_held := by
    intro state contents key stored held present
    rcases held.mirrors.exists_spelled present with ⟨cell, bytes, _, spelled⟩
    exact KeyCodec.Restores.faithful ⟨bytes, spelled⟩
  load := by
    intro state contents key held faithful
    rw [Option.bind_fun_some]
    exact load_eq held.represents faithful
  entries := by
    intro state contents held
    have same : ((Sqlite.storage codec).entries state).1 = visible codec state :=
      Storage.entries_of_order _ (fun _ _ _ _ => rfl) state
    rw [same, Listing.filterMap_some]
    exact visible_perm held.represents
  keys held := (visible_perm held.represents).map Prod.fst

theorem handsOut : (Sqlite.storage codec).HandsOut (fun _ => some) (Contains codec) where
  next := by
    rintro ⟨table, handle⟩ contents held
    change ∃ after, contents.Yields some (next codec (table, handle)).1 after ∧
      Contains codec (next codec (table, handle)).2 after ∧ _
    rcases next_spec held.opened held.mirrors with
      ⟨empty, stepped⟩ | ⟨key, value, left, stepped, present, mirrors⟩
    · rw [stepped]
      have same : contents = .empty := Listing.eq_of_entries empty
      refine ⟨.empty, .of_nil empty, ⟨held.opened, ?_⟩, rfl⟩
      rw [← same]
      exact held.mirrors
    · rw [stepped]
      exact ⟨contents.erase key, .of_present present, ⟨held.opened, mirrors⟩, rfl⟩
  size held := Nat.le_of_eq held.mirrors.length_eq.symm

end Sqlite

/-! ## The remote engine -/

namespace Redis

variable {σ : Type} {link : RedisLink σ} {quiet : link.Quiescent}

/-- Whether an open handle talks to a server that answers and has these payloads behind the
prefix. -/
def Contains (quiet : link.Quiescent) (codec : KeyCodec κ) (state : State σ)
    (contents : Listing κ Bytes) : Prop :=
  Represents quiet codec state (some contents)

theorem exposes : (Redis.storage link codec).Exposes codec.Faithful (fun _ => some)
    (Contains quiet codec) where
  known_of_held := by
    intro state contents key stored held present
    cases held with
    | opened _ _ _ mirrors =>
      rcases mirrors.exists_spelled present with ⟨serverKey, bytes, _, spelled⟩
      exact KeyCodec.Restores.faithful ⟨bytes, spelled⟩
  load := by
    intro state contents key held faithful
    rw [Option.bind_fun_some]
    exact (load_spec held faithful).1
  entries := by
    intro state contents held
    rw [Listing.filterMap_some]
    exact ((refines quiet).entries held).1
  keys held := (keys_spec held).1

/-- The bound of the link is what ends a layer that takes entries until it can read one. -/
theorem handsOut (bounded : quiet.Bounded) : (Redis.storage link codec).HandsOut (fun _ => some)
    (Contains quiet codec) where
  next := by
    intro state contents held
    rcases next_spec held with ⟨nothing, empty, later⟩ | ⟨key, value, taken, present, later⟩
    · have same : contents = .empty := Listing.eq_of_entries empty
      rw [same] at later empty ⊢
      change ∃ after, Listing.Yields some _ (next link codec state).1 after ∧ _
      rw [nothing]
      exact ⟨.empty, .of_nil empty, later, rfl⟩
    · change ∃ after, Listing.Yields some _ (next link codec state).1 after ∧ _
      rw [taken]
      exact ⟨contents.erase key, .of_present present, later, rfl⟩
  size := by
    intro state contents held
    cases held with
    | opened _ steady _ mirrors =>
      rw [← mirrors.length_eq]
      exact Nat.le_trans (List.length_filter_le _ _) (bounded state.2 steady)

end Redis
end TypedStore
