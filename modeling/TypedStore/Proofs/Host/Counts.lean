import Mathlib.Logic.Relation
import TypedStore.Proofs.Contract.Sqlite
import TypedStore.Proofs.Host.Directories
import TypedStore.Proofs.Host.Durability
import TypedStore.Proofs.Host.Files
import TypedStore.Proofs.Lsm.Counts

/-!
# The counts of embedded engines

A handle of the log-structured engine keeps a count, and one of the table engine
remembers the number of rows for a while.  Here everything may happen to such a
handle and its files: calls under any key codec, closing, dropping, attempts to open
with any settings, time and maintenance, and any readings of the clock.  What `len`
answers is the number of entries that the engine has stored, whether they can still
be read or not.

The invariant is `Host.Counted`; one lemma for each kind of step shows that it
lasts.  Attempts to open other places do not touch the file of a handle, since a
database is neither replaced nor removed by them.
-/

namespace TypedStore

/-- Whether settings are of an engine that keeps its entries on this host in a
directory or a file. -/
def StoreConfig.IsEmbedded : StoreConfig → Prop
  | .lsm _ => True
  | .sqlite _ => True
  | _ => False

theorem Sqlite.closed_close (state : Sqlite.State) : (Sqlite.close state).2.2.closed = true := by
  unfold Sqlite.close
  split
  split
  · next closed => exact closed
  · rfl

namespace Disk

variable {disk : Disk} {path other : String} {tables : Listing String SqlTable}

/-- A database is not touched by what is put where none is. -/
theorem item?_put_of_database (standing : disk.item? other = some (.database tables))
    (free : ∀ found, disk.item? path ≠ some (.database found)) (item : DiskItem) :
    (disk.put path item).item? other = some (.database tables) := by
  rw [item?_put, if_neg]
  · exact standing
  · intro same
    apply free tables
    rw [← standing]
    unfold item?
    rw [same]

theorem item?_erase_of_database (standing : disk.item? other = some (.database tables))
    (free : ∀ found, disk.item? path ≠ some (.database found)) :
    (disk.erase path).item? other = some (.database tables) := by
  have different : disk.place other ≠ disk.place path := by
    intro same
    apply free tables
    rw [← standing]
    unfold item?
    rw [same]
  change (disk.items.erase (disk.place path)).get? (disk.place other) = _
  rw [Listing.get?_erase, if_neg different]
  exact standing

theorem free_of_openDirectory {compression : Bool} {image : Lsm.Image}
    (opened : disk.openDirectory path compression = .ok image) (found : Listing String SqlTable) :
    disk.item? path ≠ some (.database found) := by
  intro standing
  unfold openDirectory at opened
  rw [standing] at opened
  split at opened <;> cases opened

theorem item?_openFile {after : Disk} (opened : disk.openFile path = .ok after)
    (standing : disk.item? other = some (.database tables)) :
    after.item? other = some (.database tables) := by
  unfold openFile at opened
  split at opened
  · cases opened
  · split at opened
    · cases opened
      exact standing
    · cases opened
    · next absent =>
      split at opened
      · cases opened
      · cases opened
        apply item?_put_of_database standing
        intro found impossible
        rw [absent] at impossible
        cases impossible

end Disk

namespace Host

variable (aead : Aead) (slot : Nat)

/-- How many entries the engine of a handle has stored, readable or not.  A closed
handle has no engine. -/
def storedEntries (host : Host) : Nat :=
  match host.engines.get? slot with
  | some (.lsm _ _ handle) => if handle.closed then 0 else handle.entries.size
  | some (.sqlite options own handle) =>
    if handle.closed then 0 else (host.table options own).size
  | _ => 0

/-- One thing that happens to a handle, its files and its host. -/
inductive Handled : Host → Host → Prop where
  | call (codec : KeyCodec Datum) (call : StorageCall Datum Bytes) (host : Host) :
    Handled host ((bytes aead codec slot).after call host)
  | close (codec : KeyCodec Datum) (host : Host) :
    Handled host ((bytes aead codec slot).close host).2
  | drop (host : Host) : Handled host (host.drop slot)
  | attempt {config : StoreConfig} (embedded : config.IsEmbedded) (host : Host) :
    Handled host (host.openConfig aead slot config).2
  | passes {host after : Host} (passing : Passes aead slot host after) : Handled host after

/-- Whether the handle of a number, if there is one, counts or remembers right. -/
inductive Counted (host : Host) : Prop where
  | vacant (engine : host.engines.get? slot = none)
  | lsm {options : LsmOptions} {openedAt : Nat} {handle : Lsm}
    (engine : host.engines.get? slot = some (.lsm options openedAt handle))
    (counted : handle.Counted)
  | sqlite {options : SqliteOptions} {own : SqlTable} {handle : Sqlite}
    (engine : host.engines.get? slot = some (.sqlite options own handle))
    (standing : ∀ path, options.path = some path →
      ∃ tables, host.disk.item? path = some (.database tables))
    (remembered : handle.closed = false → Sqlite.InOrder (host.table options own, handle))

variable {aead slot} {host after : Host}

theorem table_congr {first second : Host} (same : first.disk = second.disk)
    (options : SqliteOptions) (own : SqlTable) :
    first.table options own = second.table options own := by
  unfold table
  rw [same]

theorem engines_release (options : LsmOptions) (image : Lsm.Image) (host : Host) :
    (host.release options image).engines = host.engines := by
  unfold release
  split <;> rfl

/-- A table that is put back is the one that the handle works on. -/
theorem Counted.putTable {options : SqliteOptions}
    (standing : ∀ path, options.path = some path →
      ∃ tables, host.disk.item? path = some (.database tables))
    {table : SqlTable} {handle : Sqlite}
    (remembered : handle.closed = false → Sqlite.InOrder (table, handle)) :
    Counted slot (host.putTable slot options table handle) := by
  unfold Host.putTable
  cases place : options.path with
  | none =>
    refine .sqlite (get?_put_self slot host _) ?_ ?_
    · intro path impossible
      rw [place] at impossible
      cases impossible
    · unfold Host.table
      rw [place]
      exact remembered
  | some path =>
    rcases standing path place with ⟨tables, found⟩
    refine .sqlite (get?_put_self slot _ _) ?_ ?_
    · intro same samePath
      rw [place] at samePath
      cases samePath
      exact Disk.item?_putTable found options.table table
    · unfold Host.table
      rw [place]
      change handle.closed = false →
        Sqlite.InOrder ((host.disk.putTable path options.table table).table path options.table,
          handle)
      rw [Disk.table_putTable found]
      exact remembered

namespace Counted

variable (counted : Counted slot host)
include counted

theorem call (codec : KeyCodec Datum) (call : StorageCall Datum Bytes) :
    Counted slot ((bytes aead codec slot).after call host) := by
  cases counted with
  | vacant engine =>
    rw [bytes, Storage.choose_after, engine]
    cases call <;> exact .vacant engine
  | lsm engine counted =>
    rw [bytes_after_lsm engine]
    exact .lsm (get?_put_self _ _ _) (counted.after call)
  | @sqlite options own handle engine standing remembered =>
    rw [bytes, Storage.choose_after, engine]
    dsimp only
    rw [Storage.within_after]
    apply putTable standing
    cases closed : handle.closed with
    | true =>
      have same : (Sqlite.storage codec).after call (host.table options own, handle) =
          (host.table options own, handle) := Sqlite.after_of_closed closed call
      rw [same]
      exact remembered
    | false => exact fun _ => (remembered closed).after codec call

theorem close (codec : KeyCodec Datum) :
    Counted slot ((bytes aead codec slot).close host).2 := by
  cases counted with
  | vacant engine =>
    unfold bytes Storage.choose
    dsimp only
    rw [engine]
    exact .vacant engine
  | @lsm options openedAt handle engine counted =>
    have same : handle.close.2.Counted := by
      unfold Lsm.close
      split <;> exact counted
    rw [bytes_close_lsm engine]
    unfold lsmStorage
    dsimp only
    split
    · next closed answered =>
      rw [answered] at same
      have still : ((host.put slot (.lsm options openedAt closed)).release options
          handle.image).engines.get? slot = some (.lsm options openedAt closed) := by
        rw [engines_release]
        exact get?_put_self _ _ _
      exact .lsm still same
    · next error closed answered =>
      rw [answered] at same
      exact .lsm (get?_put_self _ _ _) same
  | @sqlite options own handle engine standing remembered =>
    unfold bytes Storage.choose
    dsimp only
    rw [engine]
    have closed := Sqlite.closed_close (host.table options own, handle)
    exact putTable standing fun opened => absurd (opened.symm.trans closed) Bool.false_ne_true

omit counted in
/-- A handle that is dropped is gone. -/
theorem drop (slot : Nat) (host : Host) : Counted slot (host.drop slot) := by
  have gone : (host.engines.erase slot).get? slot = none := by
    rw [Listing.get?_erase, if_pos rfl]
  unfold Host.drop
  dsimp only
  split
  · split
    · exact .vacant gone
    · apply Counted.vacant
      rw [engines_release]
      exact gone
  · exact .vacant gone

/-- A step that leaves the handle and all databases as they are. -/
theorem same (engines : after.engines = host.engines)
    (databases : ∀ path tables, host.disk.item? path = some (.database tables) →
      after.disk.item? path = some (.database tables)) : Counted slot after := by
  cases counted with
  | vacant engine => exact .vacant (engines ▸ engine)
  | lsm engine counted => exact .lsm (engines ▸ engine) counted
  | @sqlite options own handle engine standing remembered =>
    refine .sqlite (engines ▸ engine) ?_ ?_
    · intro path place
      rcases standing path place with ⟨tables, found⟩
      exact ⟨tables, databases path tables found⟩
    · have kept : after.table options own = host.table options own := by
        unfold Host.table
        cases place : options.path with
        | none => rfl
        | some path =>
          rcases standing path place with ⟨tables, found⟩
          dsimp only
          unfold Disk.table
          rw [found, databases path tables found]
      rw [kept]
      exact remembered

theorem openLsm (options : LsmOptions) : Counted slot (host.openLsm aead slot options).2 := by
  unfold Host.openLsm
  split
  · exact counted
  · dsimp only
    split
    · exact counted
    · next image found =>
      split
      · -- What was found is put back, in a place without a database.
        next error refused =>
        refine counted.same (engines_release options image _) ?_
        intro path tables standing
        unfold release
        split
        · exact standing
        · next dir place =>
          rw [place] at found
          have free := Disk.free_of_openDirectory found
          split
          · exact Disk.item?_erase_of_database standing free
          · exact Disk.item?_put_of_database standing free _
      · next handle opened =>
        exact .lsm (get?_put_self _ _ _) (.of_open opened)

theorem openSqlite (options : SqliteOptions) : Counted slot (host.openSqlite slot options).2 := by
  unfold Host.openSqlite
  split
  · exact counted
  · dsimp only
    split
    · exact counted
    · next disk found =>
      have databases : ∀ path tables, host.disk.item? path = some (.database tables) →
          disk.item? path = some (.database tables) := by
        intro path tables standing
        split at found
        · exact Disk.item?_openFile found standing
        · cases found
          exact standing
      split
      · exact counted.same rfl databases
      · next handle opened =>
        refine .sqlite (get?_put_self _ _ _) ?_ ?_
        · intro path place
          rw [place] at found
          exact (Disk.openFile_spec found).1
        · intro isOpen
          refine ⟨isOpen, ?_⟩
          intro rows countedAt remembered
          dsimp only at remembered
          rw [(Sqlite.open?_spec opened).2] at remembered
          cases remembered

/-- Whether an attempt succeeds or not. -/
theorem attempt {config : StoreConfig} (embedded : config.IsEmbedded) :
    Counted slot (host.openConfig aead slot config).2 := by
  cases config with
  | lsm options => exact counted.openLsm options
  | sqlite options => exact counted.openSqlite options
  | _ => cases embedded

theorem passes (passing : Passes aead slot host after) : Counted slot after := by
  cases passing with
  | elapse nanos =>
    rcases elapse_spec aead nanos host with ⟨disk, engines⟩
    have aged := engines slot
    cases counted with
    | vacant engine =>
      rw [engine] at aged
      exact .vacant aged
    | lsm engine counted =>
      rw [engine] at aged
      exact .lsm aged ((counted.setClock _).maintainTimes aead _)
    | @sqlite options own handle engine standing remembered =>
      rw [engine] at aged
      refine .sqlite aged ?_ ?_
      · rw [disk]
        exact standing
      · intro opened
        rw [table_congr disk]
        exact ⟨opened, (remembered opened).remembered⟩
  | maintain =>
    cases counted with
    | vacant engine =>
      rw [maintain, engine]
      exact .vacant engine
    | lsm engine counted =>
      rw [maintain, engine]
      exact .lsm (get?_put_self _ _ _) (counted.maintainTimes aead 1)
    | sqlite engine standing remembered =>
      rw [maintain, engine]
      exact .sqlite engine standing remembered
  | surround now nonces dataKeys outside clock =>
    cases counted with
    | vacant engine =>
      unfold surround
      dsimp only
      rw [engine]
      exact .vacant engine
    | lsm engine counted =>
      rw [surround_lsm engine]
      exact .lsm (get?_put_self _ _ _) (counted.surround outside)
    | sqlite engine standing remembered =>
      unfold surround
      dsimp only
      rw [engine]
      refine .sqlite (get?_put_self _ _ _) standing ?_
      intro opened
      exact ⟨opened, (remembered opened).remembered⟩

/-- Every step keeps the counts right. -/
theorem step (handled : Handled aead slot host after) : Counted slot after := by
  cases handled with
  | call codec call => exact counted.call codec call
  | close codec => exact counted.close codec
  | drop => exact Counted.drop slot host
  | attempt embedded => exact counted.attempt embedded
  | passes passing => exact counted.passes passing

/-- What a handle that counts right answers. -/
theorem len (aead : Aead) (codec : KeyCodec Datum) :
    ((bytes aead codec slot).len host).1 = host.storedEntries slot := by
  unfold bytes Storage.choose storedEntries
  dsimp only
  cases counted with
  | vacant engine =>
    rw [engine]
    rfl
  | lsm engine counted =>
    rw [engine]
    exact counted.len_eq
  | @sqlite options own handle engine standing remembered =>
    rw [engine]
    change (Sqlite.len (host.table options own, handle)).1 = _
    dsimp only
    split
    · next closed => exact congrArg Prod.fst (if_pos closed)
    · next notClosed => exact (remembered (Bool.eq_false_iff.mpr notClosed)).len.1

end Counted

/-- Whatever happens to a handle of an embedded engine, and under whatever key codecs,
it answers with the number of entries that its engine has stored. -/
theorem len_eq_storedEntries {first host : Host} (unused : first.engines.get? slot = none)
    (history : Relation.ReflTransGen (Handled aead slot) first host) (codec : KeyCodec Datum) :
    ((bytes aead codec slot).len host).1 = host.storedEntries slot := by
  have counted : Counted slot host := by
    induction history with
    | refl => exact .vacant unused
    | tail _ handled hypothesis => exact hypothesis.step handled
  exact counted.len aead codec

/-! ## A directory of another map -/

/-- What a map with texts as keys left in a directory, sealed: one key is also that of
an integer, the other is not. -/
def sealedImage : Lsm.Image where
  entries := Tree.ofList [([5], [0, 0, 0, 1, 9]), ([0xa1, 0x61], [0, 0, 0, 1, 9])]

/-- A host with that directory. -/
def withDirectory : Host :=
  { bare with disk := bare.disk.put "/store" (.directory sealedImage false) }

/-- Settings that open it without a key. -/
def unsealed : LsmOptions :=
  { dir := some "/store", temporary := false }

/-- The host where it was opened without a key, for integers as keys, and an entry was
taken. -/
def takenFrom : Host :=
  (bytes .labelled (Schema.int .i64).keyCodec 0).after .next
    (withDirectory.openConfig .labelled 0 (.lsm unsealed)).2

/-- The entry that is left is counted, though its key cannot be read. -/
theorem takenFrom_counts :
    withDirectory.engines.get? 0 = none ∧
      Relation.ReflTransGen (Handled .labelled 0) withDirectory takenFrom ∧
      ((bytes .labelled (Schema.int .i64).keyCodec 0).len takenFrom).1 = 1 ∧
      ((bytes .labelled (Schema.int .i64).keyCodec 0).keys takenFrom).1 = [] := by
  have embedded : (StoreConfig.lsm unsealed).IsEmbedded := trivial
  have history : Relation.ReflTransGen (Handled .labelled 0) withDirectory takenFrom :=
    .tail (.tail .refl (.attempt embedded _)) (.call (Schema.int .i64).keyCodec .next _)
  have reachable : withDirectory.disk.isBarred "/store" = false := Disk.isBarred_put rfl _
  have found := openDirectory_of_free unsealed.compression reachable
    (Disk.item?_put_self bare.disk "/store" (.directory sealedImage false))
  rcases openLsm_of_opens 0 rfl found rfl with ⟨opened, opens, engine, _⟩
  have left : takenFrom = (bytes .labelled (Schema.int .i64).keyCodec 0).after .next opened :=
    congrArg _ (congrArg Prod.snd opens)
  rw [bytes_after_lsm engine] at left
  refine ⟨rfl, history, ?_, ?_⟩
  · rw [len_eq_storedEntries rfl history, left, storedEntries, get?_put_self]
    rfl
  · unfold bytes Storage.choose
    dsimp only
    rw [left, get?_put_self]
    rfl

end Host
end TypedStore
