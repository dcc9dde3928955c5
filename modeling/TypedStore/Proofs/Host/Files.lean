import TypedStore.Proofs.Host.Places
import TypedStore.Proofs.Host.Reopening
import TypedStore.Proofs.Sqlite.Durability

/-!
# Files outlive their handles

A handle of the table engine works on a table in a file, and every call writes
the table back.  A file serves any number of handles, so an attempt to open it
may succeed while another handle is in use; the new handle then takes the place
of the old one and shows the same.
-/

namespace TypedStore
namespace Host

variable {aead : Aead} {codec : KeyCodec Datum} {slot : Nat} {path name : String}

/-- Whether a database stands at a path that can be reached, and a number has a
handle on one of its tables. -/
structure FileServes (slot : Nat) (path name : String) (handle : Sqlite) (host : Host) : Prop where
  engine : ∃ used own, host.engines.get? slot = some (.sqlite used own handle) ∧
    used.path = some path ∧ SqliteOptions.folded used.table = SqliteOptions.folded name
  standing : ∃ tables, host.disk.item? path = some (.database tables)
  reachable : host.disk.isBarred path = false

/-- Whether a handle in order is open on a table in a file. -/
structure FileInUse (slot : Nat) (path name : String) (handle : Sqlite) (host : Host) : Prop
    extends FileServes slot path name handle host where
  inOrder : Sqlite.InOrder (host.disk.table path name, handle)

/-- Whether a file holds a table, and no handle is open. -/
structure FileAtRest (slot : Nat) (path name : String) (table : SqlTable) (handle : Sqlite)
    (host : Host) : Prop extends FileServes slot path name handle host where
  closed : handle.closed = true
  kept : host.disk.table path name = table

theorem serves_putTable {host : Host} {used : SqliteOptions} (usedPath : used.path = some path)
    (sameTable : SqliteOptions.folded used.table = SqliteOptions.folded name)
    {tables : Listing String SqlTable} (standing : host.disk.item? path = some (.database tables))
    (reachable : host.disk.isBarred path = false) (slot : Nat) (table : SqlTable)
    (handle : Sqlite) :
    FileServes slot path name handle (host.putTable slot used table handle) ∧
      (host.putTable slot used table handle).disk.table path name = table := by
  have put : host.putTable slot used table handle =
      ({ host with disk := host.disk.putTable path used.table table } : Host).put slot
        (.sqlite used .empty handle) := by
    rw [putTable, usedPath]
  rw [put]
  refine ⟨⟨⟨used, .empty, get?_put_self _ _ _, usedPath, sameTable⟩, ?_, ?_⟩, ?_⟩
  · exact Disk.item?_putTable standing used.table table
  · exact Disk.isBarred_putTable reachable used.table table
  · change (host.disk.putTable path used.table table).table path name = table
    rw [← Disk.table_congr _ path sameTable]
    exact Disk.table_putTable standing used.table table

theorem table_eq (host : Host) {used : SqliteOptions} (own : SqlTable)
    (usedPath : used.path = some path)
    (sameTable : SqliteOptions.folded used.table = SqliteOptions.folded name) :
    host.table used own = host.disk.table path name := by
  rw [Host.table, usedPath]
  exact Disk.table_congr host.disk path sameTable

namespace FileServes

variable {handle : Sqlite} {host : Host}

/-- What a call does to the file, when it is known what it does to the table. -/
theorem after (serves : FileServes slot path name handle host) (aead : Aead)
    {call : StorageCall Datum Bytes} {table : SqlTable} {later : Sqlite}
    (changed : (Sqlite.storage codec).after call (host.disk.table path name, handle) =
      (table, later)) :
    FileServes slot path name later ((bytes aead codec slot).after call host) ∧
      ((bytes aead codec slot).after call host).disk.table path name = table := by
  rcases serves.engine with ⟨used, own, engine, usedPath, sameTable⟩
  rcases serves.standing with ⟨tables, standing⟩
  rw [bytes, Storage.choose_after, engine]
  dsimp only
  rw [Storage.within_after, table_eq host own usedPath sameTable, changed]
  exact serves_putTable usedPath sameTable standing serves.reachable slot table later

/-- The same for closing. -/
theorem close (serves : FileServes slot path name handle host) (aead : Aead)
    (codec : KeyCodec Datum) {answer : Except StoreError Unit} {table : SqlTable} {later : Sqlite}
    (changed : Sqlite.close (host.disk.table path name, handle) = (answer, table, later)) :
    ((bytes aead codec slot).close host).1 = answer ∧
      FileServes slot path name later ((bytes aead codec slot).close host).2 ∧
      ((bytes aead codec slot).close host).2.disk.table path name = table := by
  rcases serves.engine with ⟨used, own, engine, usedPath, sameTable⟩
  rcases serves.standing with ⟨tables, standing⟩
  have closes : (bytes aead codec slot).close host =
      (answer, host.putTable slot used table later) := by
    rw [bytes]
    dsimp only [Storage.choose]
    rw [engine]
    dsimp only [Storage.within, Sqlite.storage]
    rw [table_eq host own usedPath sameTable, changed]
  rw [closes]
  exact ⟨rfl, serves_putTable usedPath sameTable standing serves.reachable slot table later⟩

theorem contents_eq (serves : FileServes slot path name handle host) :
    host.contents aead codec slot =
      (Sqlite.storage codec).contents (host.disk.table path name, handle) := by
  rcases serves.engine with ⟨used, own, engine, usedPath, sameTable⟩
  rw [contents, bytes, Storage.contents]
  dsimp only [Storage.choose]
  rw [engine]
  dsimp only [Storage.within]
  rw [table_eq host own usedPath sameTable]
  rfl

theorem change (serves : FileServes slot path name handle host) {after : Host} {later : Sqlite}
    (engine : ∀ used own, host.engines.get? slot = some (.sqlite used own handle) →
      after.engines.get? slot = some (.sqlite used own later))
    (disk : after.disk = host.disk) : FileServes slot path name later after := by
  rcases serves.engine with ⟨used, own, found, usedPath, sameTable⟩
  refine ⟨⟨used, own, engine used own found, usedPath, sameTable⟩, ?_, ?_⟩
  · rw [disk]
    exact serves.standing
  · rw [disk]
    exact serves.reachable

/-- Between calls the handle gets another clock at most, and the disk stays. -/
theorem passes (serves : FileServes slot path name handle host) {after : Host}
    (passing : Passes aead slot host after) :
    after.disk = host.disk ∧
      ∃ clock, FileServes slot path name { handle with clock } after := by
  cases passing with
  | elapse nanos =>
    rcases elapse_spec aead nanos host with ⟨disk, engines⟩
    refine ⟨disk, .constant (host.now + nanos), serves.change ?_ disk⟩
    intro used own engine
    rw [engines, engine]
    rfl
  | maintain =>
    rcases serves.engine with ⟨used, own, engine, _⟩
    rw [maintain, engine]
    exact ⟨rfl, handle.clock, serves⟩
  | surround now nonces dataKeys outside clock =>
    rcases serves.engine with ⟨used, own, engine, _⟩
    rw [surround]
    dsimp only
    rw [engine]
    refine ⟨rfl, clock, serves.change ?_ rfl⟩
    intro other otherOwn otherEngine
    have same := engine.symm.trans otherEngine
    cases same
    exact get?_put_self _ _ _

end FileServes

/-! ## Attempts to open -/

/-- An attempt succeeds with good settings, and changes nothing otherwise. -/
theorem openSqlite_spec {host : Host} {other : SqliteOptions} (otherPath : other.path = some path)
    {tables : Listing String SqlTable} (standing : host.disk.item? path = some (.database tables))
    (reachable : host.disk.isBarred path = false) (slot : Nat) :
    ((other.check = .ok () ∧ other.isExecutable = true) ∧
        ∃ handle,
          host.openSqlite slot other = (.ok (), host.put slot (.sqlite other .empty handle)) ∧
          handle.closed = false ∧ handle.cached = none) ∨
      (¬(other.check = .ok () ∧ other.isExecutable = true) ∧
        ∃ fault, host.openSqlite slot other = (.error fault, host)) := by
  rw [openSqlite]
  cases good : other.check with
  | error fault =>
    refine .inr ⟨?_, _, rfl⟩
    rintro ⟨impossible, _⟩
    cases impossible
  | ok done =>
    have found : host.disk.openFile path = .ok host.disk := by
      rw [Disk.openFile, reachable, standing]
      rfl
    dsimp only
    rw [otherPath]
    dsimp only
    rw [found]
    dsimp only
    by_cases executable : other.isExecutable = true
    · rw [Sqlite.open?_eq_ok good executable]
      exact .inl ⟨⟨rfl, executable⟩, _, rfl, rfl, rfl⟩
    · rw [Sqlite.open?_eq_error good executable]
      refine .inr ⟨?_, _, rfl⟩
      rintro ⟨_, impossible⟩
      exact executable impossible

/-! ## Files in use and at rest -/

section Steps

variable {host after : Host} {handle : Sqlite} {table : SqlTable} {options : SqliteOptions}

/-- A good attempt puts a new handle on the file, and shows what is there. -/
theorem inUse_of_attempt (slot : Nat) {other : SqliteOptions} (otherPath : other.path = some path)
    (sameTable : SqliteOptions.folded other.table = SqliteOptions.folded name)
    {tables : Listing String SqlTable} (standing : host.disk.item? path = some (.database tables))
    (reachable : host.disk.isBarred path = false) (opened : handle.closed = false)
    (forgetful : handle.cached = none) :
    FileInUse slot path name handle (host.put slot (.sqlite other .empty handle)) := by
  refine ⟨⟨⟨other, .empty, get?_put_self _ _ _, otherPath, sameTable⟩, ⟨tables, standing⟩,
    reachable⟩, opened, ?_⟩
  intro rows countedAt impossible
  dsimp only at impossible
  rw [forgetful] at impossible
  cases impossible

/-- An attempt on a file that stands puts a new handle in use, or changes nothing. -/
theorem FileServes.attempt (serves : FileServes slot path name handle host) {other : SqliteOptions}
    (otherPath : other.path = some path)
    (sameTable : SqliteOptions.folded other.table = SqliteOptions.folded name) :
    ((other.check = .ok () ∧ other.isExecutable = true) ∧ ∃ later fresh,
        host.openSqlite slot other = (.ok (), later) ∧ later.disk = host.disk ∧
        FileInUse slot path name fresh later) ∨
      (¬(other.check = .ok () ∧ other.isExecutable = true) ∧
        ∃ fault, host.openSqlite slot other = (.error fault, host)) := by
  rcases serves.standing with ⟨tables, standing⟩
  refine (openSqlite_spec otherPath standing serves.reachable slot).imp_left ?_
  rintro ⟨good, fresh, opens, opened, forgetful⟩
  exact ⟨good, _, fresh, opens, rfl,
    inUse_of_attempt slot otherPath sameTable standing serves.reachable opened forgetful⟩

theorem FileInUse.contents_eq (inUse : FileInUse slot path name handle host) :
    host.contents aead codec slot = Sqlite.shown codec (host.disk.table path name) :=
  inUse.toFileServes.contents_eq.trans inUse.inOrder.contents

theorem FileServes.isOpen_eq (serves : FileServes slot path name handle host) :
    host.isOpen slot = !handle.closed := by
  rcases serves.engine with ⟨used, own, engine, _⟩
  rw [isOpen, engine]

/-- Closing leaves what the table holds in the file. -/
theorem FileInUse.close (inUse : FileInUse slot path name handle host) (aead : Aead)
    (codec : KeyCodec Datum) :
    ((bytes aead codec slot).close host).1 = .ok () ∧ ∃ closed,
      FileAtRest slot path name (host.disk.table path name) closed
        ((bytes aead codec slot).close host).2 := by
  have closes : Sqlite.close (host.disk.table path name, handle) =
      (.ok (), host.disk.table path name, { handle with closed := true }) :=
    if_neg inUse.inOrder.notClosed
  rcases inUse.toFileServes.close aead codec closes with ⟨answer, serves, kept⟩
  exact ⟨answer, _, serves, rfl, kept⟩

theorem FileInUse.step (inUse : FileInUse slot path name handle host)
    (samePath : options.path = some path) (sameName : options.table = name)
    (stepped : Step aead codec slot (.sqlite options) host after) :
    (∃ later, FileInUse slot path name later after) ∨
      ∃ table later, FileAtRest slot path name table later after := by
  cases stepped with
  | call call =>
    rcases changed : (Sqlite.storage codec).after call (host.disk.table path name, handle) with
      ⟨table, later⟩
    have inOrder := inUse.inOrder.after codec call
    rcases inUse.toFileServes.after aead changed with ⟨serves, same⟩
    rw [changed, ← same] at inOrder
    exact .inl ⟨later, serves, inOrder⟩
  | close =>
    rcases inUse.close aead codec with ⟨_, closed, atRest⟩
    exact .inr ⟨_, closed, atRest⟩
  | @attempt other mayTry _ _ =>
    cases other with
    | sqlite other =>
      have sameTable := mayTry.2
      rw [sameName] at sameTable
      rcases inUse.toFileServes.attempt (mayTry.1.trans samePath) sameTable with
        ⟨_, later, fresh, opens, _, inUseThen⟩ | ⟨_, fault, refused⟩
      · rw [openConfig, opens]
        exact .inl ⟨fresh, inUseThen⟩
      · rw [openConfig, refused]
        exact .inl ⟨handle, inUse⟩
    | _ => cases mayTry
  | passes passing =>
    rcases inUse.toFileServes.passes passing with ⟨disk, clock, serves⟩
    refine .inl ⟨_, serves, ?_⟩
    rw [disk]
    exact ⟨inUse.inOrder.opened, inUse.inOrder.remembered⟩

theorem FileAtRest.step (atRest : FileAtRest slot path name table handle host)
    (samePath : options.path = some path) (sameName : options.table = name)
    (stepped : Step aead codec slot (.sqlite options) host after) :
    (∃ later, FileAtRest slot path name table later after) ∨
      ∃ later, FileInUse slot path name later after := by
  cases stepped with
  | call call =>
    have unchanged : (Sqlite.storage codec).after call (host.disk.table path name, handle) =
        (host.disk.table path name, handle) := Sqlite.after_of_closed atRest.closed call
    rcases atRest.toFileServes.after aead unchanged with ⟨serves, same⟩
    exact .inl ⟨handle, serves, atRest.closed, same.trans atRest.kept⟩
  | close =>
    have refused : Sqlite.close (host.disk.table path name, handle) =
        (.error .closed, host.disk.table path name, handle) := if_pos atRest.closed
    rcases atRest.toFileServes.close aead codec refused with ⟨_, serves, same⟩
    exact .inl ⟨handle, serves, atRest.closed, same.trans atRest.kept⟩
  | @attempt other mayTry _ _ =>
    cases other with
    | sqlite other =>
      have sameTable := mayTry.2
      rw [sameName] at sameTable
      rcases atRest.toFileServes.attempt (mayTry.1.trans samePath) sameTable with
        ⟨_, later, fresh, opens, _, inUse⟩ | ⟨_, fault, refused⟩
      · rw [openConfig, opens]
        exact .inr ⟨fresh, inUse⟩
      · rw [openConfig, refused]
        exact .inl ⟨handle, atRest⟩
    | _ => cases mayTry
  | passes passing =>
    rcases atRest.toFileServes.passes passing with ⟨disk, clock, serves⟩
    refine .inl ⟨_, serves, atRest.closed, ?_⟩
    rw [disk]
    exact atRest.kept

end Steps

/-! ## The engine -/

/-- What the table engine shows for its contents to outlive its handles. -/
theorem durable_sqlite {options : SqliteOptions} (samePath : options.path = some path) :
    Durable aead codec slot (.sqlite options)
      (fun host => ∃ handle, FileInUse slot path options.table handle host)
      (fun shown host => ∃ table handle, FileAtRest slot path options.table table handle host ∧
        shown = Sqlite.shown codec table) where
  isOpen_of_inUse := by
    rintro host ⟨handle, inUse⟩
    rw [inUse.toFileServes.isOpen_eq, inUse.inOrder.opened]
    rfl
  isOpen_of_atRest := by
    rintro host shown ⟨table, handle, atRest, _⟩
    rw [atRest.toFileServes.isOpen_eq, atRest.closed]
    rfl
  step_inUse := by
    rintro host after ⟨handle, inUse⟩ stepped _
    rcases inUse.step samePath rfl stepped with still | ⟨table, later, atRest⟩
    · exact .inl still
    · exact .inr ⟨_, table, later, atRest, rfl⟩
  close := by
    rintro host ⟨handle, inUse⟩
    rcases inUse.close aead codec with ⟨answer, closed, atRest⟩
    exact ⟨answer, _, closed, atRest, inUse.contents_eq⟩
  step_atRest := by
    rintro host after shown ⟨table, handle, atRest, same⟩ stepped
    rcases atRest.step samePath rfl stepped with ⟨later, still⟩ | inUse
    · exact .inl ⟨table, later, still, same⟩
    · exact .inr inUse
  attempt := by
    rintro host shown other ⟨table, handle, atRest, rfl⟩ mayTry _
    cases other with
    | sqlite other =>
      rcases atRest.toFileServes.attempt (mayTry.1.trans samePath) mayTry.2 with
        ⟨good, later, fresh, opens, disk, inUse⟩ | ⟨bad, fault, refused⟩
      · rw [openConfig, opens]
        refine ⟨iff_of_true rfl good, fun _ => ?_, fun different => absurd rfl different⟩
        dsimp only
        rw [← atRest.kept, ← disk]
        exact inUse.contents_eq
      · rw [openConfig, refused]
        have notOk : (Except.error fault : Except OpenFault Unit) ≠ .ok () := fun same => by
          cases same
        exact ⟨iff_of_false notOk bad, fun same => absurd same notOk,
          fun _ => ⟨table, handle, atRest, rfl⟩⟩
    | _ => cases mayTry

/-- Opening a file puts it in use, whatever it holds. -/
theorem fileInUse_of_open {options : SqliteOptions} {host opened : Host}
    (samePath : options.path = some path)
    (made : host.openConfig aead slot (.sqlite options) = (.ok (), opened)) :
    ∃ handle, FileInUse slot path options.table handle opened := by
  rw [openConfig, openSqlite] at made
  cases good : options.check with
  | error fault =>
    rw [good] at made
    cases made
  | ok done =>
    rw [good] at made
    dsimp only at made
    rw [samePath] at made
    dsimp only at made
    cases found : host.disk.openFile path with
    | error error =>
      rw [found] at made
      cases made
    | ok disk =>
      rcases Disk.openFile_spec found with ⟨⟨tables, standing⟩, reachable⟩
      rw [found] at made
      dsimp only at made
      by_cases executable : options.isExecutable = true
      · rw [Sqlite.open?_eq_ok good executable] at made
        cases made
        exact ⟨_, inUse_of_attempt slot samePath rfl standing reachable rfl rfl⟩
      · rw [Sqlite.open?_eq_error good executable] at made
        cases made

end Host
end TypedStore
