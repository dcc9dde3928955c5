import TypedStore.Proofs.Host.Places
import TypedStore.Proofs.Host.Reopening

/-!
# Directories outlive their handles

While a handle of the log-structured engine is in use, its directory is taken
and every attempt to open it is refused without a trace.  Closing puts what the
handle holds into the directory.  From then on, an attempt either succeeds, with
the key and compression of the directory, or leaves everything as it was.
-/

namespace TypedStore
namespace Lsm

variable {aead : Aead} {κ : Type} {codec : KeyCodec κ} {options : LsmOptions} {lsm : Lsm}

/-! ## Rounds of maintenance -/

theorem ringSize_maintainTimes_le (aead : Aead) (rounds : Nat) (lsm : Lsm) :
    lsm.protection.ringSize ≤ (Host.maintainTimes aead rounds lsm).protection.ringSize := by
  induction rounds generalizing lsm with
  | zero => exact Nat.le_refl _
  | succ rounds hypothesis =>
    exact Nat.le_trans (ringSize_maintain_le aead lsm) (hypothesis (lsm.maintain aead))

theorem InOrder.maintainTimes (inOrder : lsm.InOrder aead options) (sound : aead.Sound)
    (rounds : Nat) (room : hasRoom (Host.maintainTimes aead rounds lsm)) :
    InOrder aead options (Host.maintainTimes aead rounds lsm) := by
  induction rounds generalizing lsm with
  | zero => exact inOrder
  | succ rounds hypothesis =>
    have first : hasRoom (lsm.maintain aead) :=
      Nat.lt_of_le_of_lt (ringSize_maintainTimes_le aead rounds _) room
    exact hypothesis (inOrder.maintain sound first) room

theorem InOrder.setClock (inOrder : lsm.InOrder aead options) (seconds : UInt64) :
    InOrder aead options (Host.setClock seconds lsm) := by
  have consistent := inOrder.consistent
  have master := inOrder.master
  rw [Host.setClock]
  split
  · exact inOrder
  · next vault sealed =>
    rw [sealed] at consistent master
    exact inOrder.guarded (consistent.follows_outside _).consistent master

/-! ## Closed handles -/

theorem after_of_closed (closed : lsm.closed = true) (call : StorageCall κ Bytes) :
    (Lsm.storage aead codec).after call lsm = lsm := by
  cases call with
  | store key value => exact if_pos closed
  | storeIfAbsent key value => exact congrArg Prod.snd (if_pos closed)
  | delete removed => exact if_pos closed
  | next => exact congrArg Prod.snd (if_pos closed)
  | clear => exact if_pos closed
  | _ => rfl

theorem maintain_of_closed (closed : lsm.closed = true) : lsm.maintain aead = lsm :=
  if_pos closed

theorem maintainTimes_of_closed (closed : lsm.closed = true) (rounds : Nat) :
    Host.maintainTimes aead rounds lsm = lsm := by
  induction rounds with
  | zero => rfl
  | succ rounds hypothesis =>
    rw [Host.maintainTimes, maintain_of_closed closed]
    exact hypothesis

theorem closed_setClock (seconds : UInt64) (lsm : Lsm) :
    (Host.setClock seconds lsm).closed = lsm.closed := by
  rw [Host.setClock]
  split <;> rfl

theorem closed_surround (outside : Surroundings) (lsm : Lsm) :
    (lsm.surround outside).closed = lsm.closed := by
  rw [surround]
  split <;> rfl

end Lsm

namespace Host

variable {aead : Aead} {codec : KeyCodec Datum} {slot : Nat} {dir : String} {options : LsmOptions}

/-- Whether a handle in order is open on a directory. -/
structure DirectoryInUse (aead : Aead) (slot : Nat) (dir : String) (options : LsmOptions)
    (used : LsmOptions) (openedAt : Nat) (handle : Lsm) (host : Host) : Prop where
  engine : host.engines.get? slot = some (.lsm used openedAt handle)
  usedDir : used.dir = some dir
  lasting : used.temporary = false
  inOrder : handle.InOrder aead options
  taken : ∃ image, host.disk.item? dir = some (.directory image true)
  reachable : host.disk.isBarred dir = false

/-- Whether a directory holds what a handle in order left, and no handle is open. -/
structure DirectoryAtRest (aead : Aead) (slot : Nat) (dir : String) (options : LsmOptions)
    (left : Lsm) (host : Host) : Prop where
  engine : ∃ used openedAt handle, host.engines.get? slot = some (.lsm used openedAt handle) ∧
    handle.closed = true
  inOrder : left.InOrder aead options
  kept : host.disk.item? dir = some (.directory left.image false)
  reachable : host.disk.isBarred dir = false

/-! ## What a number with a handle does -/

section Handle

variable {host : Host} {used : LsmOptions} {openedAt : Nat} {handle : Lsm}

theorem bytes_after_lsm (engine : host.engines.get? slot = some (.lsm used openedAt handle))
    (call : StorageCall Datum Bytes) :
    (bytes aead codec slot).after call host =
      host.put slot (.lsm used openedAt ((Lsm.storage aead codec).after call handle)) := by
  rw [bytes, Storage.choose_after, engine]
  cases call <;> rfl

theorem contents_lsm (engine : host.engines.get? slot = some (.lsm used openedAt handle)) :
    host.contents aead codec slot = (Lsm.storage aead codec).contents handle := by
  rw [contents, bytes, Storage.contents]
  dsimp only [Storage.choose]
  rw [engine]
  rfl

theorem surround_lsm (engine : host.engines.get? slot = some (.lsm used openedAt handle))
    (now : Nat) (nonces : Source Nonce) (dataKeys : Source DataKey) (outside : Surroundings)
    (clock : Source Nat) :
    host.surround slot now nonces dataKeys outside clock =
      ({ host with now, nonces, dataKeys } : Host).put slot
        (.lsm used openedAt (handle.surround outside)) := by
  rw [surround]
  dsimp only
  rw [engine]

theorem bytes_close_lsm (engine : host.engines.get? slot = some (.lsm used openedAt handle)) :
    (bytes aead codec slot).close host =
      (lsmStorage aead codec slot used openedAt handle).close host := by
  rw [bytes]
  dsimp only [Storage.choose]
  rw [engine]

end Handle

/-! ## Attempts to open -/

section Attempts

variable {host : Host} {other : LsmOptions}

/-- A directory in use is refused. -/
theorem openLsm_of_taken (aead : Aead) (slot : Nat) (reachable : host.disk.isBarred dir = false)
    {image : Lsm.Image} (taken : host.disk.item? dir = some (.directory image true))
    (sameDir : other.dir = some dir) :
    ∃ fault, host.openLsm aead slot other = (.error fault, host) := by
  rw [openLsm]
  cases Lsm.checkKey other with
  | error fault => exact ⟨_, rfl⟩
  | ok done =>
    dsimp only
    rw [sameDir]
    dsimp only
    rw [Disk.openDirectory, reachable, taken]
    exact ⟨_, rfl⟩

theorem openDirectory_of_free (compression : Bool) (reachable : host.disk.isBarred dir = false)
    {image : Lsm.Image} (kept : host.disk.item? dir = some (.directory image false)) :
    host.disk.openDirectory dir compression = .ok image := by
  rw [Disk.openDirectory, reachable, kept]
  rfl

/-- A directory that is free is taken if it opens. -/
theorem openLsm_of_opens (slot : Nat) {image : Lsm.Image} {handle : Lsm}
    (sameDir : other.dir = some dir)
    (found : host.disk.openDirectory dir other.compression = .ok image)
    (opens : Lsm.open? aead other image host.supply.1 = .ok handle) :
    ∃ after, host.openLsm aead slot other = (.ok (), after) ∧
      after.engines.get? slot = some (.lsm other host.now handle) ∧
      after.disk = host.disk.put dir (.directory image true) := by
  have fits : Lsm.checkKey other = .ok () := (Lsm.open?_eq_ok_iff.mp opens).1
  rw [openLsm, fits]
  dsimp only
  rw [sameDir]
  dsimp only
  rw [found]
  dsimp only
  rw [opens]
  exact ⟨_, rfl, get?_put_self _ _ _, rfl⟩

/-- One that does not open is as it was. -/
theorem openLsm_of_refuses (slot : Nat) {image : Lsm.Image} {error : StoreError}
    (sameDir : other.dir = some dir) (lasting : other.temporary = false)
    (reachable : host.disk.isBarred dir = false)
    (kept : host.disk.item? dir = some (.directory image false))
    (refuses : Lsm.open? aead other image host.supply.1 = .error error) :
    ∃ fault after, host.openLsm aead slot other = (.error fault, after) ∧
      after.engines = host.engines ∧ after.disk.item? dir = some (.directory image false) ∧
      after.disk.isBarred dir = false := by
  rw [openLsm]
  cases Lsm.checkKey other with
  | error fault => exact ⟨_, _, rfl, rfl, kept, reachable⟩
  | ok done =>
    dsimp only
    rw [sameDir]
    dsimp only
    rw [openDirectory_of_free other.compression reachable kept]
    dsimp only
    rw [refuses]
    dsimp only [release]
    rw [sameDir]
    dsimp only
    rw [lasting]
    exact ⟨_, _, rfl, rfl, Disk.item?_put_self _ _ _, Disk.isBarred_put reachable _⟩

end Attempts

/-! ## Directories in use -/

namespace DirectoryInUse

variable {used : LsmOptions} {openedAt : Nat} {handle : Lsm} {host after : Host}

/-- A step that changes the handle only, to one in order. -/
theorem change (inUse : DirectoryInUse aead slot dir options used openedAt handle host)
    {later : Lsm} (engine : after.engines.get? slot = some (.lsm used openedAt later))
    (inOrder : later.InOrder aead options) (disk : after.disk = host.disk) :
    DirectoryInUse aead slot dir options used openedAt later after := by
  refine ⟨engine, inUse.usedDir, inUse.lasting, inOrder, ?_, ?_⟩
  · rw [disk]
    exact inUse.taken
  · rw [disk]
    exact inUse.reachable

/-- Closing leaves what the handle holds in the directory. -/
theorem close (codec : KeyCodec Datum)
    (inUse : DirectoryInUse aead slot dir options used openedAt handle host) :
    ∃ after, (bytes aead codec slot).close host = (.ok (), after) ∧
      DirectoryAtRest aead slot dir options handle after := by
  have closes : handle.close = (.ok (), { handle with closed := true }) :=
    if_neg inUse.inOrder.notClosed
  rw [bytes_close_lsm inUse.engine]
  dsimp only [lsmStorage]
  rw [closes]
  dsimp only [release]
  rw [inUse.usedDir]
  dsimp only
  rw [inUse.lasting]
  refine ⟨_, rfl, ⟨_, _, _, get?_put_self _ _ _, rfl⟩, inUse.inOrder, Disk.item?_put_self _ _ _,
    Disk.isBarred_put inUse.reachable _⟩

/-- Time and maintenance keep the handle in order. -/
theorem passes (sound : aead.Sound)
    (inUse : DirectoryInUse aead slot dir options used openedAt handle host)
    (passing : Passes aead slot host after) (room : HasRoom slot after) :
    ∃ later, DirectoryInUse aead slot dir options used openedAt later after := by
  cases passing with
  | elapse nanos =>
    rcases elapse_spec aead nanos host with ⟨disk, engines⟩
    have engine := engines slot
    rw [inUse.engine] at engine
    have inOrder := (inUse.inOrder.setClock
      ({ host with now := host.now + nanos } : Host).seconds).maintainTimes sound _
        (room _ _ _ engine)
    exact ⟨_, inUse.change engine inOrder disk⟩
  | maintain =>
    have engine := get?_put_self slot host (.lsm used openedAt (handle.maintain aead))
    rw [maintain, inUse.engine] at room ⊢
    have inOrder := inUse.inOrder.maintain sound (room _ _ _ engine)
    exact ⟨_, inUse.change engine inOrder rfl⟩
  | surround now nonces dataKeys outside clock =>
    rw [surround_lsm inUse.engine]
    exact ⟨_, inUse.change (get?_put_self _ _ _) (inUse.inOrder.surround outside) rfl⟩

/-- Every step but closing keeps the handle in order. -/
theorem step (sound : aead.Sound) (sameDir : options.dir = some dir)
    (inUse : DirectoryInUse aead slot dir options used openedAt handle host)
    (stepped : Step aead codec slot (.lsm options) host after) (room : HasRoom slot after) :
    (∃ later, DirectoryInUse aead slot dir options used openedAt later after) ∨
      ∃ left, DirectoryAtRest aead slot dir options left after := by
  cases stepped with
  | call call =>
    have engine := get?_put_self slot host
      (.lsm used openedAt ((Lsm.storage aead codec).after call handle))
    rw [bytes_after_lsm inUse.engine] at room ⊢
    have inOrder := inUse.inOrder.after sound call (room _ _ _ engine)
    exact .inl ⟨_, inUse.change engine inOrder rfl⟩
  | close =>
    rcases inUse.close codec with ⟨after, closed, atRest⟩
    rw [closed]
    exact .inr ⟨handle, atRest⟩
  | @attempt other mayTry _ rejects =>
    cases other with
    | lsm other =>
      rcases inUse.taken with ⟨image, taken⟩
      rcases openLsm_of_taken aead slot inUse.reachable taken
        (mayTry.1.trans sameDir) with ⟨fault, refused⟩
      have unchanged : (host.openConfig aead slot (.lsm other)).2 = host :=
        congrArg Prod.snd refused
      rw [unchanged]
      exact .inl ⟨handle, inUse⟩
    | _ => cases mayTry
  | passes passing =>
    rcases inUse.passes sound passing room with ⟨later, still⟩
    exact .inl ⟨later, still⟩

end DirectoryInUse

/-! ## Directories at rest -/

namespace DirectoryAtRest

variable {left : Lsm} {host after : Host} {other : LsmOptions}

theorem isOpen (atRest : DirectoryAtRest aead slot dir options left host) :
    host.isOpen slot = false := by
  rcases atRest.engine with ⟨used, openedAt, handle, engine, closed⟩
  rw [Host.isOpen, engine]
  dsimp only
  rw [closed]
  rfl

/-- A step that leaves the handle closed and the directory as it is. -/
theorem change (atRest : DirectoryAtRest aead slot dir options left host)
    {used : LsmOptions} {openedAt : Nat} {handle : Lsm}
    (engine : after.engines.get? slot = some (.lsm used openedAt handle))
    (closed : handle.closed = true) (disk : after.disk = host.disk) :
    DirectoryAtRest aead slot dir options left after := by
  refine ⟨⟨used, openedAt, handle, engine, closed⟩, atRest.inOrder, ?_, ?_⟩
  · rw [disk]
    exact atRest.kept
  · rw [disk]
    exact atRest.reachable

/-- The right key and compression open it, and show what was left. -/
theorem opens (codec : KeyCodec Datum)
    (atRest : DirectoryAtRest aead slot dir options left host)
    (sameDir : other.dir = some dir) (lasting : other.temporary = false)
    (fits : other.encryptionKey = options.encryptionKey ∧ other.compression = options.compression) :
    ∃ handle after, host.openLsm aead slot other = (.ok (), after) ∧
      DirectoryInUse aead slot dir options other host.now handle after ∧
      (Lsm.storage aead codec).contents handle = (Lsm.storage aead codec).contents left := by
  rcases atRest.inOrder.reopen codec fits.1 fits.2 host.supply.1 with
    ⟨handle, opened, inOrder, contents⟩
  have found := openDirectory_of_free other.compression atRest.reachable atRest.kept
  rcases openLsm_of_opens slot sameDir found opened with ⟨after, opens, engine, disk⟩
  refine ⟨handle, after, opens, ⟨engine, sameDir, lasting, inOrder, ⟨left.image, ?_⟩, ?_⟩, contents⟩
  · rw [disk]
    exact Disk.item?_put_self _ _ _
  · rw [disk]
    exact Disk.isBarred_put atRest.reachable _

/-- Anything else is refused and changes nothing. -/
theorem refuses (atRest : DirectoryAtRest aead slot dir options left host)
    (sameDir : other.dir = some dir) (lasting : other.temporary = false)
    (mayTry : options.MayTry other) (rejects : options.Rejects aead other left.image.records)
    (unfit : ¬(other.encryptionKey = options.encryptionKey ∧
      other.compression = options.compression)) :
    ∃ fault after, host.openLsm aead slot other = (.error fault, after) ∧
      DirectoryAtRest aead slot dir options left after := by
  cases opened : Lsm.open? aead other left.image host.supply.1 with
  | ok later => exact absurd (atRest.inOrder.same_of_open? mayTry rejects opened) unfit
  | error error =>
    rcases openLsm_of_refuses slot sameDir lasting atRest.reachable atRest.kept opened with
      ⟨fault, after, refused, engines, kept, reachable⟩
    refine ⟨fault, after, refused, ?_, atRest.inOrder, kept, reachable⟩
    rw [engines]
    exact atRest.engine

/-- An attempt opens it with settings that fit, and leaves it at rest otherwise. -/
theorem attempt (codec : KeyCodec Datum)
    (atRest : DirectoryAtRest aead slot dir options left host) (sameDir : options.dir = some dir)
    (mayTry : StoreConfig.MayTry (.lsm options) (.lsm other))
    (rejects : host.Rejects aead (.lsm options) (.lsm other)) :
    (StoreConfig.Fits (.lsm options) (.lsm other) ∧ ∃ handle after,
        host.openLsm aead slot other = (.ok (), after) ∧
        DirectoryInUse aead slot dir options other host.now handle after ∧
        (Lsm.storage aead codec).contents handle = (Lsm.storage aead codec).contents left) ∨
      (¬StoreConfig.Fits (.lsm options) (.lsm other) ∧ ∃ fault after,
        host.openLsm aead slot other = (.error fault, after) ∧
        DirectoryAtRest aead slot dir options left after) := by
  rcases mayTry with ⟨otherDir, lasting, mayTry⟩
  by_cases fits : other.encryptionKey = options.encryptionKey ∧
      other.compression = options.compression
  · exact .inl ⟨fits, atRest.opens codec (otherDir.trans sameDir) lasting fits⟩
  · exact .inr ⟨fits,
      atRest.refuses (otherDir.trans sameDir) lasting mayTry
        (rejects dir sameDir _ atRest.kept) fits⟩

theorem passes (atRest : DirectoryAtRest aead slot dir options left host)
    (passing : Passes aead slot host after) :
    DirectoryAtRest aead slot dir options left after := by
  rcases atRest.engine with ⟨used, openedAt, handle, engine, closed⟩
  cases passing with
  | elapse nanos =>
    rcases elapse_spec aead nanos host with ⟨disk, engines⟩
    have aged := engines slot
    rw [engine] at aged
    have stillClosed : (setClock ({ host with now := host.now + nanos } : Host).seconds
        handle).closed = true := (Lsm.closed_setClock _ handle).trans closed
    refine atRest.change aged ?_ disk
    rw [Lsm.maintainTimes_of_closed stillClosed]
    exact stillClosed
  | maintain =>
    rw [maintain, engine]
    dsimp only
    rw [Lsm.maintain_of_closed closed]
    exact atRest.change (get?_put_self _ _ _) closed rfl
  | surround now nonces dataKeys outside clock =>
    rw [surround_lsm engine]
    have stillClosed := (Lsm.closed_surround outside handle).trans closed
    exact atRest.change (get?_put_self _ _ _) stillClosed rfl

/-- Every step but a successful attempt leaves what was left. -/
theorem step (sameDir : options.dir = some dir)
    (atRest : DirectoryAtRest aead slot dir options left host)
    (stepped : Step aead codec slot (.lsm options) host after) :
    DirectoryAtRest aead slot dir options left after ∨
      ∃ used openedAt handle, DirectoryInUse aead slot dir options used openedAt handle after := by
  rcases atRest.engine with ⟨used, openedAt, handle, engine, closed⟩
  cases stepped with
  | call call =>
    rw [bytes_after_lsm engine, Lsm.after_of_closed closed]
    exact .inl (atRest.change (get?_put_self _ _ _) closed rfl)
  | close =>
    have refused : handle.close = (.error .closed, handle) := if_pos closed
    rw [bytes_close_lsm engine]
    dsimp only [lsmStorage]
    rw [refused]
    exact .inl (atRest.change (get?_put_self _ _ _) closed rfl)
  | @attempt other mayTry _ rejects =>
    cases other with
    | lsm other =>
      rcases atRest.attempt codec sameDir mayTry rejects with
        ⟨_, opened, after, opens, inUse, _⟩ | ⟨_, fault, after, refused, stillAtRest⟩
      · rw [openConfig, opens]
        exact .inr ⟨_, _, _, inUse⟩
      · rw [openConfig, refused]
        exact .inl stillAtRest
    | _ => cases mayTry
  | passes passing => exact .inl (atRest.passes passing)

end DirectoryAtRest

/-! ## The engine -/

/-- What the log-structured engine shows for its contents to outlive its handles. -/
theorem durable_lsm (sound : aead.Sound) (sameDir : options.dir = some dir) :
    Durable aead codec slot (.lsm options)
      (fun host => ∃ used openedAt handle,
        DirectoryInUse aead slot dir options used openedAt handle host)
      (fun shown host => ∃ left, DirectoryAtRest aead slot dir options left host ∧
        shown = (Lsm.storage aead codec).contents left) where
  isOpen_of_inUse := by
    rintro host ⟨used, openedAt, handle, inUse⟩
    rw [isOpen, inUse.engine]
    dsimp only
    rw [inUse.inOrder.opened]
    rfl
  isOpen_of_atRest := by
    rintro host shown ⟨left, atRest, _⟩
    exact atRest.isOpen
  step_inUse := by
    rintro host after ⟨used, openedAt, handle, inUse⟩ stepped room
    rcases inUse.step sound sameDir stepped room with ⟨later, still⟩ | ⟨left, atRest⟩
    · exact .inl ⟨used, openedAt, later, still⟩
    · exact .inr ⟨_, left, atRest, rfl⟩
  close := by
    rintro host ⟨used, openedAt, handle, inUse⟩
    rcases inUse.close codec with ⟨after, closed, atRest⟩
    rw [closed, contents_lsm inUse.engine]
    exact ⟨rfl, handle, atRest, rfl⟩
  step_atRest := by
    rintro host after shown ⟨left, atRest, same⟩ stepped
    rcases atRest.step sameDir stepped with still | inUse
    · exact .inl ⟨left, still, same⟩
    · exact .inr inUse
  attempt := by
    rintro host shown other ⟨left, atRest, rfl⟩ mayTry rejects
    cases other with
    | lsm other =>
      rcases atRest.attempt codec sameDir mayTry rejects with
        ⟨fits, handle, after, opens, inUse, same⟩ | ⟨unfit, fault, after, refused, stillAtRest⟩
      · rw [openConfig, opens]
        refine ⟨iff_of_true rfl fits, fun _ => ?_, fun different => absurd rfl different⟩
        exact (contents_lsm inUse.engine).trans same
      · rw [openConfig, refused]
        have notOk : (Except.error fault : Except OpenFault Unit) ≠ .ok () := fun same => by
          cases same
        exact ⟨iff_of_false notOk unfit, fun same => absurd same notOk,
          fun _ => ⟨left, stillAtRest, rfl⟩⟩
    | _ => cases mayTry

/-- Making a directory puts it in use. -/
theorem directoryInUse_of_open (sound : aead.Sound) {host opened : Host}
    (sameDir : options.dir = some dir) (lasting : options.temporary = false)
    (fresh : host.disk.item? dir = none)
    (made : host.openConfig aead slot (.lsm options) = (.ok (), opened)) :
    ∃ used openedAt handle, DirectoryInUse aead slot dir options used openedAt handle opened := by
  rw [openConfig, openLsm, sameDir] at made
  cases fits : Lsm.checkKey options with
  | error fault =>
    rw [fits] at made
    cases made
  | ok done =>
    rw [fits] at made
    dsimp only at made
    cases barred : host.disk.isBarred dir with
    | true =>
      rw [Disk.openDirectory, barred] at made
      cases made
    | false =>
      have found : host.disk.openDirectory dir options.compression =
          .ok { compression := options.compression } := by
        rw [Disk.openDirectory, barred, fresh]
        rfl
      rw [found] at made
      dsimp only at made
      cases opens : Lsm.open? aead options { compression := options.compression } host.supply.1 with
      | error error =>
        rw [opens] at made
        cases made
      | ok handle =>
        rw [opens] at made
        cases made
        exact ⟨options, _, handle, get?_put_self _ _ _, sameDir, lasting, .of_open sound opens,
          ⟨_, Disk.item?_put_self _ _ _⟩, Disk.isBarred_put barred _⟩

end Host
end TypedStore
