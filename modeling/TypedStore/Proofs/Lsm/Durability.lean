import TypedStore.Proofs.Lsm.Protection
import TypedStore.Proofs.Storage.Calls

/-!
# What a directory keeps of its handle

A handle in order has a consistent vault under the key it was opened with, and a
right count.  Calls and maintenance keep it so, and then its directory holds
all there is to know: opening it again with the same key gives a handle with
the same entries that unlocks the same stored values, however many data keys
were made since.  Under any other key, or with another compression, the
directory does not open.

That a wrong key is noticed needs more of the cipher than `Aead.Sound`, but only
of the keys that are tried: `Aead.Rejects` says that none of the records opens
under a key.
-/

namespace TypedStore

/-- The nonce and the sealed data key in a record of a vault. -/
def Vault.sealedPart? (record : Bytes) : Option (Bytes × Bytes) :=
  (Bytes.take? timeLength record).bind fun parts => Bytes.take? nonceLength parts.2

/-- Whether nothing that these records hold sealed opens under a key. -/
def Aead.Rejects (aead : Aead) (key : Bytes) (records : Tree) : Prop :=
  ∀ entry ∈ records.entries, ∀ held ∈ Vault.sealedPart? entry.2,
    aead.unlock key held.1 held.2 = none

/-- A toy that puts the length of the key in front, so that keys of different lengths
seal nothing alike. -/
def Aead.labelled : Aead where
  lock key nonce plain := UInt8.ofNat key.length :: (key ++ (nonce ++ plain))
  unlock key nonce sealed := Bytes.after? (UInt8.ofNat key.length :: (key ++ nonce)) sealed

theorem Aead.labelled_sound : Aead.labelled.Sound := by
  intro key nonce sealed plain
  have lock : Aead.labelled.lock key nonce plain =
      (UInt8.ofNat key.length :: (key ++ nonce)) ++ plain := by
    rw [List.cons_append, List.append_assoc]
    rfl
  rw [lock]
  constructor
  · intro opened
    exact Bytes.eq_append_of_after? opened
  · rintro rfl
    exact Bytes.after?_append _ _

namespace Lsm

variable {aead : Aead} {κ : Type} {codec : KeyCodec κ}

/-- The master key of a handle that seals values. -/
def Protection.master? : Protection → Option Bytes
  | .plain _ => none
  | .sealed vault => some vault.master

/-- Whether a handle is open, as the settings ask, with its vault and its count
right. -/
structure InOrder (aead : Aead) (options : LsmOptions) (lsm : Lsm) : Prop where
  opened : lsm.closed = false
  keyFits : checkKey options = .ok ()
  consistent : lsm.protection.Consistent aead
  master : lsm.protection.master? = options.encryptionKey
  compression : lsm.compression = options.compression
  counted : lsm.count = lsm.entries.size

/-! ## The master key stays -/

theorem master_rotateIfStale (aead : Aead) (vault : Vault) :
    (vault.rotateIfStale aead).master = vault.master := by
  rw [Vault.rotateIfStale, Vault.checkAge]
  cases vault.isStaleAt vault.outside.clock.current <;> rfl

theorem master_lockActive (aead : Aead) (plain : Bytes) (vault : Vault) :
    (vault.lockActive aead plain).2.master = vault.master := by
  rw [Vault.lockActive]
  cases vault.keys.get? vault.active <;> rfl

theorem master?_lock (aead : Aead) (value : Bytes) (protection : Protection) :
    (protection.lock aead value).2.master? = protection.master? := by
  cases protection with
  | plain records => rfl
  | «sealed» vault =>
    change some (vault.encrypt aead value).2.master = some vault.master
    rw [Vault.encrypt, Vault.checkAge]
    cases vault.isStaleAt vault.outside.clock.current with
    | false => exact congrArg some (master_lockActive aead value _)
    | true =>
      exact congrArg some ((master_lockActive aead value _).trans (master_rotateIfStale aead _))

/-! ## What keeps a handle in order -/

namespace InOrder

variable {options : LsmOptions} {lsm : Lsm}

/-- Other entries with the right count. -/
theorem holding (inOrder : lsm.InOrder aead options) {entries : Tree} {count : Int}
    (counted : count = entries.size) : InOrder aead options { lsm with entries, count } :=
  { inOrder with counted }

/-- Another protection under the same master key. -/
theorem guarded (inOrder : lsm.InOrder aead options) {protection : Protection}
    (consistent : protection.Consistent aead)
    (master : protection.master? = options.encryptionKey) :
    InOrder aead options { lsm with protection } :=
  { inOrder with consistent, master }

theorem locked (inOrder : lsm.InOrder aead options) (sound : aead.Sound) (value : Bytes)
    (room : (lsm.protection.lock aead value).2.ringSize < Vault.capacity) :
    InOrder aead options { lsm with protection := (lsm.protection.lock aead value).2 } := by
  rcases inOrder.consistent.lock sound value room with ⟨_, _, _, consistent, _⟩
  exact inOrder.guarded consistent ((master?_lock aead value _).trans inOrder.master)

theorem insertStored (inOrder : lsm.InOrder aead options) (bytes stored : Bytes) :
    InOrder aead options (lsm.insertStored bytes stored) := by
  apply inOrder.holding
  rw [Tree.size_insert, inOrder.counted]
  split <;> rfl

theorem notClosed (inOrder : lsm.InOrder aead options) : ¬lsm.closed = true := by
  rw [inOrder.opened]
  exact Bool.false_ne_true

theorem store (inOrder : lsm.InOrder aead options) (sound : aead.Sound) (key : κ) (value : Bytes)
    (room : hasRoom (lsm.store aead codec key value)) :
    InOrder aead options (lsm.store aead codec key value) := by
  rw [Lsm.store, if_neg inOrder.notClosed] at room ⊢
  cases spelled : codec.bytes? key with
  | none => exact inOrder
  | some bytes =>
    rw [spelled] at room
    dsimp only at room ⊢
    have later := inOrder.locked sound value
    cases result : lsm.protection.lock aead value with
    | mk stored protection =>
      rw [result] at room later
      cases stored with
      | error fault => exact later room
      | ok stored => exact (later room).insertStored bytes stored

theorem storeIfAbsent (inOrder : lsm.InOrder aead options) (sound : aead.Sound) (key : κ)
    (value : Bytes) (room : hasRoom (lsm.storeIfAbsent aead codec key value).2) :
    InOrder aead options (lsm.storeIfAbsent aead codec key value).2 := by
  rw [Lsm.storeIfAbsent, if_neg inOrder.notClosed] at room ⊢
  cases spelled : codec.bytes? key with
  | none => exact inOrder
  | some bytes =>
    rw [spelled] at room
    dsimp only at room ⊢
    have later := inOrder.locked sound value
    cases result : lsm.protection.lock aead value with
    | mk stored protection =>
      rw [result] at room later
      cases stored with
      | error fault => exact later room
      | ok stored =>
        dsimp only at room ⊢
        by_cases present : (lsm.entries.get? bytes).isSome = true
        · rw [if_pos present] at room ⊢
          exact later room
        · rw [if_neg present] at room ⊢
          exact (later room).insertStored bytes stored

theorem removeStored (inOrder : lsm.InOrder aead options) (bytes : Bytes) :
    InOrder aead options (lsm.removeStored bytes) := by
  rcases lsm.removeStored_spec bytes inOrder.counted with ⟨entries, count, protection, closed⟩
  have compression : (lsm.removeStored bytes).compression = lsm.compression := by
    rw [Lsm.removeStored]
    split <;> rfl
  refine ⟨closed.trans inOrder.opened, inOrder.keyFits, ?_, ?_,
    compression.trans inOrder.compression, ?_⟩
  · rw [protection]
    exact inOrder.consistent
  · rw [protection]
    exact inOrder.master
  · rw [entries]
    exact count

theorem delete (inOrder : lsm.InOrder aead options) (removed : List κ) :
    InOrder aead options (lsm.delete codec removed) := by
  rw [Lsm.delete, if_neg inOrder.notClosed]
  generalize removed.filterMap codec.bytes? = stored
  induction stored generalizing lsm with
  | nil => exact inOrder
  | cons bytes rest hypothesis => exact hypothesis (inOrder.removeStored bytes)

end InOrder

/-- No more entries are taken than there are. -/
theorem popFrom_le (aead : Aead) (codec : KeyCodec κ) (protection : Protection)
    (rows : List (Bytes × Bytes)) (taken : Nat) :
    (popFrom aead codec protection rows taken).2 ≤ taken + rows.length := by
  induction rows generalizing taken with
  | nil => exact Nat.le_refl _
  | cons row rest hypothesis =>
    rw [popFrom, List.length_cons]
    split
    · exact Nat.add_le_add_left (Nat.le_add_left 1 _) _
    · have more := hypothesis (taken + 1)
      omega

namespace InOrder

variable {options : LsmOptions} {lsm : Lsm}

theorem next (inOrder : lsm.InOrder aead options) :
    InOrder aead options (lsm.next aead codec).2 := by
  rw [Lsm.next, if_neg inOrder.notClosed]
  have most := popFrom_le aead codec lsm.protection lsm.entries.entries 0
  rw [Nat.zero_add] at most
  apply inOrder.holding
  rw [Tree.size, dropFirst, List.length_drop, inOrder.counted, Tree.size, Int.ofNat_sub most]

theorem clear (inOrder : lsm.InOrder aead options) : InOrder aead options lsm.clear := by
  rw [Lsm.clear, if_neg inOrder.notClosed]
  exact inOrder.holding rfl

/-- Every call keeps a handle in order. -/
theorem after (inOrder : lsm.InOrder aead options) (sound : aead.Sound)
    (call : StorageCall κ Bytes) (room : hasRoom ((Lsm.storage aead codec).after call lsm)) :
    InOrder aead options ((Lsm.storage aead codec).after call lsm) := by
  cases call with
  | load key => exact inOrder
  | store key value => exact inOrder.store sound key value room
  | storeIfAbsent key value => exact inOrder.storeIfAbsent sound key value room
  | delete removed => exact inOrder.delete removed
  | range visit start => exact inOrder
  | next => exact inOrder.next
  | keys => exact inOrder
  | len => exact inOrder
  | clear => exact inOrder.clear

end InOrder

/-! ## Time and maintenance -/

/-- A handle that reads other things from outside. -/
def surround (outside : Surroundings) (lsm : Lsm) : Lsm :=
  match lsm.protection with
  | .plain _ => lsm
  | .sealed vault => { lsm with protection := .sealed { vault with outside } }

theorem ringSize_maintain_le (aead : Aead) (lsm : Lsm) :
    lsm.protection.ringSize ≤ (lsm.maintain aead).protection.ringSize := by
  rw [maintain]
  split
  · exact Nat.le_refl _
  · split
    · exact Nat.le_refl _
    · next vault sealed =>
      rw [sealed]
      exact vault.ringSize_rotateIfStale_le aead

namespace InOrder

variable {options : LsmOptions} {lsm : Lsm}

theorem surround (inOrder : lsm.InOrder aead options) (outside : Surroundings) :
    InOrder aead options (lsm.surround outside) := by
  have consistent := inOrder.consistent
  have master := inOrder.master
  rw [Lsm.surround]
  split
  · exact inOrder
  · next vault sealed =>
    rw [sealed] at consistent master
    exact inOrder.guarded (consistent.follows_outside outside).consistent master

theorem maintain (inOrder : lsm.InOrder aead options) (sound : aead.Sound)
    (room : hasRoom (lsm.maintain aead)) : InOrder aead options (lsm.maintain aead) := by
  have before : hasRoom lsm := Nat.lt_of_le_of_lt (ringSize_maintain_le aead lsm) room
  have consistent := inOrder.consistent
  have master := inOrder.master
  rw [hasRoom] at before
  rw [Lsm.maintain, if_neg inOrder.notClosed]
  split
  · exact inOrder
  · next vault sealed =>
    rw [sealed] at consistent master before
    have follows := Vault.Consistent.rotateIfStale sound consistent before
    exact inOrder.guarded follows.consistent ((congrArg some follows.master).trans master)

end InOrder

/-! ## Opening again -/

theorem decrypt_congr {later earlier : Vault}
    (same : ∀ id, later.keys.get? id = earlier.keys.get? id) (stored : Bytes) :
    later.decrypt aead stored = earlier.decrypt aead stored := by
  rw [Vault.decrypt, Vault.decrypt]
  split
  · rfl
  · refine congrArg _ (funext fun id => ?_)
    rw [same]

/-- Readers see the entries, what unlocks of them, and the count. -/
theorem contents_congr {first second : Lsm} (closed : first.closed = second.closed)
    (entries : first.entries = second.entries) (count : first.count = second.count)
    (unlock : ∀ stored, first.protection.unlock aead stored = second.protection.unlock aead stored) :
    (Lsm.storage aead codec).contents first = (Lsm.storage aead codec).contents second := by
  have loads : (fun key => first.load aead codec key) = fun key => second.load aead codec key := by
    funext key
    rw [load, load, closed, entries]
    split
    · rfl
    · refine congrArg _ (funext fun bytes => congrArg _ (funext fun stored => ?_))
      rw [unlock]
  have keys : first.keys codec = second.keys codec := by
    rw [Lsm.keys, Lsm.keys, closed, entries]
  have len : first.len = second.len := by
    rw [Lsm.len, Lsm.len, closed, count]
  change Contents.mk _ _ _ = Contents.mk _ _ _
  rw [Contents.mk.injEq]
  exact ⟨loads, keys, len⟩

/-- A fresh directory opens into a handle in order. -/
theorem InOrder.of_open (sound : aead.Sound) {options : LsmOptions} {outside : Surroundings}
    {lsm : Lsm}
    (opened : open? aead options { compression := options.compression } outside = .ok lsm) :
    InOrder aead options lsm := by
  rcases open?_eq_ok_iff.mp opened with ⟨keyFits, _, protection, chosen, rfl⟩
  cases given : options.encryptionKey with
  | none =>
    rw [given] at chosen
    dsimp only at chosen
    rw [chosen]
    exact ⟨rfl, keyFits, trivial, given.symm, rfl, rfl⟩
  | some key =>
    rw [given] at chosen
    rcases chosen with ⟨vault, vaultOpened, rfl⟩
    rcases Vault.load?_empty sound key options.keyRotation outside with
      ⟨fresh, loaded, consistent, master, _⟩
    have same := (Vault.open?_eq_ok_iff.mp vaultOpened).2.symm.trans loaded
    rw [Except.ok.inj same]
    exact ⟨rfl, keyFits, consistent, (congrArg some master).trans given.symm, rfl, rfl⟩

theorem isKeyLength_of_checkKey {options : LsmOptions} {key : Bytes}
    (given : options.encryptionKey = some key) (fits : checkKey options = .ok ()) :
    Aead.isKeyLength key.length = true := by
  rw [checkKey, given] at fits
  dsimp only at fits
  split at fits
  · next good => exact good
  · cases fits

/-- With the same key and compression, whatever else is asked for, the directory
of a handle in order opens and shows the same. -/
theorem InOrder.reopen (codec : KeyCodec κ) {options other : LsmOptions} {lsm : Lsm}
    (inOrder : lsm.InOrder aead options) (sameKey : other.encryptionKey = options.encryptionKey)
    (sameCompression : other.compression = options.compression) (outside : Surroundings) :
    ∃ later, open? aead other lsm.image outside = .ok later ∧ InOrder aead options later ∧
      (Lsm.storage aead codec).contents later = (Lsm.storage aead codec).contents lsm := by
  have keyFits : checkKey other = .ok () := by
    have fits := inOrder.keyFits
    rw [checkKey] at fits ⊢
    rw [sameKey]
    exact fits
  have compression : other.compression = lsm.image.compression :=
    sameCompression.trans inOrder.compression.symm
  have consistent := inOrder.consistent
  have master := inOrder.master
  cases kind : lsm.protection with
  | plain records =>
    rw [kind] at master
    have opens : open? aead other lsm.image outside = .ok
        ⟨lsm.entries, .plain lsm.protection.records, lsm.compression, lsm.entries.size, false⟩ := by
      refine open?_eq_ok_iff.mpr ⟨keyFits, compression, _, ?_, rfl⟩
      rw [sameKey, ← master]
      rfl
    refine ⟨_, opens, ⟨rfl, inOrder.keyFits, trivial, master, inOrder.compression, rfl⟩, ?_⟩
    refine contents_congr inOrder.opened.symm rfl inOrder.counted.symm ?_
    intro stored
    rw [kind]
    rfl
  | «sealed» vault =>
    rw [kind] at master consistent
    rcases Vault.Consistent.reload consistent other.keyRotation outside with
      ⟨later, loaded, laterConsistent, laterMaster, _, sameRing, _⟩
    have masterFits : Aead.isKeyLength vault.master.length = true :=
      isKeyLength_of_checkKey master.symm inOrder.keyFits
    have opens : open? aead other lsm.image outside = .ok
        ⟨lsm.entries, .sealed later, lsm.compression, lsm.entries.size, false⟩ := by
      refine open?_eq_ok_iff.mpr ⟨keyFits, compression, _, ?_, rfl⟩
      rw [sameKey, ← master]
      refine ⟨later, ?_, rfl⟩
      change Vault.open? aead vault.master other.keyRotation lsm.protection.records outside = _
      rw [kind]
      exact Vault.open?_eq_ok_iff.mpr ⟨masterFits, loaded⟩
    refine ⟨_, opens, ⟨rfl, inOrder.keyFits, laterConsistent,
      (congrArg some laterMaster).trans master, inOrder.compression, rfl⟩, ?_⟩
    refine contents_congr inOrder.opened.symm rfl inOrder.counted.symm ?_
    intro stored
    rw [kind]
    exact decrypt_congr sameRing stored

/-! ## Keys that do not open -/

/-- What an open record holds opens under the key. -/
theorem exists_unlock_of_openRecord {master record : Bytes} {id : UInt32}
    {held : UInt64 × DataKey} (opened : Vault.openRecord aead master id record = .ok held) :
    ∃ part, Vault.sealedPart? record = some part ∧ aead.unlock master part.1 part.2 ≠ none := by
  rw [Vault.openRecord] at opened
  cases cut : Bytes.take? timeLength record with
  | none =>
    rw [cut] at opened
    cases opened
  | some parts =>
    rcases parts with ⟨time, wrapped⟩
    rw [cut] at opened
    rcases exists_of_bind_eq_ok opened with ⟨raw, unlocked, _⟩
    rw [Vault.unlock] at unlocked
    cases cutAgain : Bytes.take? nonceLength wrapped with
    | none =>
      rw [cutAgain] at unlocked
      cases unlocked
    | some part =>
      refine ⟨part, ?_, ?_⟩
      · rw [Vault.sealedPart?, cut]
        exact cutAgain
      · intro rejected
        rw [cutAgain] at unlocked
        dsimp only at unlocked
        rw [rejected] at unlocked
        cases unlocked

/-- A vault has records, so a key that all of them reject opens none. -/
theorem not_open?_of_rejects {vault : Vault} (consistent : vault.Consistent aead) {key : Bytes}
    (rejects : aead.Rejects key vault.records) {rotation : Duration} {outside : Surroundings}
    {later : Vault} : Vault.open? aead key rotation vault.records outside ≠ .ok later := by
  intro opened
  rcases consistent with ⟨held, kept, newestFound⟩
  rcases exists_of_bind_eq_ok (Vault.open?_eq_ok_iff.mp opened).2 with ⟨others, othersOpened, _⟩
  have othersKept := Vault.openRecords_eq_ok_iff.mp othersOpened
  have records := kept.records
  rw [Aead.Rejects] at rejects
  generalize vault.records.entries = rows at records othersKept rejects
  cases records with
  | nil => cases newestFound
  | cons first _ =>
    cases othersKept with
    | cons otherFirst _ =>
      rcases exists_unlock_of_openRecord otherFirst.2 with ⟨part, found, opens⟩
      exact opens (rejects _ List.mem_cons_self part found)

end Lsm

/-- Whether settings may be tried on a directory that was made with others: a
directory that is not sealed with no key or one that AES does not know, a sealed
one with any key. -/
def LsmOptions.MayTry (options other : LsmOptions) : Prop :=
  match options.encryptionKey, other.encryptionKey with
  | none, some key => Aead.isKeyLength key.length = false
  | some _, none => False
  | _, _ => True

/-- Whether the cipher rejects a wrong key that other settings try on the records of a
sealed directory. -/
def LsmOptions.Rejects (aead : Aead) (options other : LsmOptions) (records : Tree) : Prop :=
  ∀ master ∈ options.encryptionKey, ∀ key ∈ other.encryptionKey,
    Aead.isKeyLength key.length = true → key ≠ master → aead.Rejects key records

namespace Lsm

variable {aead : Aead}

/-- Only the key and the compression that it was made with open a directory. -/
theorem InOrder.same_of_open? {options other : LsmOptions} {lsm : Lsm}
    (inOrder : lsm.InOrder aead options)
    (mayTry : options.MayTry other) (rejects : options.Rejects aead other lsm.protection.records)
    {outside : Surroundings} {later : Lsm}
    (opened : open? aead other lsm.image outside = .ok later) :
    other.encryptionKey = options.encryptionKey ∧ other.compression = options.compression := by
  rcases open?_eq_ok_iff.mp opened with ⟨fits, compression, protection, chosen, _⟩
  refine ⟨?_, compression.trans inOrder.compression⟩
  rw [LsmOptions.MayTry] at mayTry
  cases given : options.encryptionKey with
  | none =>
    rw [given] at mayTry
    cases tried : other.encryptionKey with
    | none => rfl
    | some key =>
      rw [tried] at mayTry
      dsimp only at mayTry
      rw [isKeyLength_of_checkKey tried fits] at mayTry
      cases mayTry
  | some master =>
    rw [given] at mayTry
    cases tried : other.encryptionKey with
    | none =>
      rw [tried] at mayTry
      cases mayTry
    | some key =>
      rw [tried] at chosen
      rcases chosen with ⟨vault, vaultOpened, _⟩
      have consistent := inOrder.consistent
      have sameMaster := inOrder.master
      have wrong := rejects master given key tried (isKeyLength_of_checkKey tried fits)
      change Vault.open? aead key other.keyRotation lsm.protection.records outside = _
        at vaultOpened
      cases kind : lsm.protection with
      | plain records =>
        rw [kind, given] at sameMaster
        cases sameMaster
      | «sealed» inside =>
        rw [kind] at consistent vaultOpened wrong
        by_contra different
        have otherKey : key ≠ master := fun same => different (congrArg some same)
        exact not_open?_of_rejects consistent (wrong otherKey) vaultOpened

end Lsm
end TypedStore
