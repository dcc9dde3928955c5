import TypedStore.Proofs.Host.Directories
import TypedStore.Proofs.Host.Files

/-!
# What was stored survives

The table engine in a file and the log-structured engine in a directory of its
own, sealed or not, put together.  A history begins when the place is made and
may hold anything: calls, maintenance, clocks that jump, closing and opening, and
attempts that are refused.  However it came about, what readers see before
closing is what they see after the next opening, and it is settled exactly which
attempts open the place.

Two things are assumed of a sealed directory.  The cipher opens what was sealed
under the same key and nothing else, and at no point of the history have the
numbers of data keys run out.  Where a wrong key is tried, it must be rejected
for each record that the directory then holds; nothing is asked of the keys that
nobody tries.
-/

namespace TypedStore

/-- Whether the place of settings is not there yet.  A file may be, since it may
hold any table. -/
def StoreConfig.IsFreshOn (disk : Disk) : StoreConfig → Prop
  | .lsm options => ∀ dir ∈ options.dir, disk.item? dir = none
  | _ => True

namespace Host

variable {aead : Aead} {codec : KeyCodec Datum} {slot : Nat}

/-- Closing succeeds.  Whatever happens after it without opening the place, settings
that fit open it, and what is seen then is what was seen before closing;
settings that do not fit are refused and leave no handle. -/
theorem contents_survive_reopening (sound : aead.Sound) {config : StoreConfig}
    (durable : config.IsDurable) {start first : Host} (fresh : config.IsFreshOn start.disk)
    (made : start.openConfig aead slot config = (.ok (), first)) {host : Host}
    (history : Leads aead codec slot config (HasRoom slot) first host)
    (isOpen : host.isOpen slot = true) :
    ((bytes aead codec slot).close host).1 = .ok () ∧
      ∀ {later}, Leads aead codec slot config (fun host => host.isOpen slot = false)
          ((bytes aead codec slot).close host).2 later →
        ∀ {other}, config.MayTry other → later.Rejects aead config other →
          ((later.openConfig aead slot other).1 = .ok () ↔ config.Fits other) ∧
          ((later.openConfig aead slot other).1 = .ok () →
            (later.openConfig aead slot other).2.contents aead codec slot =
              host.contents aead codec slot) ∧
          ((later.openConfig aead slot other).1 ≠ .ok () →
            (later.openConfig aead slot other).2.isOpen slot = false) := by
  cases config with
  | lsm options =>
    rcases durable with ⟨hasDir, lasting⟩
    rcases Option.isSome_iff_exists.mp hasDir with ⟨dir, sameDir⟩
    have inUse := directoryInUse_of_open sound sameDir lasting (fresh dir sameDir) made
    exact (durable_lsm sound sameDir).survives inUse history isOpen
  | sqlite options =>
    rcases Option.isSome_iff_exists.mp durable with ⟨path, samePath⟩
    have inUse := fileInUse_of_open samePath made
    exact (durable_sqlite samePath).survives inUse history isOpen
  | _ => cases durable

/-! ## A sealed directory -/

/-- A host with nothing on its disk. -/
def bare : Host where
  now := 0
  nonces := .constant ⟨List.replicate 12 0, rfl⟩
  dataKeys := .constant ⟨List.replicate 32 0, rfl⟩

/-- Settings of a directory that is sealed under a key of one byte repeated. -/
def sealedUnder (byte : UInt8) : StoreConfig :=
  .lsm { dir := some "/store", temporary := false, encryptionKey := some (List.replicate 16 byte) }

/-- A host where a value was stored in such a directory, the clock jumped by more
than the rotation interval, and another value was stored under a new data key. -/
def withTwoKeys : Host :=
  let first := (bare.openConfig .labelled 0 (sealedUnder 7)).2
  let stored := (bytes .labelled Schema.text.keyCodec 0).after (.store (.text "a") [1]) first
  let jumped := stored.surround 0 0 bare.nonces bare.dataKeys
    ⟨.constant 1000000, bare.nonces, bare.dataKeys⟩ (.constant 0)
  (bytes .labelled Schema.text.keyCodec 0).after (.store (.text "b") [2]) jumped

theorem hasRoom_of_engine {host : Host} {used : LsmOptions} {openedAt : Nat} {handle : Lsm}
    (engine : host.engines.get? slot = some (.lsm used openedAt handle)) (room : handle.hasRoom) :
    HasRoom slot host := by
  intro other otherAt held found
  have same := engine.symm.trans found
  cases same
  exact room

/-- Nothing is asked of the right key. -/
theorem rejects_of_same {options other : LsmOptions}
    (same : other.encryptionKey = options.encryptionKey) (host : Host) :
    host.Rejects aead (.lsm options) (.lsm other) := by
  intro dir _ image _ master given key tried _ different
  have equal := tried.symm.trans (same.trans given)
  exact absurd (Option.some.inj equal) different

/-- After closing, another key is refused, and then the right one opens the
directory again with both values. -/
theorem withTwoKeys_survives :
    ((bytes .labelled Schema.text.keyCodec 0).close withTwoKeys).1 = .ok () ∧
      ∃ closed refused, closed = ((bytes .labelled Schema.text.keyCodec 0).close withTwoKeys).2 ∧
        (closed.openConfig .labelled 0 (sealedUnder 8)).1 ≠ .ok () ∧
        refused = (closed.openConfig .labelled 0 (sealedUnder 8)).2 ∧
        (refused.openConfig .labelled 0 (sealedUnder 7)).1 = .ok () ∧
        ((refused.openConfig .labelled 0 (sealedUnder 7)).2.contents .labelled
          Schema.text.keyCodec 0) = withTwoKeys.contents .labelled Schema.text.keyCodec 0 ∧
        (withTwoKeys.contents .labelled Schema.text.keyCodec 0).load (.text "a") = some [1] ∧
        (withTwoKeys.contents .labelled Schema.text.keyCodec 0).load (.text "b") = some [2] := by
  have made : bare.openConfig .labelled 0 (sealedUnder 7) =
      (.ok (), (bare.openConfig .labelled 0 (sealedUnder 7)).2) := rfl
  have history : Leads .labelled Schema.text.keyCodec 0 (sealedUnder 7) (HasRoom 0)
      (bare.openConfig .labelled 0 (sealedUnder 7)).2 withTwoKeys := by
    refine .step (.step (.step .here (.call (.store (.text "a") [1]) _) ?_)
      (.passes (.surround 0 bare.nonces bare.dataKeys
        ⟨.constant 1000000, bare.nonces, bare.dataKeys⟩ (.constant 0) _)) ?_)
      (.call (.store (.text "b") [2]) _) ?_
    all_goals
      apply hasRoom_of_engine rfl
      unfold Lsm.hasRoom
      decide +kernel
  have fresh : (sealedUnder 7).IsFreshOn bare.disk := fun _ _ => rfl
  have mayTry : ∀ byte, (sealedUnder 7).MayTry (sealedUnder byte) := fun _ => ⟨rfl, rfl, trivial⟩
  have otherKey : ¬(sealedUnder 7).Fits (sealedUnder 8) := by
    rintro ⟨same, _⟩
    exact absurd same (by decide)
  have durable : (sealedUnder 7).IsDurable := ⟨rfl, rfl⟩
  rcases contents_survive_reopening Aead.labelled_sound durable fresh made history rfl with
    ⟨closes, survives⟩
  have rejected : ((bytes .labelled Schema.text.keyCodec 0).close withTwoKeys).2.Rejects .labelled
      (sealedUnder 7) (sealedUnder 8) := by
    have left : ∃ image, ((bytes .labelled Schema.text.keyCodec 0).close withTwoKeys).2.disk.item?
        "/store" = some (.directory image false) ∧
        Aead.labelled.Rejects (List.replicate 16 8) image.records := by
      refine ⟨_, Disk.item?_put_self withTwoKeys.disk "/store" _, ?_⟩
      unfold Aead.Rejects
      decide +kernel
    rcases left with ⟨image, stored, rejects⟩
    intro dir sameDir found held master _ key tried _ _
    cases sameDir
    cases tried
    rw [stored] at held
    cases held
    exact rejects
  rcases survives .here (mayTry 8) rejected with ⟨refuses, _, staysClosed⟩
  have notOpened : (((bytes .labelled Schema.text.keyCodec 0).close withTwoKeys).2.openConfig
      .labelled 0 (sealedUnder 8)).1 ≠ .ok () := fun opened => otherKey (refuses.mp opened)
  have refused : Leads .labelled Schema.text.keyCodec 0 (sealedUnder 7)
      (fun host => host.isOpen 0 = false)
      ((bytes .labelled Schema.text.keyCodec 0).close withTwoKeys).2
      (((bytes .labelled Schema.text.keyCodec 0).close withTwoKeys).2.openConfig .labelled 0
        (sealedUnder 8)).2 :=
    .step .here (.attempt (mayTry 8) rejected) (staysClosed notOpened)
  rcases survives refused (mayTry 7) (rejects_of_same rfl _) with ⟨opens, shows, _⟩
  have opened := opens.mpr ⟨rfl, rfl⟩
  exact ⟨closes, _, _, rfl, notOpened, rfl, opened, shows opened, by decide +kernel,
    by decide +kernel⟩

end Host
end TypedStore
