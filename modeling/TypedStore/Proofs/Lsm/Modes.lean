import TypedStore.Proofs.Cipher.Numbering
import TypedStore.Proofs.Contract.Adapter
import TypedStore.Proofs.Envelope.Beginnings
import TypedStore.Proofs.Lsm.Effects

/-!
# Directories opened in the other mode

A directory does not say whether its values are sealed.  It may be opened with an
encryption key after it was filled without one, or without one after it was filled
with one, and then a handle meets entries that were written in the other mode.

A handle with a key takes the first four bytes of a payload for the number of a data
key.  That number is so great that there is no such data key, and the entry is absent.
A handle without a key takes sealed bytes for a payload.  Their first byte is a small
integer, and the rest is not looked at: the entry is absent for the types that are made
of no integer, `Schema.takesSmall`, and shows that integer as every other type.  If the
rest were looked at, as the readers of keys do, no sealed bytes would be read at all.

`Lsm.History` is the life of a directory under handles in either mode, used through
typed layers, and keeps a record of the mode in which each entry was last written.
Nothing is assumed of the cipher.
-/

namespace TypedStore
namespace Lsm

variable {aead : Aead} {κ : Type} {codec : KeyCodec κ}

/-! ## What a handle writes -/

/-- Whether a handle seals what it writes. -/
def Protection.seals : Protection → Bool
  | .plain _ => false
  | .sealed _ => true

/-- Whether the data keys of a handle, or the records that it only keeps, are numbered. -/
def Protection.Numbered : Protection → Prop
  | .plain records => Vault.RecordsNumbered records
  | .sealed vault => vault.Numbered

/-- Whether bytes are what a handle of a mode stores: sealed bytes, marked with one of the
first data keys, or a payload. -/
def WrittenAs (seals : Bool) (most : Nat) (stored : Bytes) : Prop :=
  match seals with
  | true => Vault.MarkedWithin most stored
  | false => IsPayload stored

theorem WrittenAs.mono {seals : Bool} {most more : Nat} {stored : Bytes}
    (written : WrittenAs seals most stored) (le : most ≤ more) : WrittenAs seals more stored := by
  cases seals with
  | true => exact Vault.MarkedWithin.mono written le
  | false => exact written

/-- With fewer than `2 ^ 31` data keys bytes show in which mode they were stored. -/
theorem WrittenAs.mode_eq {first second : Bool} {most : Nat} {stored : Bytes}
    (one : WrittenAs first most stored) (other : WrittenAs second most stored)
    (few : most < 2 ^ 31) : first = second := by
  have apart : Vault.MarkedWithin most stored → ¬IsPayload stored := by
    intro marked isPayload
    rcases marked.head few with ⟨head, rest, rfl, small, _⟩
    rcases isPayload.head with ⟨_, _, same, great⟩
    cases same
    omega
  cases first <;> cases second
  · rfl
  · exact absurd one (apart other)
  · exact absurd other (apart one)
  · rfl

/-- What stays when a handle is used: its mode, its data keys and their numbers. -/
structure Protection.Follows (later earlier : Protection) : Prop where
  seals : later.seals = earlier.seals
  grown : earlier.records.size ≤ later.records.size
  numbered : later.records.size < Vault.capacity → earlier.Numbered → later.Numbered

namespace Protection.Follows

theorem refl (protection : Protection) : protection.Follows protection :=
  ⟨rfl, Nat.le_refl _, fun _ numbered => numbered⟩

theorem trans {latest later earlier : Protection} (second : latest.Follows later)
    (first : later.Follows earlier) : latest.Follows earlier where
  seals := second.seals.trans first.seals
  grown := Nat.le_trans first.grown second.grown
  numbered room numbered :=
    second.numbered room (first.numbered (Nat.lt_of_le_of_lt second.grown room) numbered)

/-- Locking a payload gives bytes of the mode, if it gives any. -/
theorem of_lock {value : Bytes} (isPayload : IsPayload value) {protection later : Protection}
    {result : Except CipherFault Bytes} (locked : protection.lock aead value = (result, later)) :
    later.Follows protection ∧ ∀ stored, result = .ok stored →
      later.records.size < Vault.capacity → protection.Numbered →
        WrittenAs later.seals later.records.size stored := by
  cases protection with
  | plain records =>
    cases locked
    refine ⟨refl _, ?_⟩
    rintro stored same - -
    cases same
    exact isPayload
  | «sealed» vault =>
    have grown := vault.size_encrypt_le aead value
    cases locked
    refine ⟨⟨rfl, grown, ?_⟩, ?_⟩
    · intro room numbered
      exact (Vault.Numbered.encrypt numbered (Nat.lt_of_le_of_lt grown room) value).1
    · intro stored same room numbered
      exact (Vault.Numbered.encrypt numbered (Nat.lt_of_le_of_lt grown room) value).2 stored same

end Protection.Follows

/-- What every use of a handle through a typed layer does: entries that were not there
before are in the mode of the handle. -/
structure Evolves (lsm after : Lsm) : Prop where
  closed : after.closed = lsm.closed
  protection : after.protection.Follows lsm.protection
  entries : after.protection.records.size < Vault.capacity → lsm.protection.Numbered →
    ∀ bytes stored, after.entries.get? bytes = some stored →
      lsm.entries.get? bytes = some stored ∨
        WrittenAs after.protection.seals after.protection.records.size stored

namespace Evolves

variable {lsm : Lsm}

theorem refl (lsm : Lsm) : Evolves lsm lsm :=
  ⟨rfl, .refl _, fun _ _ _ _ found => .inl found⟩

theorem trans {first second third : Lsm} (later : Evolves second third)
    (earlier : Evolves first second) : Evolves first third where
  closed := later.closed.trans earlier.closed
  protection := later.protection.trans earlier.protection
  entries := by
    intro room numbered bytes stored found
    have before := Nat.lt_of_le_of_lt later.protection.grown room
    rcases later.entries room (earlier.protection.numbered before numbered) bytes stored found with
      old | new
    · rcases earlier.entries before numbered bytes stored old with older | written
      · exact .inl older
      · rw [later.protection.seals]
        exact .inr (written.mono later.protection.grown)
    · exact .inr new

/-- Entries may go. -/
theorem holding {entries : Tree} (fewer : ∀ bytes stored, entries.get? bytes = some stored →
    lsm.entries.get? bytes = some stored) (count : Int) :
    Evolves lsm { lsm with entries, count } :=
  ⟨rfl, .refl _, fun _ _ bytes stored found => .inl (fewer bytes stored found)⟩

/-- The vault may make data keys. -/
theorem guarded {protection : Protection} (follows : protection.Follows lsm.protection) :
    Evolves lsm { lsm with protection } :=
  ⟨rfl, follows, fun _ _ _ _ found => .inl found⟩

theorem insertStored {protection : Protection} (follows : protection.Follows lsm.protection)
    {stored : Bytes} (written : protection.records.size < Vault.capacity →
      lsm.protection.Numbered → WrittenAs protection.seals protection.records.size stored)
    (bytes : Bytes) : Evolves lsm (({ lsm with protection } : Lsm).insertStored bytes stored) where
  closed := rfl
  protection := follows
  entries := by
    intro room numbered wanted other found
    change (lsm.entries.insert bytes stored).get? wanted = some other at found
    rw [Tree.get?_insert] at found
    split at found
    · cases found
      exact .inr (written room numbered)
    · exact .inl found

theorem of_effect {after : Lsm} (effect : Effect aead IsPayload lsm after) :
    Evolves lsm after := by
  cases effect with
  | lock isPayload locked => exact guarded (Protection.Follows.of_lock isPayload locked).1
  | write isPayload locked bytes =>
    rcases Protection.Follows.of_lock isPayload locked with ⟨follows, written⟩
    exact insertStored follows (written _ rfl) bytes
  | remove bytes =>
    unfold Lsm.removeStored
    split
    · refine holding ?_ _
      intro wanted stored found
      rw [Tree.get?_erase] at found
      split at found
      · cases found
      · exact found
    · exact refl lsm
  | drop enough =>
    refine holding ?_ _
    intro bytes stored found
    have member := Tree.mem_entries_iff.mpr found
    exact Tree.mem_entries_iff.mp (List.mem_of_mem_drop member)
  | clear =>
    refine holding ?_ _
    intro bytes stored found
    cases found

theorem of_effects {after : Lsm}
    (effects : Relation.ReflTransGen (Effect aead IsPayload) lsm after) : Evolves lsm after := by
  induction effects with
  | refl => exact refl lsm
  | tail _ effect hypothesis => exact (of_effect effect).trans hypothesis

theorem maintain (aead : Aead) (lsm : Lsm) : Evolves lsm (lsm.maintain aead) := by
  unfold Lsm.maintain
  split
  · exact refl lsm
  · split
    · exact refl lsm
    · next vault kind =>
      have grown := vault.size_rotateIfStale_le aead
      apply guarded
      rw [kind]
      refine ⟨rfl, grown, ?_⟩
      intro room numbered
      exact Vault.Numbered.rotateIfStale numbered aead (Nat.lt_of_le_of_lt grown room)

theorem surround (outside : Surroundings) (lsm : Lsm) : Evolves lsm (lsm.surround outside) := by
  unfold Lsm.surround
  split
  · exact refl lsm
  · next vault kind =>
    apply guarded
    rw [kind]
    exact ⟨rfl, Nat.le_refl _, fun _ numbered => Vault.Numbered.supplied numbered outside⟩

end Evolves

/-- One use of a handle: a call of a typed layer with any types, codecs and registry, a
round of maintenance, or another reading of clocks and supplies. -/
inductive Used (aead : Aead) : Lsm → Lsm → Prop where
  | call {κ : Type} (codec : KeyCodec κ) (schema : Schema) (registry : Registry)
    (call : StorageCall κ Datum) (lsm : Lsm) :
    Used aead lsm ((Adapter.storage schema.valueCodec (Lsm.storage aead codec)).after call
      (registry, lsm)).2
  | maintain (lsm : Lsm) : Used aead lsm (lsm.maintain aead)
  | surround (outside : Surroundings) (lsm : Lsm) : Used aead lsm (lsm.surround outside)

theorem Evolves.of_used {lsm after : Lsm} (used : Used aead lsm after) : Evolves lsm after := by
  cases used with
  | call codec schema registry call =>
    have fits : ∀ value registry payload, (encodeValue schema value registry).1 = .ok payload →
        IsPayload payload := fun value registry _ written => ⟨schema, value, registry, written⟩
    exact .of_effects (effects_typed fits registry call lsm)
  | maintain => exact .maintain aead lsm
  | surround outside => exact .surround outside lsm

theorem Evolves.of_run {lsm after : Lsm} (run : Relation.ReflTransGen (Used aead) lsm after) :
    Evolves lsm after := by
  induction run with
  | refl => exact refl lsm
  | tail _ used hypothesis => exact (of_used used).trans hypothesis

/-! ## Directories -/

/-- A directory, and for each key whether the entry was last written by a handle that
seals. -/
structure Directory where
  image : Image
  sealedAt : Bytes → Bool

/-- The directory of a handle that was opened on another one.  Entries that are not stored
as before were written by the handle; for the others `WrittenAs.mode_eq` says that the mode
is still the same. -/
def Directory.left (directory : Directory) (lsm : Lsm) : Directory where
  image := lsm.image
  sealedAt bytes :=
    if lsm.entries.get? bytes = directory.image.entries.get? bytes then directory.sealedAt bytes
    else lsm.protection.seals

/-- The lives of directories: each is made empty, and is opened again and again, with a
key or without, and used. -/
inductive History (aead : Aead) : Directory → Prop where
  | fresh (compression : Bool) : History aead ⟨{ compression }, fun _ => false⟩
  | session {directory : Directory} {options : LsmOptions} {outside : Surroundings}
    {first lsm : Lsm} (earlier : History aead directory)
    (opened : open? aead options directory.image outside = .ok first)
    (used : Relation.ReflTransGen (Used aead) first lsm) : History aead (directory.left lsm)

/-- Whether records and entries are as the modes of their writers demand. -/
structure Directory.Formed (directory : Directory) : Prop where
  records : Vault.RecordsNumbered directory.image.records
  entries : ∀ bytes stored, directory.image.entries.get? bytes = some stored →
    WrittenAs (directory.sealedAt bytes) directory.image.records.size stored

theorem Protection.Numbered.recordsNumbered {protection : Protection}
    (numbered : protection.Numbered) : Vault.RecordsNumbered protection.records := by
  cases protection with
  | plain records => exact numbered
  | «sealed» vault => exact Vault.Numbered.recordsNumbered numbered

/-- What opening makes of a directory. -/
theorem open?_spec {options : LsmOptions} {image : Image} {outside : Surroundings} {lsm : Lsm}
    (opened : open? aead options image outside = .ok lsm) :
    lsm.closed = false ∧ lsm.entries = image.entries ∧
      image.records.size ≤ lsm.protection.records.size ∧
      (Vault.RecordsNumbered image.records → lsm.protection.Numbered) := by
  rcases open?_eq_ok_iff.mp opened with ⟨_, _, protection, chosen, rfl⟩
  refine ⟨rfl, rfl, ?_⟩
  split at chosen
  · rw [chosen]
    exact ⟨Nat.le_refl _, fun numbered => numbered⟩
  · rcases chosen with ⟨vault, vaultOpened, rfl⟩
    exact ⟨Vault.size_le_of_open vaultOpened,
      fun numbered => Vault.Numbered.of_open numbered vaultOpened⟩

namespace Directory.Formed

variable {directory : Directory}

/-- A session keeps a directory in form. -/
theorem left (formed : directory.Formed) {options : LsmOptions} {outside : Surroundings}
    {first lsm : Lsm} (opened : open? aead options directory.image outside = .ok first)
    (evolves : Evolves first lsm) (room : lsm.protection.records.size < Vault.capacity) :
    lsm.protection.Numbered ∧ (directory.left lsm).Formed := by
  rcases open?_spec opened with ⟨_, entries, grown, numberedAtFirst⟩
  have numbered := numberedAtFirst formed.records
  have later := evolves.protection.numbered room numbered
  refine ⟨later, later.recordsNumbered, ?_⟩
  intro bytes stored found
  change lsm.entries.get? bytes = some stored at found
  unfold Directory.left
  dsimp only
  split
  · next same =>
    rw [found] at same
    exact (formed.entries bytes stored same.symm).mono
      (Nat.le_trans grown evolves.protection.grown)
  · next different =>
    rcases evolves.entries room numbered bytes stored found with old | new
    · rw [entries] at old
      exact absurd (found.trans old.symm) different
    · exact new

/-- Every directory is in form while there are numbers left. -/
theorem of_history (history : History aead directory)
    (room : directory.image.records.size < Vault.capacity) : directory.Formed := by
  induction history with
  | fresh compression =>
    constructor
    · intro entry member
      cases member
    · intro bytes stored found
      cases found
  | @session directory options outside first lsm earlier opened used hypothesis =>
    have evolves := Evolves.of_run used
    rcases open?_spec opened with ⟨_, _, grown, _⟩
    have before := Nat.le_trans grown evolves.protection.grown
    exact ((hypothesis (Nat.lt_of_le_of_lt before room)).left opened evolves room).2

end Directory.Formed

/-! ## Readings -/

/-- What a typed reader makes of the bytes that a handle has stored. -/
def valueOf (aead : Aead) (protection : Protection) (schema : Schema) (registry : Registry)
    (stored : Bytes) : Option Datum :=
  (protection.unlock aead stored).toOption.bind fun payload =>
    (decodeValue schema payload registry).toOption

/-- What a typed reader makes of bytes that were stored in the other mode: without a key
the integer that is their first byte, with a key nothing. -/
def strayValue (protection : Protection) (schema : Schema) (stored : Bytes) : Option Datum :=
  match protection with
  | .plain _ => schema.ofWire? (.int (.ofByte (stored.headD 0)))
  | .sealed _ => none

/-- What a typed reader makes of an entry, by the mode in which it was written. -/
def Directory.valueAt (aead : Aead) (directory : Directory) (protection : Protection)
    (schema : Schema) (registry : Registry) (bytes stored : Bytes) : Option Datum :=
  if directory.sealedAt bytes = protection.seals then valueOf aead protection schema registry stored
  else strayValue protection schema stored

theorem valueOf_of_stray {protection : Protection} (numbered : protection.Numbered)
    (few : protection.records.size < 2 ^ 31) {mode : Bool} (stray : mode ≠ protection.seals)
    {stored : Bytes} (written : WrittenAs mode protection.records.size stored) (schema : Schema)
    (registry : Registry) :
    valueOf aead protection schema registry stored = strayValue protection schema stored := by
  cases protection with
  | plain records =>
    have isSealed : mode = true := eq_true_of_ne_false stray
    subst isSealed
    rcases Vault.MarkedWithin.head written few with ⟨first, rest, rfl, small, _⟩
    exact decodeValue_small small rest schema registry
  | «sealed» vault =>
    have isPlain : mode = false := eq_false_of_ne_true stray
    subst isPlain
    rcases IsPayload.head written with ⟨first, rest, rfl, great⟩
    unfold valueOf Protection.unlock
    dsimp only
    rw [Vault.Numbered.decrypt_eq_none numbered few great rest]
    rfl

/-- A stray entry shows something to readers without a key, of types that are made of
integers. -/
theorem isSome_strayValue {protection : Protection} (few : protection.records.size < 2 ^ 31)
    {mode : Bool} (stray : mode ≠ protection.seals) {stored : Bytes}
    (written : WrittenAs mode protection.records.size stored) (schema : Schema) :
    (strayValue protection schema stored).isSome = (!protection.seals && schema.takesSmall) := by
  cases protection with
  | plain records =>
    have isSealed : mode = true := eq_true_of_ne_false stray
    subst isSealed
    rcases Vault.MarkedWithin.head written few with ⟨first, rest, rfl, small, _⟩
    have low : 0 ≤ (WireInt.ofByte first).val := Int.natCast_nonneg _
    have high : (WireInt.ofByte first).val < 0x80 := Int.ofNat_lt.mpr small
    exact Schema.isSome_ofWire?_small low high schema
  | «sealed» vault => rfl

theorem load_typed_eq {lsm : Lsm} (opened : lsm.closed = false) (codec : KeyCodec κ)
    (schema : Schema) (registry : Registry) (key : κ) :
    ((Adapter.storage schema.valueCodec (Lsm.storage aead codec)).load key (registry, lsm)).1 =
      (codec.bytes? key).bind fun bytes => (lsm.entries.get? bytes).bind
        (valueOf aead lsm.protection schema registry) := by
  change (lsm.load aead codec key).bind _ = _
  unfold Lsm.load
  rw [opened]
  cases codec.bytes? key with
  | none => rfl
  | some bytes =>
    change ((lsm.entries.get? bytes).bind _).bind _ = (lsm.entries.get? bytes).bind _
    rw [Option.bind_assoc]
    rfl

theorem range_typed_eq {lsm : Lsm} (opened : lsm.closed = false) (codec : KeyCodec κ)
    (schema : Schema) (registry : Registry) {α : Type} (visit : Visitor κ Datum α) (start : α) :
    ((Adapter.storage schema.valueCodec (Lsm.storage aead codec)).range visit start
        (registry, lsm)).1 =
      (visit.walk (lsm.entries.entries.filterMap fun entry => do
        let key ← codec.key? entry.1
        let value ← valueOf aead lsm.protection schema registry entry.2
        return (key, value)) start).1 := by
  change ((Adapter.readableOnly schema.valueCodec registry visit).walk
    (lsm.visible aead codec) start).1 = _
  rw [Adapter.walk_readableOnly]
  unfold Lsm.visible
  rw [opened, if_neg Bool.false_ne_true, List.filterMap_filterMap]
  congr 3
  funext entry
  unfold readEntry valueOf
  cases codec.key? entry.1 with
  | none => rfl
  | some key =>
    cases (lsm.protection.unlock aead entry.2).toOption with
    | none => rfl
    | some payload =>
      change Option.map _ (decodeValue schema payload registry).toOption =
        (decodeValue schema payload registry).toOption.bind _
      cases (decodeValue schema payload registry).toOption <;> rfl

/-- After any life of a directory, with any cipher, and with fewer than `2 ^ 31` data keys:
readers of any type see of each entry what it holds or, if it was written in the other
mode, its stray value.  With a key there is none.  Without a key there is one for exactly
the types that are made of small integers, and there would be none for any type if bytes
behind the first value were refused. -/
theorem entries_in_the_other_mode {directory : Directory} (history : History aead directory)
    {options : LsmOptions} {outside : Surroundings} {first lsm : Lsm}
    (opened : open? aead options directory.image outside = .ok first)
    (used : Relation.ReflTransGen (Used aead) first lsm)
    (few : lsm.protection.records.size < 2 ^ 31) (codec : KeyCodec κ) (schema : Schema)
    (registry : Registry) :
    let typed := Adapter.storage schema.valueCodec (Lsm.storage aead codec)
    let valueAt := (directory.left lsm).valueAt aead lsm.protection schema registry
    (∀ key, (typed.load key (registry, lsm)).1 =
      (codec.bytes? key).bind fun bytes => (lsm.entries.get? bytes).bind (valueAt bytes)) ∧
    (∀ {α : Type} (visit : Visitor κ Datum α) (start : α),
      (typed.range visit start (registry, lsm)).1 =
        (visit.walk (lsm.entries.entries.filterMap fun entry => do
          let key ← codec.key? entry.1
          let value ← valueAt entry.1 entry.2
          return (key, value)) start).1) ∧
    ∀ bytes stored, lsm.entries.get? bytes = some stored →
      ((directory.left lsm).sealedAt bytes ≠ lsm.protection.seals →
        (strayValue lsm.protection schema stored).isSome =
          (!lsm.protection.seals && schema.takesSmall)) ∧
      ((directory.left lsm).sealedAt bytes = true →
        ∃ number rest, Wire.read Wire.maxDepth stored = some (.int number, rest) ∧ rest ≠ []) := by
  have evolves := Evolves.of_run used
  have room : lsm.protection.records.size < Vault.capacity :=
    Nat.lt_trans few (by decide)
  rcases open?_spec opened with ⟨isOpen, _, grown, _⟩
  have before := Nat.lt_of_le_of_lt (Nat.le_trans grown evolves.protection.grown) room
  rcases (Directory.Formed.of_history history before).left opened evolves room with
    ⟨numbered, formed⟩
  have stillOpen := evolves.closed.trans isOpen
  have values : ∀ bytes stored, lsm.entries.get? bytes = some stored →
      valueOf aead lsm.protection schema registry stored =
        (directory.left lsm).valueAt aead lsm.protection schema registry bytes stored := by
    intro bytes stored found
    unfold Directory.valueAt
    split
    · rfl
    · next stray =>
      exact valueOf_of_stray numbered few stray (formed.entries bytes stored found) schema registry
  refine ⟨?_, ?_, ?_⟩
  · intro key
    rw [load_typed_eq stillOpen]
    apply Option.bind_congr
    intro bytes _
    apply Option.bind_congr
    intro stored found
    exact values bytes stored found
  · intro α visit start
    rw [range_typed_eq stillOpen]
    congr 2
    apply List.filterMap_congr
    rintro ⟨bytes, stored⟩ member
    rw [values bytes stored (Tree.mem_entries_iff.mp member)]
  · intro bytes stored found
    have written := formed.entries bytes stored found
    refine ⟨fun stray => isSome_strayValue few stray written schema, ?_⟩
    intro isSealed
    rw [isSealed] at written
    rcases Vault.MarkedWithin.head written few with ⟨head, rest, rfl, small, goesOn⟩
    exact ⟨_, rest, Wire.read_small small _ rest, goesOn⟩

/-! ## One number in either mode -/

/-- Clocks and supplies that always give the same. -/
def steady : Surroundings :=
  ⟨.constant 0, .constant ⟨Bytes.ofNat nonceLength 0, Bytes.length_ofNat _ _⟩,
    .constant ⟨Bytes.ofNat 32 0, Bytes.length_ofNat _ _⟩⟩

/-- Settings with a key. -/
def keyed : LsmOptions :=
  { encryptionKey := some (List.replicate 16 7) }

/-- The handle that is opened with the key on an empty directory. -/
def emptySealed : Lsm where
  entries := .empty
  protection := .sealed (Vault.rotate .labelled
    { master := List.replicate 16 7, rotation := .ofSeconds 864000, records := .empty,
      keys := .empty, active := 0, createdAt := 0, outside := steady })
  compression := false
  count := 0
  closed := false

/-- The handle that is opened without a key on an empty directory. -/
def emptyPlain : Lsm where
  entries := .empty
  protection := .plain .empty
  compression := false
  count := 0
  closed := false

/-- A typed layer over a handle, with texts as keys. -/
def layer (schema : Schema) : Storage (Registry × Lsm) Datum Datum :=
  Adapter.storage schema.valueCodec (Lsm.storage .labelled Schema.text.keyCodec)

/-- The directory of a handle through which the number 77 was stored. -/
def withNumber (lsm : Lsm) : Directory :=
  Directory.left ⟨{}, fun _ => false⟩
    ((layer (.int .i64)).after (.store (.text "a") (.int (.ofByte 77))) (.empty, lsm)).2

/-- The sealed number under a handle without a key. -/
def unkeyed : Lsm :=
  { emptyPlain with
    entries := (withNumber emptySealed).image.entries
    protection := .plain (withNumber emptySealed).image.records
    count := 1 }

/-- The plain number under a handle with a key. -/
def rekeyed : Lsm :=
  { emptySealed with
    entries := (withNumber emptyPlain).image.entries
    count := 1 }

theorem history_withNumber {options : LsmOptions} {lsm : Lsm}
    (opened : open? .labelled options {} steady = .ok lsm) :
    History .labelled (withNumber lsm) :=
  .session (.fresh false) opened
    (.single (.call Schema.text.keyCodec (.int .i64) .empty (.store (.text "a") _) lsm))

/-- The number was stored with a key, and without it reads as zero, as a number and as a
dynamic value, and is visited. -/
theorem sealed_number_reads_as_zero :
    History .labelled (withNumber emptySealed) ∧
      open? .labelled keyed {} steady = .ok emptySealed ∧
      (withNumber emptySealed).image.entries.entries.all
        (fun entry => (withNumber emptySealed).sealedAt entry.1) = true ∧
      (withNumber emptySealed).image.records.size = 1 ∧
      open? .labelled {} (withNumber emptySealed).image steady = .ok unkeyed ∧
      ((layer (.int .i64)).load (.text "a") (.empty, unkeyed)).1 = some (.int (.ofByte 0)) ∧
      ((layer .dyn).load (.text "a") (.empty, unkeyed)).1 =
        some (.dyn (.raw (.int (.ofByte 0)) none)) ∧
      ((layer (.int .i64)).range Visitor.collect [] (.empty, unkeyed)).1 =
        [(.text "a", .int (.ofByte 0))] := by
  have opened : open? .labelled keyed {} steady = .ok emptySealed := rfl
  exact ⟨history_withNumber opened, opened, rfl, rfl, rfl, rfl, rfl, rfl⟩

/-- Without the key the sealed number is no text, and with a key the plain number is no
number. -/
theorem numbers_in_the_other_mode :
    (History .labelled (withNumber emptySealed) ∧
      open? .labelled {} (withNumber emptySealed).image steady = .ok unkeyed ∧
      unkeyed.protection.records.size < 2 ^ 31 ∧
      ((layer .text).load (.text "a") (.empty, unkeyed)).1 = none) ∧
    (History .labelled (withNumber emptyPlain) ∧
      open? .labelled keyed (withNumber emptyPlain).image steady = .ok rekeyed ∧
      rekeyed.protection.records.size < 2 ^ 31 ∧
      ((layer (.int .i64)).load (.text "a") (.empty, rekeyed)).1 = none) := by
  have few : (1 : Nat) < 2 ^ 31 := by decide
  constructor
  · have sealing : open? .labelled keyed {} steady = .ok emptySealed := rfl
    have history := history_withNumber sealing
    have opened : open? .labelled {} (withNumber emptySealed).image steady = .ok unkeyed := rfl
    rcases entries_in_the_other_mode history opened .refl few Schema.text.keyCodec .text .empty with
      ⟨loads, _⟩
    exact ⟨history, opened, few, (loads (.text "a")).trans rfl⟩
  · have plainly : open? .labelled {} {} steady = .ok emptyPlain := rfl
    have history := history_withNumber plainly
    have opened : open? .labelled keyed (withNumber emptyPlain).image steady = .ok rekeyed := rfl
    rcases entries_in_the_other_mode history opened .refl few Schema.text.keyCodec (.int .i64)
      .empty with ⟨loads, _⟩
    exact ⟨history, opened, few, (loads (.text "a")).trans rfl⟩

end Lsm
end TypedStore
