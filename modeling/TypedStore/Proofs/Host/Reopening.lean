import TypedStore.Host
import TypedStore.Proofs.Lsm.Durability

/-!
# Closing and opening again

A history of a host, as far as one handle and its place on the disk go: calls,
closing, attempts to open, time that passes with the maintenance that is due,
and changes of the clock and the supplies to anything at all.  Attempts may be
made at any moment and with other settings than before, as `StoreConfig.MayTry`
says; some of them are refused.  Where an attempt tries a wrong key on a sealed
directory, the cipher must reject it, which `Host.Rejects` asks of that key and of
the records that are there.

`Host.Durable` is what an engine has to show for its contents to outlive its
handles: a condition under which a handle is in use, and one under which its
place rests with given contents.  Both last over every step, but that closing
leads from the first to the second, and an attempt that succeeds leads back.
-/

namespace TypedStore

/-- Whether settings keep their entries on the disk. -/
def StoreConfig.IsDurable : StoreConfig → Prop
  | .lsm options => options.dir.isSome = true ∧ options.temporary = false
  | .sqlite options => options.path.isSome = true
  | _ => False

/-- Whether settings may be tried on the place of others. -/
def StoreConfig.MayTry : (config other : StoreConfig) → Prop
  | .lsm options, .lsm other =>
    other.dir = options.dir ∧ other.temporary = false ∧ options.MayTry other
  | .sqlite options, .sqlite other =>
    other.path = options.path ∧
      SqliteOptions.folded other.table = SqliteOptions.folded options.table
  | _, _ => False

/-- Whether settings that are tried on the place of others open it. -/
def StoreConfig.Fits : (config other : StoreConfig) → Prop
  | .lsm options, .lsm other =>
    other.encryptionKey = options.encryptionKey ∧ other.compression = options.compression
  | .sqlite _, .sqlite other => other.check = .ok () ∧ other.isExecutable = true
  | _, _ => False

namespace Host

variable (aead : Aead) (codec : KeyCodec Datum) (slot : Nat)

/-- Whether the cipher rejects the key of settings that are tried on the place of others,
if that is a sealed directory and the key is not the one it is sealed under. -/
def Rejects (config other : StoreConfig) (host : Host) : Prop :=
  match config, other with
  | .lsm options, .lsm other =>
    ∀ dir ∈ options.dir, ∀ image, host.disk.item? dir = some (.directory image false) →
      options.Rejects aead other image.records
  | _, _ => True

/-- What readers of a handle see. -/
def contents (host : Host) : Contents Datum Bytes :=
  (bytes aead codec slot).contents host

/-- Whether a number has a handle that is not closed. -/
def isOpen (host : Host) : Bool :=
  match host.engines.get? slot with
  | some (.lsm _ _ handle) => !handle.closed
  | some (.sqlite _ _ handle) => !handle.closed
  | _ => false

/-- Whether a handle has not run out of numbers for data keys. -/
def HasRoom (host : Host) : Prop :=
  ∀ options openedAt handle, host.engines.get? slot = some (.lsm options openedAt handle) →
    handle.hasRoom

/-- One round of maintenance of a handle. -/
def maintain (host : Host) : Host :=
  match host.engines.get? slot with
  | some (.lsm options openedAt handle) =>
    host.put slot (.lsm options openedAt (handle.maintain aead))
  | _ => host

/-- What a host and a handle read from outside becomes something else. -/
def surround (now : Nat) (nonces : Source Nonce) (dataKeys : Source DataKey)
    (outside : Surroundings) (clock : Source Nat) (host : Host) : Host :=
  let host := { host with now, nonces, dataKeys }
  match host.engines.get? slot with
  | some (.lsm options openedAt handle) =>
    host.put slot (.lsm options openedAt (handle.surround outside))
  | some (.sqlite options own handle) => host.put slot (.sqlite options own { handle with clock })
  | _ => host

/-- What happens to a host between calls: time passes, a handle is maintained, and
what is read from outside changes. -/
inductive Passes : Host → Host → Prop where
  | elapse (nanos : Nat) (host : Host) : Passes host (host.elapse aead nanos)
  | maintain (host : Host) : Passes host (host.maintain aead slot)
  | surround (now : Nat) (nonces : Source Nonce) (dataKeys : Source DataKey)
    (outside : Surroundings) (clock : Source Nat) (host : Host) :
    Passes host (host.surround slot now nonces dataKeys outside clock)

/-- One step of a history. -/
inductive Step (config : StoreConfig) : Host → Host → Prop where
  | call (call : StorageCall Datum Bytes) (host : Host) :
    Step config host ((bytes aead codec slot).after call host)
  | close (host : Host) : Step config host ((bytes aead codec slot).close host).2
  | attempt {other : StoreConfig} (mayTry : config.MayTry other) {host : Host}
    (rejects : host.Rejects aead config other) :
    Step config host (host.openConfig aead slot other).2
  | passes {host after : Host} (passing : Passes aead slot host after) : Step config host after

/-- Whether a history leads from one host to another, through hosts of some kind. -/
inductive Leads (config : StoreConfig) (through : Host → Prop) (first : Host) : Host → Prop where
  | here : Leads config through first first
  | step {host after : Host} (history : Leads config through first host)
    (step : Step aead codec slot config host after) (allowed : through after) :
    Leads config through first after

/-- What an engine shows for its contents to outlive its handles. -/
structure Durable (config : StoreConfig) (inUse : Host → Prop)
    (atRest : Contents Datum Bytes → Host → Prop) : Prop where
  isOpen_of_inUse : ∀ {host}, inUse host → host.isOpen slot = true
  isOpen_of_atRest : ∀ {host shown}, atRest shown host → host.isOpen slot = false
  step_inUse : ∀ {host after}, inUse host → Step aead codec slot config host after →
    HasRoom slot after → inUse after ∨ ∃ shown, atRest shown after
  close : ∀ {host}, inUse host → ((bytes aead codec slot).close host).1 = .ok () ∧
    atRest (host.contents aead codec slot) ((bytes aead codec slot).close host).2
  step_atRest : ∀ {host after shown}, atRest shown host →
    Step aead codec slot config host after → atRest shown after ∨ inUse after
  attempt : ∀ {host shown other}, atRest shown host → config.MayTry other →
    host.Rejects aead config other →
    ((host.openConfig aead slot other).1 = .ok () ↔ config.Fits other) ∧
      ((host.openConfig aead slot other).1 = .ok () →
        (host.openConfig aead slot other).2.contents aead codec slot = shown) ∧
      ((host.openConfig aead slot other).1 ≠ .ok () →
        atRest shown (host.openConfig aead slot other).2)

namespace Durable

variable {aead codec slot} {config : StoreConfig} {inUse : Host → Prop}
  {atRest : Contents Datum Bytes → Host → Prop}

/-- Along every history the handle is in use or its place rests. -/
theorem leads (durable : Durable aead codec slot config inUse atRest) {first host : Host}
    (started : inUse first)
    (history : Leads aead codec slot config (HasRoom slot) first host) :
    inUse host ∨ ∃ shown, atRest shown host := by
  induction history with
  | here => exact .inl started
  | step _ step room hypothesis =>
    rcases hypothesis with used | ⟨shown, resting⟩
    · exact durable.step_inUse used step room
    · rcases durable.step_atRest resting step with stillResting | used
      · exact .inr ⟨shown, stillResting⟩
      · exact .inl used

/-- As long as nothing opens it, a place rests with what it was closed with. -/
theorem rests (durable : Durable aead codec slot config inUse atRest) {first host : Host}
    {shown : Contents Datum Bytes} (closed : atRest shown first)
    (history : Leads aead codec slot config (fun host => host.isOpen slot = false) first host) :
    atRest shown host := by
  induction history with
  | here => exact closed
  | step _ step notOpen hypothesis =>
    rcases durable.step_atRest hypothesis step with resting | used
    · exact resting
    · rw [durable.isOpen_of_inUse used] at notOpen
      cases notOpen

/-- What is seen when a place is opened again is what was seen before closing. -/
theorem survives (durable : Durable aead codec slot config inUse atRest) {first host : Host}
    (started : inUse first) (history : Leads aead codec slot config (HasRoom slot) first host)
    (isOpen : host.isOpen slot = true) :
    ((bytes aead codec slot).close host).1 = .ok () ∧
      ∀ {later}, Leads aead codec slot config (fun host => host.isOpen slot = false)
          ((bytes aead codec slot).close host).2 later →
        ∀ {other}, config.MayTry other → later.Rejects aead config other →
          ((later.openConfig aead slot other).1 = .ok () ↔ config.Fits other) ∧
          ((later.openConfig aead slot other).1 = .ok () →
            (later.openConfig aead slot other).2.contents aead codec slot =
              host.contents aead codec slot) ∧
          ((later.openConfig aead slot other).1 ≠ .ok () →
            (later.openConfig aead slot other).2.isOpen slot = false) := by
  have used : inUse host := by
    rcases durable.leads started history with used | ⟨shown, resting⟩
    · exact used
    · rw [durable.isOpen_of_atRest resting] at isOpen
      cases isOpen
  rcases durable.close used with ⟨closed, resting⟩
  refine ⟨closed, ?_⟩
  intro later idle other mayTry rejects
  rcases durable.attempt (durable.rests resting idle) mayTry rejects with ⟨opens, shows, stays⟩
  exact ⟨opens, shows, fun refused => durable.isOpen_of_atRest (stays refused)⟩

end Durable

/-! ## Handles and places -/

theorem get?_put (host : Host) (engine : Engine) (wanted : Nat) :
    (host.put slot engine).engines.get? wanted =
      if wanted = slot then some engine else host.engines.get? wanted :=
  Listing.get?_insert host.engines slot engine wanted

theorem get?_put_self (host : Host) (engine : Engine) :
    (host.put slot engine).engines.get? slot = some engine := by
  rw [get?_put, if_pos rfl]

/-- A handle after rounds of maintenance at another time, if it is of an engine
that has any. -/
def aged (before now : Nat) (seconds : UInt64) : Engine → Engine
  | .lsm options openedAt handle =>
    .lsm options openedAt
      (maintainTimes aead (roundsDue options openedAt before now) (setClock seconds handle))
  | .sqlite options own handle => .sqlite options own { handle with clock := .constant now }
  | engine => engine

/-- Let time pass for one handle. -/
def ageEntry (before : Nat) (host : Host) : Nat × Engine → Host
  | (slot, engine) =>
    match engine with
    | .lsm options openedAt handle =>
      let rounds := roundsDue options openedAt before host.now
      host.put slot
        (.lsm options openedAt (maintainTimes aead rounds (setClock host.seconds handle)))
    | .sqlite options own handle =>
      host.put slot (.sqlite options own { handle with clock := .constant host.now })
    | _ => host

theorem elapse_eq_foldl (nanos : Nat) (host : Host) :
    host.elapse aead nanos = host.engines.entries.foldl (ageEntry aead host.now)
      { host with now := host.now + nanos } := rfl

theorem ageEntry_spec (before : Nat) {host : Host} {slot : Nat} {engine : Engine}
    (held : host.engines.get? slot = some engine) :
    (ageEntry aead before host (slot, engine)).disk = host.disk ∧
      (ageEntry aead before host (slot, engine)).now = host.now ∧
      ∀ wanted, (ageEntry aead before host (slot, engine)).engines.get? wanted =
        if wanted = slot then some (aged aead before host.now host.seconds engine)
        else host.engines.get? wanted := by
  have unchanged : ∀ wanted, host.engines.get? wanted =
      if wanted = slot then some engine else host.engines.get? wanted := by
    intro wanted
    split
    · next same =>
      rw [same]
      exact held
    · rfl
  cases engine with
  | lsm options openedAt handle => exact ⟨rfl, rfl, get?_put slot host _⟩
  | sqlite options own handle => exact ⟨rfl, rfl, get?_put slot host _⟩
  | _ => exact ⟨rfl, rfl, unchanged⟩

theorem foldl_ageEntry (before : Nat) (entries : List (Nat × Engine)) (host : Host)
    (distinct : (entries.map Prod.fst).Nodup)
    (held : ∀ entry ∈ entries, host.engines.get? entry.1 = some entry.2) :
    (entries.foldl (ageEntry aead before) host).disk = host.disk ∧
      ∀ wanted, (entries.foldl (ageEntry aead before) host).engines.get? wanted =
        if wanted ∈ entries.map Prod.fst
        then (host.engines.get? wanted).map (aged aead before host.now host.seconds)
        else host.engines.get? wanted := by
  induction entries generalizing host with
  | nil => exact ⟨rfl, fun wanted => (if_neg List.not_mem_nil).symm⟩
  | cons entry rest hypothesis =>
    rcases entry with ⟨slot, engine⟩
    have parts := List.nodup_cons.mp distinct
    have here := held (slot, engine) List.mem_cons_self
    rcases ageEntry_spec aead before here with ⟨disk, now, engines⟩
    have seconds : (ageEntry aead before host (slot, engine)).seconds = host.seconds := by
      rw [Host.seconds, now]
      rfl
    have heldRest : ∀ entry ∈ rest,
        (ageEntry aead before host (slot, engine)).engines.get? entry.1 = some entry.2 := by
      intro entry member
      have different : entry.1 ≠ slot := by
        intro same
        apply parts.1
        rw [← same]
        exact List.mem_map.mpr ⟨entry, member, rfl⟩
      rw [engines, if_neg different]
      exact held entry (List.mem_cons_of_mem _ member)
    rcases hypothesis _ parts.2 heldRest with ⟨diskRest, enginesRest⟩
    rw [List.foldl_cons]
    refine ⟨diskRest.trans disk, ?_⟩
    intro wanted
    rw [enginesRest, engines, now, seconds, List.map_cons]
    by_cases same : wanted = slot
    · have unlisted : wanted ∉ rest.map Prod.fst := by
        rw [same]
        exact parts.1
      rw [if_neg unlisted, if_pos same, if_pos (List.mem_cons.mpr (.inl same)), same, here]
      rfl
    · have listed : wanted ∈ slot :: rest.map Prod.fst ↔ wanted ∈ rest.map Prod.fst :=
        List.mem_cons.trans (or_iff_right same)
      rw [if_neg same, if_congr listed rfl rfl]

/-- Time passes for every handle, and for nothing on the disk. -/
theorem elapse_spec (nanos : Nat) (host : Host) :
    (host.elapse aead nanos).disk = host.disk ∧
      ∀ slot, (host.elapse aead nanos).engines.get? slot =
        (host.engines.get? slot).map (aged aead host.now (host.now + nanos)
          ({ host with now := host.now + nanos } : Host).seconds) := by
  rcases foldl_ageEntry aead host.now host.engines.entries { host with now := host.now + nanos }
    host.engines.distinct (fun _ member => Listing.get?_of_mem member) with ⟨disk, engines⟩
  rw [elapse_eq_foldl]
  refine ⟨disk, ?_⟩
  intro slot
  rw [engines slot]
  split
  · rfl
  · next absent =>
    have none : host.engines.get? slot = none := Listing.find?_eq_none_iff.mpr absent
    rw [none]
    rfl

end Host
end TypedStore
