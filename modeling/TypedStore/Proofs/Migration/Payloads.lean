import Mathlib.Data.List.Forall2
import TypedStore.Proofs.Contract.Adapter
import TypedStore.Proofs.Envelope.Beginnings
import TypedStore.Proofs.Envelope.Exchange
import TypedStore.Proofs.Migration.Copies
import TypedStore.Proofs.Migration.Renaming

/-!
# Payloads in a migration

A migration between byte engines reads each payload as a dynamic value and writes
the value again.  Where the registry of the source knows none of the types, the value
is raw: its data and the name that they were stored under.  Such a value is written
as the payload that it was read from, by every registry, and leaves the registry as
it is.  So the run does to the engines what copying the payloads themselves would
do, `Migration.turns_typed`, and the rest is about finite maps of payloads.

Registries are numbered, and source and target may use the same one.  The engines
may be two or one; if it is one, the payloads are those that it had when the run read
them, since all are read before the first is written.
-/

namespace TypedStore

open Envelope

/-! ## Payloads that pass through a reader -/

/-- Whether a payload was written for a value of a type that a registry does not know,
with data that every reader takes. -/
inductive Foreign (registry : Registry) (payload : Bytes) : Prop where
  | intro {schema : Schema} {value : Datum} {writer : Registry} {data : Wire}
    {name : Option String} (written : (encodeValue schema value writer).1 = .ok payload)
    (envelope : envelopeOf schema value = some (data, name))
    (countable : data.lengthsFit = true)
    (short : ∀ text ∈ name, (Bytes.utf8 text).length < 0x100000000)
    (shallow : data.depth ≤ room)
    (unknown : ∀ text ∈ name, text ∉ registry.schemas.map Schema.tag)

/-- Whether a dynamic value is written as a payload, and nothing is registered. -/
def DynValue.Carries (value : DynValue) (payload : Bytes) : Prop :=
  ∀ registry, encodeDyn value registry = (.ok payload, registry)

/-- A payload of an unknown type is read as a value that is written as that payload. -/
theorem Foreign.exists_carries {registry : Registry} {payload : Bytes}
    (foreign : Foreign registry payload) :
    ∃ value : DynValue, decodeDyn payload registry = .ok value ∧ value.Carries payload := by
  rcases foreign with @⟨_, _, _, data, name, written, envelope, countable, short, shallow, unknown⟩
  rcases encodeValue_eq_ok written with ⟨_, _, same, rfl⟩
  rcases Prod.mk.inj (Option.some.inj (envelope.symm.trans same)) with ⟨rfl, rfl⟩
  refine ⟨.raw data name, ?_, fun _ => rfl⟩
  rw [decodeDyn, open?_write_wrap countable short, if_pos shallow]
  cases name with
  | none => rfl
  | some text => exact congrArg Except.ok (registry.decode_of_not_mem data (unknown text rfl))

namespace Migration

variable {ρ σ τ : Type}

/-! ## Turns on payloads -/

/-- Dynamic values in an engine of payloads, by one of the registries of a program. -/
def typed (number : Nat) (engine : Storage ρ String Bytes) :
    Storage ((Nat → Registry) × ρ) String DynValue :=
  (Adapter.storage dynCodec engine).within (fun state => (state.1 number, state.2))
    fun state layer => (Function.update state.1 number layer.1, layer.2)

/-- Whether entries are those of payloads, in order. -/
def Carried (entries : List (String × DynValue)) (rows : List (String × Bytes)) : Prop :=
  List.Forall₂ (fun entry row => entry.1 = row.1 ∧ entry.2.Carries row.2) entries rows

variable {engine : Storage ρ String Bytes} {settings : MigrationSettings} {verify : Bool}

/-- A value that carries a payload is stored as that payload. -/
theorem store_typed {value : DynValue} {payload : Bytes} (carries : value.Carries payload)
    (number : Nat) (key : String) (registries : Nat → Registry) (state : ρ) :
    (typed number engine).store key value (registries, state) =
      (registries, engine.store key payload state) := by
  simp only [typed, Storage.within, Adapter.storage, dynCodec, carries (registries number),
    Function.update_eq_self]

theorem load_typed (number : Nat) (key : String) (registries : Nat → Registry) (state : ρ) :
    ((typed number engine).load key (registries, state)).2 =
      (registries, (engine.load key state).2) := by
  simp only [typed, Storage.within, Adapter.storage, Function.update_eq_self]

/-- A turn does to the engine what a turn with the payload would do. -/
theorem Turn.outcome_typed {entry : String × DynValue} {row : String × Bytes}
    (sameKey : entry.1 = row.1) (carries : entry.2.Carries row.2) (number : Nat)
    (registries : Nat → Registry) (state : ρ) :
    (Turn.outcome (some ⟨typed number engine, true⟩) settings verify
        ⟨entry, registries, state⟩).2 =
      (registries, (Turn.outcome (some ⟨engine, true⟩) settings verify ⟨row, state⟩).2) := by
  rcases entry with ⟨key, value⟩
  rcases row with ⟨rowKey, payload⟩
  dsimp only at sameKey carries
  subst sameKey
  unfold Turn.outcome
  dsimp only
  cases settings.selects key with
  | false => rfl
  | true =>
    cases verify with
    | false => exact store_typed carries number _ registries state
    | true =>
      simp only [if_true, Turn.written, TypedMap.store, TypedMap.has, store_typed carries]
      exact load_typed number _ registries _

theorem turns_typed {entries : List (String × DynValue)} {rows : List (String × Bytes)}
    (carried : Carried entries rows) (number : Nat) (registries : Nat → Registry) (state : ρ) :
    (turns (some ⟨typed number engine, true⟩) settings verify entries (registries, state)).2 =
      (registries, (turns (some ⟨engine, true⟩) settings verify rows state).2) := by
  induction carried generalizing state with
  | nil => rfl
  | cons first _ hypothesis =>
    simp only [turns, Turn.outcome_typed first.1 first.2, hypothesis]

/-- Payloads of unknown types are walked over as values that carry them. -/
theorem carried_of_foreign {registry : Registry} {rows : List (String × Bytes)}
    (foreign : ∀ row ∈ rows, Foreign registry row.2) :
    Carried (rows.filterMap fun row =>
      (dynCodec.decode row.2 registry).toOption.map fun value => (row.1, value)) rows := by
  induction rows with
  | nil => exact .nil
  | cons row rest hypothesis =>
    rcases (foreign row List.mem_cons_self).exists_carries with ⟨value, decoded, carries⟩
    have read : dynCodec.decode row.2 registry = .ok value := decoded
    simp only [List.filterMap_cons, read, Except.toOption, Option.map_some]
    exact .cons ⟨rfl, carries⟩
      (hypothesis fun other member => foreign other (List.mem_cons_of_mem _ member))

theorem Carried.map_fst {entries : List (String × DynValue)} {rows : List (String × Bytes)}
    (carried : Carried entries rows) : entries.map Prod.fst = rows.map Prod.fst := by
  induction carried with
  | nil => rfl
  | cons first _ hypothesis => exact congrArg₂ List.cons first.1 hypothesis

section Walk

variable {known : String → Prop} {storable : Bytes → Prop} {safe : ρ → Prop}
  {represents : ρ → MapState String Bytes → Prop}

/-- Reading all entries of an engine of such payloads. -/
theorem entries_typed (refines : engine.Refines known storable safe represents) {state : ρ}
    {payloads : Listing String Bytes} (represented : represents state (some payloads))
    (number : Nat) {registries : Nat → Registry}
    (foreign : ∀ row ∈ payloads.entries, Foreign (registries number) row.2) :
    ∃ rows : List (String × Bytes), rows.Perm payloads.entries ∧
      Carried ((typed number engine).entries (registries, state)).1 rows ∧
      ((typed number engine).entries (registries, state)).2.1 = registries ∧
      represents ((typed number engine).entries (registries, state)).2.2 (some payloads) := by
  rcases refines.range
    (Adapter.readableOnly dynCodec (registries number) Visitor.collect) [] represented with
    ⟨⟨rows, order, walked⟩, later⟩
  have carried := @carried_of_foreign (registries number) rows fun row member =>
    foreign row (order.mem_iff.mp member)
  refine ⟨rows, order, ?_, Function.update_eq_self number registries, later⟩
  change Carried (engine.range _ [] state).1.reverse rows
  rw [walked, Adapter.walk_readableOnly, Visitor.walk_collect, List.append_nil,
    List.reverse_reverse]
  exact carried

end Walk

/-- A run without a limit gives every entry a turn. -/
theorem run_unlimited {ν : Type} (source : TypedMap ρ String ν)
    (target : Option (TypedMap ρ String ν)) (noLimit : settings.timeoutSeconds = 0)
    (clock : Source Nat) (state : ρ) :
    ∃ stats later, run source target settings verify clock state =
      some (stats, later, (turns target settings verify (source.storage.entries state).1
        (source.storage.entries state).2).2) := by
  have unlimited : deadline? settings clock.current = some none := by
    rw [deadline?, MigrationSettings.timeout, if_pos noLimit]
  have all : ∀ (entries : List (String × ν)) (clock : Source Nat),
      examined none entries clock = entries := by
    intro entries
    induction entries with
    | nil => exact fun _ => rfl
    | cons entry rest hypothesis => exact fun clock => congrArg (entry :: ·) (hypothesis clock)
  rcases copyAll_eq target settings verify none (source.storage.entries state).1 {}
    clock.advance (source.storage.entries state).2 with ⟨later, copied⟩
  rw [all] at copied
  simp only [run, unlimited, Option.bind_eq_bind, Option.bind_some, copied]
  exact ⟨_, _, rfl⟩

/-- A run over dynamic values does to the engines what turns with the payloads do. -/
theorem run_typed {source : Storage ρ String Bytes} {known : String → Prop}
    {storable : Bytes → Prop} {safe : ρ → Prop} {represents : ρ → MapState String Bytes → Prop}
    (refines : source.Refines known storable safe represents) {state : ρ}
    {payloads : Listing String Bytes} (represented : represents state (some payloads))
    {registries : Nat → Registry} {first : Nat}
    (foreign : ∀ row ∈ payloads.entries, Foreign (registries first) row.2)
    (noLimit : settings.timeoutSeconds = 0) (overwrites : Bool) (target : Storage ρ String Bytes)
    (second : Nat) (verify : Bool) (clock : Source Nat) :
    ∃ stats later rows, rows.Perm payloads.entries ∧
      rows.map Prod.fst = ((typed first source).entries (registries, state)).1.map Prod.fst ∧
      represents ((typed first source).entries (registries, state)).2.2 (some payloads) ∧
      run ⟨typed first source, overwrites⟩ (some ⟨typed second target, true⟩) settings verify
          clock (registries, state) =
        some (stats, later, registries, (turns (some ⟨target, true⟩) settings verify rows
          ((typed first source).entries (registries, state)).2.2).2) := by
  rcases entries_typed refines represented first foreign with
    ⟨rows, order, carried, sameRegistries, stays⟩
  rcases run_unlimited ⟨typed first source, overwrites⟩ (some ⟨typed second target, true⟩)
    noLimit clock (registries, state) with ⟨stats, later, ran⟩
  refine ⟨stats, later, rows, order, carried.map_fst.symm, stays, ran.trans ?_⟩
  have read : ((typed first source).entries (registries, state)).2 =
      (registries, ((typed first source).entries (registries, state)).2.2) :=
    Prod.ext sameRegistries rfl
  rw [read, turns_typed carried]

/-! ## Two engines and one -/

/-- An engine beside another one. -/
def onFirst (engine : Storage σ String Bytes) : Storage (σ × τ) String Bytes :=
  engine.within Prod.fst fun both inner => (inner, both.2)

/-- The engine that stands second. -/
def onSecond (engine : Storage τ String Bytes) : Storage (σ × τ) String Bytes :=
  engine.within Prod.snd fun both inner => (both.1, inner)

/-- Turns on one of two engines leave the other as it is. -/
theorem turns_onSecond {engine : Storage τ String Bytes} (rows : List (String × Bytes))
    (other : σ) (state : τ) :
    (turns (some ⟨onSecond engine, true⟩) settings verify rows (other, state)).2 =
      (other, (turns (some ⟨engine, true⟩) settings verify rows state).2) := by
  induction rows generalizing state with
  | nil => rfl
  | cons row rest hypothesis =>
    have first : (Turn.outcome (some ⟨onSecond engine, true⟩) settings verify
        ⟨row, other, state⟩).2 =
        (other, (Turn.outcome (some ⟨engine, true⟩) settings verify ⟨row, state⟩).2) := by
      unfold Turn.outcome
      dsimp only
      cases settings.selects row.1 <;> cases verify <;> rfl
    simp only [turns, first, hypothesis]

/-- Whether an engine holds under each key the payload of the last entry that is copied to
it, and what was there before if there is none, where the entries are shown in the order
of these keys. -/
def Delivered (settings : MigrationSettings) (represents : ρ → MapState String Bytes → Prop)
    (keys : List String) (payloads before : Listing String Bytes) (after : ρ) : Prop :=
  ∃ (rows : List (String × Bytes)) (contents : Listing String Bytes),
    rows.Perm payloads.entries ∧ rows.map Prod.fst = keys ∧ represents after (some contents) ∧
      ∀ key, contents.get? key = (winner settings true rows key).or (before.get? key)

/-- Turns with payloads deliver them to an engine that is a finite map of payloads. -/
theorem turns_delivered {known : String → Prop} {safe : ρ → Prop}
    {represents : ρ → MapState String Bytes → Prop}
    (refines : engine.Refines known (fun _ => True) safe represents) (rooms : engine.Rooms safe)
    {state : ρ} {before : Listing String Bytes} (represented : represents state (some before))
    {payloads : Listing String Bytes} {rows : List (String × Bytes)}
    (order : rows.Perm payloads.entries)
    (renamed : ∀ key ∈ payloads.keys, settings.selects key = true →
      known (settings.rename key))
    (room : safe (turns (some ⟨engine, true⟩) settings verify rows state).2) :
    Delivered settings represents (rows.map Prod.fst) payloads before
      (turns (some ⟨engine, true⟩) settings verify rows state).2 := by
  have accepted : ∀ row ∈ rows, Accepted settings known (fun _ => True) row := by
    intro row member selected
    have listed : row.1 ∈ payloads.keys := List.mem_map_of_mem (order.mem_iff.mp member)
    exact ⟨renamed row.1 listed selected, trivial⟩
  have sameRefines : (⟨engine, true⟩ : TypedMap ρ String Bytes).storage.Refines known
    (fun _ => True) safe represents := refines
  have holds := (turns_accepted sameRefines rooms represented accepted room).2
  exact ⟨rows, _, order, rfl, holds, get?_foldl_overwriting rows before⟩

/-- A migration of dynamic values copies payloads byte for byte, between two engines
and within one, if the registry that reads them knows none of their types.  It always
comes to an end, leaves the registries as they are, and leaves a source of its own as
it is. -/
theorem payloads_arrive {target : Storage τ String Bytes} {known : String → Prop}
    {safe : τ → Prop} {represents : τ → MapState String Bytes → Prop}
    (refines : target.Refines known (fun _ => True) safe represents) (rooms : target.Rooms safe)
    {state : τ} {before : Listing String Bytes} (represented : represents state (some before))
    (settings : MigrationSettings) (noLimit : settings.timeoutSeconds = 0) (verify : Bool)
    (first second : Nat) (registries : Nat → Registry) (overwrites : Bool) (clock : Source Nat) :
    (∀ {σ : Type} {source : Storage σ String Bytes} {sourceKnown : String → Prop}
        {storable : Bytes → Prop} {sourceSafe : σ → Prop}
        {shows : σ → MapState String Bytes → Prop},
      source.Refines sourceKnown storable sourceSafe shows →
      ∀ {origin : σ} {payloads : Listing String Bytes}, shows origin (some payloads) →
      (∀ row ∈ payloads.entries, Foreign (registries first) row.2) →
      (∀ key ∈ payloads.keys, settings.selects key = true → known (settings.rename key)) →
      ∃ stats later left after,
        run ⟨typed first (onFirst source), overwrites⟩
            (some ⟨typed second (onSecond target), true⟩) settings verify clock
            (registries, origin, state) = some (stats, later, registries, left, after) ∧
          shows left (some payloads) ∧
          (safe after → Delivered settings represents
            (((typed first (onFirst source)).entries (registries, origin, state)).1.map Prod.fst)
            payloads before after)) ∧
      ((∀ row ∈ before.entries, Foreign (registries first) row.2) →
        (∀ key ∈ before.keys, settings.selects key = true → known (settings.rename key)) →
        ∃ stats later after,
          run ⟨typed first target, overwrites⟩ (some ⟨typed second target, true⟩) settings verify
              clock (registries, state) = some (stats, later, registries, after) ∧
            (safe after → Delivered settings represents
              (((typed first target).entries (registries, state)).1.map Prod.fst)
              before before after)) := by
  constructor
  · intro σ source sourceKnown storable sourceSafe shows sourceRefines origin payloads shown
      foreign renamed
    have beside : (onFirst source).Refines sourceKnown storable
        (fun both : σ × τ => sourceSafe both.1) fun both => shows both.1 :=
      sourceRefines.within Prod.fst (fun both inner => (inner, both.2)) fun _ _ => rfl
    have shownBeside : shows ((origin, state) : σ × τ).1 (some payloads) := shown
    rcases run_typed beside shownBeside foreign noLimit overwrites (onSecond target) second verify
      clock with ⟨stats, later, rows, order, keys, stays, ran⟩
    have untouched : ((typed first (onFirst source)).entries (registries, origin, state)).2.2 =
        (((typed first (onFirst source)).entries (registries, origin, state)).2.2.1, state) := rfl
    rw [untouched, turns_onSecond] at ran
    rw [← keys]
    exact ⟨stats, later, _, _, ran, stays,
      turns_delivered refines rooms represented order renamed⟩
  · intro foreign renamed
    rcases run_typed refines represented foreign noLimit overwrites target second verify clock with
      ⟨stats, later, rows, order, keys, stays, ran⟩
    rw [← keys]
    exact ⟨stats, later, _, ran, turns_delivered refines rooms stays order renamed⟩

/-! ## Two keys that meet -/

/-- The payload of a value, where it has one. -/
def payloadOf (schema : Schema) (value : Datum) : Bytes :=
  (encodeValue schema value .empty).1.toOption.getD []

/-- A new key and, after it, an old one with the same rest. -/
def tagged : Listing String Bytes :=
  ⟨[("new_a", payloadOf .bool (.bool true)), ("old_a", payloadOf .text (.text "first"))],
    by decide⟩

/-- Bytes that are no payload, under one of those keys and another. -/
def garbage : Listing String Bytes := ⟨[("new_a", [0xc1]), ("other", [])], by decide⟩

/-- Settings by which the old prefix becomes the new one, without a limit. -/
def oldToNewUnlimited : MigrationSettings := { oldToNew with timeoutSeconds := 0 }

theorem foreign_tagged : ∀ row ∈ tagged.entries, Foreign .empty row.2 := by
  have unknown : ∀ (tag : String), ∀ text ∈ some tag,
      text ∉ Registry.empty.schemas.map Schema.tag := fun _ _ _ => List.not_mem_nil
  intro row member
  rcases List.mem_cons.mp member with rfl | last
  · refine @Foreign.intro _ _ .bool (.bool true) .empty (.bool true) (some Schema.bool.tag) rfl rfl
      rfl ?_ (by decide) (unknown _)
    intro text same
    cases same
    decide +kernel
  · cases List.mem_singleton.mp last
    refine @Foreign.intro _ _ .text (.text "first") .empty (.str "first") (some Schema.text.tag)
      rfl rfl (by decide +kernel) ?_ (by decide) (unknown _)
    intro text same
    cases same
    decide +kernel

/-- Which payloads a walk shows, and in which order, is seen from the keys. -/
theorem eq_of_perm_of_keys {first second : List (String × Bytes)} (order : first.Perm second)
    (distinct : (second.map Prod.fst).Nodup) (keys : first.map Prod.fst = second.map Prod.fst) :
    first = second := by
  apply List.ext_getElem order.length_eq
  intro place inFirst inSecond
  have sameKey : first[place].1 = second[place].1 := by
    have there := congrArg (fun listed => listed[place]?) keys
    simpa only [List.getElem?_map, List.getElem?_eq_getElem inFirst,
      List.getElem?_eq_getElem inSecond, Option.map_some, Option.some.injEq] using there
  exact List.inj_on_of_nodup_map distinct (order.mem_iff.mp (List.getElem_mem inFirst))
    (List.getElem_mem inSecond) sameKey

/-- The later entry takes the new key, in another store and in the same one. -/
theorem tagged_arrive :
    oldToNewUnlimited.timeoutSeconds = 0 ∧
      (∃ stats later left after,
        run ⟨typed 0 (onFirst Memory.storage), true⟩
            (some ⟨typed 1 (onSecond Memory.storage), true⟩) oldToNewUnlimited true (.constant 0)
            (fun _ => .empty, (⟨tagged, false⟩ : Memory String Bytes),
              (⟨garbage, false⟩ : Memory String Bytes)) =
          some (stats, later, fun _ => .empty, left, after) ∧
        left.mapState = some tagged ∧ ∃ contents, after.mapState = some contents ∧
          contents.get? "new_a" = some (payloadOf .text (.text "first")) ∧
          contents.get? "other" = some []) ∧
      ∃ stats later after,
        run ⟨typed 0 Memory.storage, true⟩ (some ⟨typed 0 Memory.storage, true⟩)
            oldToNewUnlimited true (.constant 0)
            (fun _ => .empty, (⟨tagged, false⟩ : Memory String Bytes)) =
          some (stats, later, fun _ => .empty, after) ∧
        ∃ contents, after.mapState = some contents ∧
          contents.get? "new_a" = some (payloadOf .text (.text "first")) ∧
          contents.get? "old_a" = some (payloadOf .text (.text "first")) := by
  have rooms : (Memory.storage : Storage (Memory String Bytes) String Bytes).Rooms
    fun _ => True := Storage.rooms_of_forall _ fun _ => trivial
  refine ⟨rfl, ?_, ?_⟩
  · have held : some garbage = (⟨garbage, false⟩ : Memory String Bytes).mapState := rfl
    have sent : some tagged = (⟨tagged, false⟩ : Memory String Bytes).mapState := rfl
    rcases (payloads_arrive Memory.refines rooms held oldToNewUnlimited rfl true 0 1
      (fun _ => .empty) true (.constant 0)).1 Memory.refines sent foreign_tagged
      (fun _ _ _ => trivial) with ⟨stats, later, left, after, ran, stays, delivers⟩
    rcases delivers trivial with ⟨rows, contents, order, keys, holds, arrived⟩
    have inOrder : rows = tagged.entries :=
      eq_of_perm_of_keys order tagged.distinct (keys.trans rfl)
    rw [inOrder] at arrived
    refine ⟨stats, later, left, after, ran, stays.symm, contents, holds.symm, ?_, ?_⟩
    · rw [arrived "new_a"]
      decide +kernel
    · rw [arrived "other"]
      decide +kernel
  · have sent : some tagged = (⟨tagged, false⟩ : Memory String Bytes).mapState := rfl
    rcases (payloads_arrive Memory.refines rooms sent oldToNewUnlimited rfl true 0 0
      (fun _ => .empty) true (.constant 0)).2 foreign_tagged (fun _ _ _ => trivial) with
      ⟨stats, later, after, ran, delivers⟩
    rcases delivers trivial with ⟨rows, contents, order, keys, holds, arrived⟩
    have inOrder : rows = tagged.entries :=
      eq_of_perm_of_keys order tagged.distinct (keys.trans rfl)
    rw [inOrder] at arrived
    refine ⟨stats, later, after, ran, contents, holds.symm, ?_, ?_⟩
    · rw [arrived "new_a"]
      decide +kernel
    · rw [arrived "old_a"]
      decide +kernel

end Migration
end TypedStore
