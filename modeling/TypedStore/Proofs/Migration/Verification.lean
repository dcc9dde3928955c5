import TypedStore.Proofs.Envelope.Recall
import TypedStore.Proofs.Migration.Turns
import TypedStore.Proofs.Storage.Provenance

/-!
# Verification in a migration

Verifying an entry is reading its new key right after the write, and any value will
do.  So an entry that counts as migrated has a value under its new key, but not
always its own.  Writes are dropped in silence: the value may not have a wire form,
the target may deny overwriting, its engine may fail.  Then whatever the target held
under the key before is read, and taken for the entry.

`migrated_iff_read_back` says that this is the only way.  A value that is read after
the write either comes from the write or was there before.  Where nothing was there
before, verification is sound.
-/

namespace TypedStore
namespace Migration

variable {σ : Type}

/-- A storage that dynamic values are copied to: one that keeps them as they are, or
the typed layer over a byte engine, on some part of the state.  Either may drop
writes. -/
inductive Target (σ : Type) : Type 1 where
  | native (engine : Storage σ String DynValue) (holds : σ → String → DynValue → Prop)
    (law : engine.InventsNothing holds)
  | encoded {τ : Type} (engine : ByteEngine String τ) (get : σ → Registry × τ)
    (put : σ → Registry × τ → σ) (getPut : ∀ state inner, get (put state inner) = inner)

namespace Target

/-- The operations of a target. -/
def storage : Target σ → Storage σ String DynValue
  | native engine _ _ => engine
  | encoded engine get put _ => (Adapter.storage dynCodec engine.storage).within get put

/-- Whether a value is held under a key, perhaps as a payload. -/
def Held : Target σ → σ → String → DynValue → Prop
  | native _ holds _, state, key, found => holds state key found
  | encoded engine get _ _, state, key, found =>
    ∃ payload reader, engine.Holds (get state).2 key payload ∧
      decodeDyn payload reader = .ok found

/-- Whether a value is what comes back of one that is written in some state. -/
def Returns : Target σ → σ → DynValue → DynValue → Prop
  | native _ _ _, _, value, found => found = value
  | encoded _ get _ _, state, value, found =>
    value.Countable → value.Recalls (value.registerIn (get state).1) found

/-- What a key gives after a write comes from the write or was held before. -/
theorem load_stored (target : Target σ) {allowOverwrite : Bool} {state : σ} {key : String}
    {value found : DynValue}
    (loaded : (target.storage.load key
      (TypedMap.store ⟨target.storage, allowOverwrite⟩ key value state)).1 = some found) :
    target.Returns state value found ∨ target.Held state key found := by
  cases target with
  | native engine holds law => exact law.load_stored loaded
  | encoded engine get put getPut =>
    have inside : ((Adapter.storage dynCodec engine.storage).load key
        (TypedMap.store ⟨Adapter.storage dynCodec engine.storage, allowOverwrite⟩ key value
          (get state))).1 = some found := by
      cases allowOverwrite <;>
        simpa only [storage, Storage.within, TypedMap.store, getPut, if_true, Bool.false_eq_true,
          if_false] using loaded
    rcases Adapter.load_stored engine.inventsNothing inside with ⟨payload, read, written | before⟩
    · exact .inl fun countable => recalls_of_decodeDyn countable written read
    · exact .inr ⟨payload, _, before, read⟩

end Target

/-- In a run with verification an entry is counted as migrated exactly when it passes
and its new key gives some value right after the write, and reported under its own
key exactly when it passes and the new key gives none.  The value comes from the
write, with the name of the entry and, but for rereading, its data; or else it was
held under the new key before. -/
theorem migrated_iff_read_back {source : TypedMap σ String DynValue} {target : Target σ}
    {allowOverwrite : Bool} {settings : MigrationSettings} {clock later : Source Nat}
    {state after : σ} {stats : MigrationStats} {turns : List (Turn σ DynValue)}
    (ran : run source (some ⟨target.storage, allowOverwrite⟩) settings true clock state =
      some (stats, later, after))
    (given : turns = (history (some ⟨target.storage, allowOverwrite⟩) settings true source clock
      state).1) :
    turns.map Turn.entry <+: (source.storage.entries state).1 ∧
      stats.migrated = turns.countP (fun turn =>
        turn.verdict (some ⟨target.storage, allowOverwrite⟩) settings true = .migrated) ∧
      stats.errors = (turns.filter fun turn =>
        turn.verdict (some ⟨target.storage, allowOverwrite⟩) settings true = .unreadable).map
          (fun turn => .unreadable turn.entry.1) ∧
      ∀ turn ∈ turns,
        (turn.verdict (some ⟨target.storage, allowOverwrite⟩) settings true = .migrated ↔
          settings.selects turn.entry.1 = true ∧
            ∃ found, turn.readBack ⟨target.storage, allowOverwrite⟩ settings = some found ∧
              (target.Returns turn.state turn.entry.2 found ∨
                target.Held turn.state (settings.rename turn.entry.1) found)) ∧
        (turn.verdict (some ⟨target.storage, allowOverwrite⟩) settings true = .unreadable ↔
          settings.selects turn.entry.1 = true ∧
            turn.readBack ⟨target.storage, allowOverwrite⟩ settings = none) := by
  have counted := (run_eq ran).1
  rw [← given] at counted
  refine ⟨?_, ?_, ?_, ?_⟩
  · rw [given]
    exact history_isPrefix source clock state
  · rw [counted, tally]
  · rw [counted, tally]
  · intro turn _
    rw [turn.verdict_verified]
    by_cases selected : settings.selects turn.entry.1 = true
    · rw [if_pos selected]
      cases read : turn.readBack ⟨target.storage, allowOverwrite⟩ settings with
      | none =>
        constructor
        · refine iff_of_false Verdict.noConfusion ?_
          rintro ⟨-, found, impossible, -⟩
          cases impossible
        · exact iff_of_true rfl ⟨selected, rfl⟩
      | some found =>
        constructor
        · exact iff_of_true rfl ⟨selected, found, rfl, target.load_stored read⟩
        · refine iff_of_false Verdict.noConfusion ?_
          rintro ⟨-, impossible⟩
          cases impossible
    · rw [if_neg selected]
      exact ⟨iff_of_false Verdict.noConfusion fun both => selected both.1,
        iff_of_false Verdict.noConfusion fun both => selected both.1⟩

/-! ## From a store in memory to the typed layer over another -/

/-- A store of values, and a store of payloads with a registry. -/
abbrev ValuesAndPayloads : Type := Memory String DynValue × Registry × Memory String Bytes

/-- The store of values. -/
def valueMap : TypedMap ValuesAndPayloads String DynValue :=
  ⟨Memory.storage.within Prod.fst fun both memory => (memory, both.2), true⟩

/-- The typed layer over the store of payloads, which drops the writes to some
keys. -/
def payloadTarget (drops : String → Bool) : Target ValuesAndPayloads :=
  .encoded (.lossy (fun _ key _ => drops key) .memory) Prod.snd
    (fun both layer => (both.1, layer)) fun _ _ => rfl

/-- Two texts to copy. -/
def twoTexts : Listing String DynValue :=
  ⟨[("kept", .typed .text (.text "one")), ("dropped", .typed .text (.text "two"))], by decide⟩

/-- A target without payloads that drops a write is found out. -/
theorem dropped_write_is_reported :
    ∃ stats later after, run valueMap (some ⟨(payloadTarget (· == "dropped")).storage, true⟩) {}
        true (.constant 0) (⟨twoTexts, false⟩, .empty, .empty) = some (stats, later, after) ∧
      stats.migrated = 1 ∧ stats.errors = [.unreadable "dropped"] := by
  refine ⟨_, _, _, rfl, ?_⟩
  have verified := migrated_iff_read_back
    (rfl : run valueMap (some ⟨(payloadTarget (· == "dropped")).storage, true⟩) {}
        true (.constant 0) (⟨twoTexts, false⟩, .empty, .empty) = some _) rfl
  exact ⟨verified.2.1.trans (by decide +kernel), verified.2.2.1.trans (by decide +kernel)⟩

/-- A value that has no wire form. -/
def unwritable : DynValue := .typed (.guarded "Guarded") (.guarded ⟨-3, by decide, by decide⟩)

/-- A payload of another value. -/
def oldPayload : Bytes := (Envelope.wrap (.str "old") (some Schema.text.tag)).write

/-- Raw data of a map, out of order. -/
def unordered : DynValue :=
  .raw (.map [(.str "b", .str "two"), (.str "a", .str "one")]) (some (Schema.map .text).tag)

set_option maxRecDepth 4096 in
/-- Engines that never fail, behind a map that allows overwriting.  A value that has no
wire form is not written, the old one is read, and the entry counts as migrated.
Raw data are written, and read as the schema has them that the target knows. -/
theorem other_values_pass_for_entries :
    (∃ stats later after, run valueMap (some ⟨(payloadTarget fun _ => false).storage, true⟩) {}
        true (.constant 0) (⟨⟨[("key", unwritable)], by decide⟩, false⟩, .empty,
          ⟨⟨[("key", oldPayload)], by decide⟩, false⟩) = some (stats, later, after) ∧
      stats.migrated = 1 ∧ stats.errors = [] ∧
      (((payloadTarget fun _ => false).storage.load "key" after).1 =
        some (.raw (.str "old") (some Schema.text.tag))) ∧
      unwritable.typeName = some "Guarded" ∧ Schema.text.tag ≠ "Guarded") ∧
    ∃ stats later after, run valueMap (some ⟨(payloadTarget fun _ => false).storage, true⟩) {}
        true (.constant 0) (⟨⟨[("key", unordered)], by decide⟩, false⟩,
          Registry.empty.register (.map .text), .empty) = some (stats, later, after) ∧
      stats.migrated = 1 ∧ stats.errors = [] ∧
      ((payloadTarget fun _ => false).storage.load "key" after).1 =
        some (.typed (.map .text) (.map [("a", .text "one"), ("b", .text "two")])) ∧
      unordered.toWire = .ok (.map [(.str "b", .str "two"), (.str "a", .str "one")]) ∧
      (DynValue.typed (.map .text) (.map [("a", .text "one"), ("b", .text "two")])).toWire =
        .ok (.map [(.str "a", .str "one"), (.str "b", .str "two")]) := by
  refine ⟨⟨_, _, _, rfl, ?_⟩, ⟨_, _, _, rfl, ?_⟩⟩
  · decide +kernel
  · exact ⟨rfl, rfl, by decide +kernel, rfl, rfl⟩

end Migration
end TypedStore
