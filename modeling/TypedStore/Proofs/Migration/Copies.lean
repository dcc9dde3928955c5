import Mathlib.Data.List.Dedup
import TypedStore.Proofs.Contract.Refinement
import TypedStore.Proofs.Migration.Turns

/-!
# What a target holds after its turns

A target that refines a finite map, and knows every key and value it is given,
holds at the end what the map would: each selected entry under its new key.
Entries whose new keys are the same land on one another.  A target that allows
overwriting is left with the last of them, one that denies it with what was there
before or else with the first.

Such a target reads back what it was given, so asking for verification changes
nothing and no turn fails.
-/

namespace TypedStore
namespace Migration

variable {σ ν : Type}

/-- The contents after an entry is copied. -/
def copied (settings : MigrationSettings) (allowOverwrite : Bool) (contents : Listing String ν)
    (entry : String × ν) : Listing String ν :=
  if settings.selects entry.1 then
    if allowOverwrite then contents.insert (settings.rename entry.1) entry.2
    else contents.insertAbsent (settings.rename entry.1) entry.2
  else contents

/-- The keys to which keys are copied, one for each that passes. -/
def newKeys (settings : MigrationSettings) (keys : List String) : List String :=
  (keys.filter settings.selects).map settings.rename

theorem mem_newKeys {settings : MigrationSettings} {keys : List String} {wanted : String} :
    wanted ∈ newKeys settings keys ↔
      ∃ key ∈ keys, settings.selects key = true ∧ settings.rename key = wanted := by
  rw [newKeys, List.mem_map]
  constructor
  · rintro ⟨key, member, same⟩
    have both := List.mem_filter.mp member
    exact ⟨key, both.1, both.2, same⟩
  · rintro ⟨key, member, selected, same⟩
    exact ⟨key, List.mem_filter.mpr ⟨member, selected⟩, same⟩

/-- Whether an entry is copied to a key. -/
def landsOn (settings : MigrationSettings) (wanted : String) (entry : String × ν) : Bool :=
  settings.selects entry.1 && decide (wanted = settings.rename entry.1)

/-- Which of the entries that land on a key stays there. -/
def winner (settings : MigrationSettings) (allowOverwrite : Bool) (entries : List (String × ν))
    (wanted : String) : Option ν :=
  ((if allowOverwrite then entries.reverse else entries).find? (landsOn settings wanted)).map
    Prod.snd

section Copied

variable {settings : MigrationSettings} {allowOverwrite : Bool}

theorem get?_copied (contents : Listing String ν) (entry : String × ν) (wanted : String) :
    (copied settings allowOverwrite contents entry).get? wanted =
      if landsOn settings wanted entry then
        if allowOverwrite then some entry.2 else (contents.get? wanted).or (some entry.2)
      else contents.get? wanted := by
  rw [copied, landsOn]
  by_cases selected : settings.selects entry.1 = true
  · rw [if_pos selected, selected, Bool.true_and]
    by_cases here : wanted = settings.rename entry.1
    · rw [decide_eq_true here, if_pos rfl, ← here]
      cases allowOverwrite with
      | true => rw [if_pos rfl, if_pos rfl, Listing.get?_insert, if_pos rfl]
      | false =>
        rw [if_neg Bool.false_ne_true, if_neg Bool.false_ne_true, Listing.insertAbsent]
        cases held : contents.get? wanted with
        | none =>
          rw [Option.isSome_none, if_neg Bool.false_ne_true, Listing.get?_insert, if_pos rfl,
            Option.none_or]
        | some old => rw [Option.isSome_some, if_pos rfl, held, Option.some_or]
    · rw [decide_eq_false here, if_neg Bool.false_ne_true]
      cases allowOverwrite with
      | true => rw [if_pos rfl, Listing.get?_insert, if_neg here]
      | false =>
        rw [if_neg Bool.false_ne_true, Listing.insertAbsent]
        split
        · rfl
        · rw [Listing.get?_insert, if_neg here]
  · rw [if_neg selected, Bool.eq_false_iff.mpr selected, Bool.false_and, if_neg Bool.false_ne_true]

/-- A selected entry leaves a value under its new key. -/
theorem isSome_get?_copied (contents : Listing String ν) {entry : String × ν}
    (selected : settings.selects entry.1 = true) :
    ((copied settings allowOverwrite contents entry).get?
      (settings.rename entry.1)).isSome = true := by
  rw [get?_copied, landsOn, selected, decide_eq_true rfl, Bool.and_self, if_pos rfl]
  cases allowOverwrite with
  | true => rfl
  | false => cases contents.get? (settings.rename entry.1) <;> rfl

/-- A target that allows overwriting is left with the last entry that lands on a
key. -/
theorem get?_foldl_overwriting (entries : List (String × ν)) (contents : Listing String ν)
    (wanted : String) :
    (entries.foldl (copied settings true) contents).get? wanted =
      (winner settings true entries wanted).or (contents.get? wanted) := by
  induction entries generalizing contents with
  | nil => rfl
  | cons entry rest hypothesis =>
    rw [List.foldl_cons, hypothesis, get?_copied, winner, winner, if_pos rfl, if_pos rfl,
      if_pos rfl, List.reverse_cons, List.find?_append, List.find?_singleton]
    cases (rest.reverse.find? (landsOn settings wanted)) with
    | some later => rfl
    | none => split <;> rfl

/-- A target that denies overwriting is left with what was there, or else with the
first entry that lands on a key. -/
theorem get?_foldl_denying (entries : List (String × ν)) (contents : Listing String ν)
    (wanted : String) :
    (entries.foldl (copied settings false) contents).get? wanted =
      (contents.get? wanted).or (winner settings false entries wanted) := by
  induction entries generalizing contents with
  | nil => exact Option.or_none.symm
  | cons entry rest hypothesis =>
    rw [List.foldl_cons, hypothesis, get?_copied, winner, winner, if_neg Bool.false_ne_true,
      if_neg Bool.false_ne_true, if_neg Bool.false_ne_true, List.find?_cons]
    cases contents.get? wanted <;> cases landsOn settings wanted entry <;> rfl

/-- The two in one, for a target that is empty at first. -/
theorem get?_foldl_empty (entries : List (String × ν)) (wanted : String) :
    (entries.foldl (copied settings allowOverwrite) .empty).get? wanted =
      winner settings allowOverwrite entries wanted := by
  cases allowOverwrite with
  | true => exact (get?_foldl_overwriting entries .empty wanted).trans Option.or_none
  | false => exact (get?_foldl_denying entries .empty wanted).trans Option.none_or

theorem landsOn_iff {wanted : String} {entry : String × ν} :
    landsOn settings wanted entry = true ↔
      settings.selects entry.1 = true ∧ settings.rename entry.1 = wanted := by
  rw [landsOn, Bool.and_eq_true, decide_eq_true_eq]
  exact and_congr_right fun _ => eq_comm

theorem exists_of_winner {entries : List (String × ν)} {wanted : String} {value : ν}
    (found : winner settings allowOverwrite entries wanted = some value) :
    ∃ key, (key, value) ∈ entries ∧ settings.selects key = true ∧
      settings.rename key = wanted := by
  rcases Option.map_eq_some_iff.mp found with ⟨⟨key, held⟩, first, rfl⟩
  have member := List.mem_of_find?_eq_some first
  refine ⟨key, ?_, landsOn_iff.mp (List.find?_some first)⟩
  split at member
  · exact List.mem_reverse.mp member
  · exact member

theorem isSome_winner_iff {entries : List (String × ν)} {wanted : String} :
    (winner settings allowOverwrite entries wanted).isSome = true ↔
      wanted ∈ newKeys settings (entries.map Prod.fst) := by
  rw [mem_newKeys]
  constructor
  · intro present
    rcases Option.isSome_iff_exists.mp present with ⟨value, found⟩
    rcases exists_of_winner found with ⟨key, member, lands⟩
    exact ⟨key, List.mem_map_of_mem member, lands⟩
  · rintro ⟨key, member, lands⟩
    rcases List.mem_map.mp member with ⟨entry, listed, rfl⟩
    rw [winner, Option.isSome_map, List.find?_isSome]
    refine ⟨entry, ?_, landsOn_iff.mpr lands⟩
    split
    · exact List.mem_reverse.mpr listed
    · exact listed

/-- An empty target ends up with one entry for each new key. -/
theorem length_foldl_empty (entries : List (String × ν)) :
    (entries.foldl (copied settings allowOverwrite) .empty).entries.length =
      (newKeys settings (entries.map Prod.fst)).dedup.length := by
  have order : (entries.foldl (copied settings allowOverwrite) .empty).keys.Perm
      (newKeys settings (entries.map Prod.fst)).dedup := by
    apply (List.perm_ext_iff_of_nodup (Listing.distinct _) (List.nodup_dedup _)).mpr
    intro wanted
    have lands : (winner settings allowOverwrite entries wanted).isSome = true ↔ _ :=
      isSome_winner_iff
    rw [List.mem_dedup, ← lands, ← get?_foldl_empty, Listing.isSome_get?_iff]
    exact Iff.rfl
  rw [← order.length_eq, Listing.keys, List.length_map]

end Copied

/-! ## Turns on a target that refines a map -/

section Refined

variable {target : TypedMap σ String ν} {settings : MigrationSettings} {verify : Bool}
  {known : String → Prop} {storable : ν → Prop} {safe : σ → Prop}
  {represents : σ → MapState String ν → Prop}

/-- Whether a target knows what it is given for an entry. -/
def Accepted (settings : MigrationSettings) (known : String → Prop) (storable : ν → Prop)
    (entry : String × ν) : Prop :=
  settings.selects entry.1 = true → known (settings.rename entry.1) ∧ storable entry.2

theorem Turn.safe_of_outcome (rooms : target.storage.Rooms safe) {turn : Turn σ ν}
    (room : safe (turn.outcome (some target) settings verify).2) : safe turn.state := by
  by_cases selected : settings.selects turn.entry.1 = true
  · apply rooms target.allowOverwrite (.store (settings.rename turn.entry.1) turn.entry.2)
    simp only [Turn.outcome, selected, if_true] at room
    cases verify with
    | false => exact room
    | true => exact rooms target.allowOverwrite (.has (settings.rename turn.entry.1)) _ room
  · simp only [Turn.outcome, selected, Bool.false_eq_true, if_false] at room
    exact room

theorem safe_of_turns (rooms : target.storage.Rooms safe) {entries : List (String × ν)}
    {state : σ} (room : safe (turns (some target) settings verify entries state).2) :
    safe state := by
  induction entries generalizing state with
  | nil => exact room
  | cons entry rest hypothesis => exact Turn.safe_of_outcome rooms (hypothesis room)

/-- A turn copies its entry, and does not fail. -/
theorem Turn.outcome_accepted
    (refines : target.storage.Refines known storable safe represents)
    (rooms : target.storage.Rooms safe) {turn : Turn σ ν} {contents : Listing String ν}
    (represented : represents turn.state (some contents))
    (accepted : Accepted settings known storable turn.entry)
    (room : safe (turn.outcome (some target) settings verify).2) :
    turn.verdict (some target) settings verify =
        (if settings.selects turn.entry.1 then .migrated else .skipped) ∧
      represents (turn.outcome (some target) settings verify).2
        (some (copied settings target.allowOverwrite contents turn.entry)) := by
  by_cases selected : settings.selects turn.entry.1 = true
  · rcases accepted selected with ⟨isKnown, stores⟩
    have stored : safe (turn.written target settings) → represents (turn.written target settings)
        (some (copied settings target.allowOverwrite contents turn.entry)) := by
      intro roomThere
      rcases refines.perform represented target.allowOverwrite (.store _ _) ⟨isKnown, stores⟩
        roomThere with ⟨after, rfl, later⟩
      rw [copied, if_pos selected]
      exact later
    rw [Turn.verdict]
    simp only [Turn.outcome, selected, if_true] at room ⊢
    cases verify with
    | false => exact ⟨rfl, stored room⟩
    | true =>
      have later := stored (rooms target.allowOverwrite (.has _) _ room)
      rcases refines.perform later target.allowOverwrite (.has _) isKnown room with
        ⟨after, ⟨found, rfl⟩, stays⟩
      have readBack := found.trans (isSome_get?_copied contents selected)
      exact ⟨if_pos readBack, stays⟩
  · rw [Turn.verdict]
    simp only [Turn.outcome, selected, Bool.false_eq_true, if_false] at room ⊢
    rw [copied, if_neg selected]
    exact ⟨trivial, represented⟩

/-- So the turns of a run copy their entries, and none fails. -/
theorem turns_accepted (refines : target.storage.Refines known storable safe represents)
    (rooms : target.storage.Rooms safe) {entries : List (String × ν)} {state : σ}
    {contents : Listing String ν} (represented : represents state (some contents))
    (accepted : ∀ entry ∈ entries, Accepted settings known storable entry)
    (room : safe (turns (some target) settings verify entries state).2) :
    (∀ turn ∈ (turns (some target) settings verify entries state).1,
        turn.verdict (some target) settings verify =
          if settings.selects turn.entry.1 then .migrated else .skipped) ∧
      represents (turns (some target) settings verify entries state).2
        (some (entries.foldl (copied settings target.allowOverwrite) contents)) := by
  induction entries generalizing state contents with
  | nil => exact ⟨fun turn member => absurd member List.not_mem_nil, represented⟩
  | cons entry rest hypothesis =>
    let turn : Turn σ ν := ⟨entry, state⟩
    have roomFirst : safe (turn.outcome (some target) settings verify).2 :=
      safe_of_turns rooms room
    rcases Turn.outcome_accepted refines rooms represented
      (accepted entry List.mem_cons_self) roomFirst with ⟨first, kept⟩
    rcases hypothesis kept (fun other member => accepted other (List.mem_cons_of_mem _ member))
      room with ⟨others, last⟩
    refine ⟨?_, last⟩
    intro other member
    rcases List.mem_cons.mp member with here | later
    · rw [here]
      exact first
    · exact others other later

theorem tally_of_verdicts {entries : List (String × ν)} {history : List (Turn σ ν)}
    (listed : history.map Turn.entry = entries)
    (verdicts : ∀ turn ∈ history, turn.verdict (some target) settings verify =
      if settings.selects turn.entry.1 then .migrated else .skipped) :
    (tally (some target) settings verify history).errors = [] ∧
      (tally (some target) settings verify history).migrated =
        (newKeys settings (entries.map Prod.fst)).length := by
  constructor
  · have noFault : (history.filter fun turn =>
        turn.verdict (some target) settings verify = .unreadable) = [] := by
      rw [List.filter_eq_nil_iff]
      intro turn member
      rw [verdicts turn member, decide_eq_true_eq]
      split <;> exact Verdict.noConfusion
    rw [tally, noFault, List.map_nil]
  · rw [tally, newKeys, List.length_map, ← List.countP_eq_length_filter, ← listed, List.map_map,
      List.countP_map]
    apply List.countP_congr
    intro turn member
    rw [verdicts turn member, decide_eq_true_eq, Function.comp_apply, Function.comp_apply]
    cases settings.selects turn.entry.1 <;> decide

/-- What a run in time comes to on a target that accepts its entries. -/
theorem run_accepted (refines : target.storage.Refines known storable safe represents)
    (rooms : target.storage.Rooms safe) {source : TypedMap σ String ν} {clock later : Source Nat}
    {state after : σ} {stats : MigrationStats} {contents : Listing String ν}
    (represented : represents (source.storage.entries state).2 (some contents))
    (accepted : ∀ entry ∈ (source.storage.entries state).1,
      Accepted settings known storable entry)
    (ran : run source (some target) settings verify clock state = some (stats, later, after))
    (room : safe after) (inTime : stats.timedOut = false) :
    stats.errors = [] ∧
      stats.migrated =
        (newKeys settings ((source.storage.entries state).1.map Prod.fst)).length ∧
      represents after (some ((source.storage.entries state).1.foldl
        (copied settings target.allowOverwrite) contents)) := by
  rcases run_eq ran with ⟨counted, last⟩
  rw [history_of_inTime ran inTime] at counted last
  rw [last] at room ⊢
  rcases turns_accepted refines rooms represented accepted room with ⟨verdicts, holds⟩
  rcases tally_of_verdicts (turns_entries _ _) verdicts with ⟨errors, migrated⟩
  rw [counted]
  exact ⟨errors, migrated, holds⟩

end Refined

end Migration
end TypedStore
