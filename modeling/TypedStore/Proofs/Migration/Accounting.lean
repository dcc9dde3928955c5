import TypedStore.Proofs.Migration.Verification

/-!
# What the statistics of a migration account for

A run leaves its loop in one of two ways, and an entry leaves its turn in one of four: the
pattern leaves it out, the run is dry, its new key gives no value back, or it is written.  The
statistics count every turn once, whichever way it ends and whenever the limit is reached, and
the state after a run has what was written for these entries and nothing of a later one.

A dry run goes through the same turns as a run that does not verify.  The clock is read at the
same places, so the two report the same, and only the writes are missing.
-/

namespace TypedStore
namespace Migration

variable {σ ν : Type}

/-- The state after an entry that the pattern selects: its value is stored under the new key,
and the key is read back on request.  Nothing happens without a target. -/
def deliver (target : Option (TypedMap σ String ν)) (settings : MigrationSettings)
    (verify : Bool) (state : σ) (entry : String × ν) : σ :=
  match target with
  | none => state
  | some target =>
    let written := target.store (settings.rename entry.1) entry.2 state
    if verify then (target.has (settings.rename entry.1) written).2 else written

/-- What the statistics say of a run, the state after it included. -/
structure Accounts (source : TypedMap σ String ν) (target : Option (TypedMap σ String ν))
    (settings : MigrationSettings) (verify : Bool) (clock : Source Nat) (state : σ)
    (stats : MigrationStats) (after : σ) : Prop where
  balanced : stats.total = stats.migrated + stats.skipped + stats.errors.length
  /-- A run ends early exactly when entries are left that it has not counted. -/
  stopped : stats.total ≤ (source.storage.entries state).1.length ∧
    (stats.timedOut = true ↔ stats.total < (source.storage.entries state).1.length)
  /-- The limit is not reached before any entry that is counted, but it is before the next. -/
  inTime : ∀ stop, deadline? settings clock.current = some (some stop) →
    (∀ place < stats.total, clock.reading (clock.position + 1 + place) < stop) ∧
      (stats.timedOut = true → stop ≤ clock.reading (clock.position + 1 + stats.total))
  unlimited : deadline? settings clock.current = some none → stats.timedOut = false
  examined : (history target settings verify source clock state).1.map Turn.entry =
    (source.storage.entries state).1.take stats.total
  skipped : stats.skipped = ((source.storage.entries state).1.take stats.total).countP
    fun entry => !settings.selects entry.1
  /-- The entries behind the counted ones have no part in the state after the run. -/
  delivered : after = (((source.storage.entries state).1.take stats.total).filter
    fun entry => settings.selects entry.1).foldl (deliver target settings verify)
      (source.storage.entries state).2
  /-- A fault is reported for an entry that was counted and selected, once and in its place. -/
  reported : stats.errors.Sublist ((((source.storage.entries state).1.take stats.total).filter
    fun entry => settings.selects entry.1).map fun entry => .unreadable entry.1)
  unverified : verify = false → stats.errors = []

/-! ## Which entries are examined -/

theorem examined_unlimited {α : Type} (entries : List α) (clock : Source Nat) :
    examined none entries clock = entries := by
  induction entries with
  | nil => rfl
  | cons entry rest hypothesis => exact congrArg (entry :: ·) hypothesis

/-- Entries are examined as long as the readings of the clock are below the limit. -/
theorem examined_inTime {α : Type} (stop : Nat) (entries : List α) (clock : Source Nat) :
    (∀ place < (examined (some stop) entries clock).length,
        clock.reading (clock.position + place) < stop) ∧
      ((examined (some stop) entries clock).length < entries.length →
        stop ≤ clock.reading (clock.position + (examined (some stop) entries clock).length)) := by
  induction entries generalizing clock with
  | nil =>
    exact ⟨fun place early => absurd early (Nat.not_lt_zero place),
      fun short => absurd short (Nat.not_lt_zero _)⟩
  | cons entry rest hypothesis =>
    rw [examined, reached]
    by_cases late : stop ≤ clock.current
    · simp only [late, decide_true]
      exact ⟨fun place early => absurd early (Nat.not_lt_zero place), fun _ => late⟩
    · simp only [late, decide_false]
      have later := hypothesis clock.advance
      have shifted : ∀ place, clock.advance.reading (clock.advance.position + place) =
          clock.reading (clock.position + (place + 1)) := by
        intro place
        rw [Nat.add_comm place 1, ← Nat.add_assoc]
        rfl
      simp only [shifted] at later
      refine ⟨fun place early => ?_, fun short => later.2 (Nat.lt_of_succ_lt_succ short)⟩
      cases place with
      | zero => exact Nat.lt_of_not_le late
      | succ place => exact later.1 place (Nat.lt_of_succ_lt_succ early)

theorem examined_eq_take {α : Type} (deadline : Option Nat) (entries : List α)
    (clock : Source Nat) : examined deadline entries clock =
      entries.take (examined deadline entries clock).length :=
  List.prefix_iff_eq_take.mp (examined_isPrefix deadline entries clock)

/-! ## What the turns come to -/

section Turns

variable {target : Option (TypedMap σ String ν)} {settings : MigrationSettings} {verify : Bool}

/-- What a turn does to the state is decided by the pattern alone. -/
theorem Turn.outcome_state (turn : Turn σ ν) :
    (turn.outcome target settings verify).2 =
      if settings.selects turn.entry.1 then deliver target settings verify turn.state turn.entry
      else turn.state := by
  rw [Turn.outcome.eq_def]
  cases settings.selects turn.entry.1 with
  | false => rfl
  | true =>
    cases target with
    | none => rfl
    | some target => cases verify <;> rfl

theorem Turn.verdict_eq (turn : Turn σ ν) :
    turn.verdict target settings verify =
      if settings.selects turn.entry.1 then
        if verify && target.any fun target => (turn.readBack target settings).isNone then
          .unreadable
        else .migrated
      else .skipped := by
  cases target with
  | none =>
    rw [Turn.verdict, Turn.outcome.eq_def, Option.any_none, Bool.and_false]
    split <;> rfl
  | some target =>
    cases verify with
    | false =>
      rw [Turn.verdict, Turn.outcome.eq_def, Bool.false_and]
      split <;> rfl
    | true =>
      rw [Turn.verdict_verified, Option.any_some, Bool.true_and]
      cases turn.readBack target settings <;> rfl

theorem Turn.verdict_skipped_iff (turn : Turn σ ν) :
    turn.verdict target settings verify = .skipped ↔ settings.selects turn.entry.1 = false := by
  rw [turn.verdict_eq]
  cases settings.selects turn.entry.1 with
  | false => exact iff_of_true rfl rfl
  | true =>
    rw [if_pos rfl]
    refine iff_of_false ?_ Bool.true_eq_false.mp
    split <;> exact Verdict.noConfusion

/-- Only a run that verifies finds an entry unreadable. -/
theorem Turn.verified_of_unreadable {turn : Turn σ ν}
    (unreadable : turn.verdict target settings verify = .unreadable) : verify = true := by
  cases verify with
  | true => rfl
  | false =>
    rw [turn.verdict_eq, Bool.false_and, if_neg Bool.false_ne_true] at unreadable
    split at unreadable <;> cases unreadable

theorem turns_state (entries : List (String × ν)) (state : σ) :
    (turns target settings verify entries state).2 =
      (entries.filter fun entry => settings.selects entry.1).foldl
        (deliver target settings verify) state := by
  induction entries generalizing state with
  | nil => rfl
  | cons entry rest hypothesis =>
    rw [turns]
    dsimp only
    rw [hypothesis, Turn.outcome_state, List.filter_cons]
    cases settings.selects entry.1 <;> rfl

/-- Every turn is counted once. -/
theorem tally_balanced (history : List (Turn σ ν)) :
    (tally target settings verify history).total =
      (tally target settings verify history).migrated +
        (tally target settings verify history).skipped +
        (tally target settings verify history).errors.length := by
  induction history with
  | nil => rfl
  | cons turn rest hypothesis =>
    simp only [tally, List.length_map, List.length_cons, List.countP_cons, List.filter_cons]
      at hypothesis ⊢
    cases turn.verdict target settings verify <;> simp <;> omega

theorem tally_skipped (history : List (Turn σ ν)) :
    (tally target settings verify history).skipped =
      (history.map Turn.entry).countP fun entry => !settings.selects entry.1 := by
  rw [tally, List.countP_map]
  apply List.countP_congr
  intro turn _
  rw [decide_eq_true_eq, turn.verdict_skipped_iff, Function.comp_apply, Bool.not_eq_true']

theorem tally_errors_sublist (history : List (Turn σ ν)) :
    (tally target settings verify history).errors.Sublist
      (((history.map Turn.entry).filter fun entry => settings.selects entry.1).map
        fun entry => .unreadable entry.1) := by
  rw [tally, List.filter_map, List.map_map]
  apply List.Sublist.map
  apply List.monotone_filter_right
  intro turn unreadable
  rw [Function.comp_apply, ← Bool.not_eq_false, ← turn.verdict_skipped_iff,
    of_decide_eq_true unreadable]
  exact Verdict.noConfusion

theorem tally_unverified (history : List (Turn σ ν)) :
    (tally target settings false history).errors = [] := by
  rw [tally, List.map_eq_nil_iff, List.filter_eq_nil_iff]
  intro turn _ unreadable
  exact Bool.noConfusion (Turn.verified_of_unreadable (of_decide_eq_true unreadable))

end Turns

/-! ## Runs -/

section Runs

variable (source : TypedMap σ String ν) (target : Option (TypedMap σ String ν))
  (settings : MigrationSettings) (verify : Bool) (clock : Source Nat) (state : σ)

/-- A run gives statistics unless its limit is a time that no clock shows. -/
theorem run_eq_none_iff :
    run source target settings verify clock state = none ↔
      deadline? settings clock.current = none := by
  cases limit : deadline? settings clock.current with
  | none =>
    rw [run, limit]
    exact iff_of_true rfl rfl
  | some deadline =>
    rw [run, limit]
    exact iff_of_false (Option.some_ne_none _) (Option.some_ne_none _)

variable {source target settings verify clock state}

theorem accounts_of_run {stats : MigrationStats} {later : Source Nat} {after : σ}
    (ran : run source target settings verify clock state = some (stats, later, after)) :
    Accounts source target settings verify clock state stats after := by
  rcases run_eq ran with ⟨counted, last⟩
  generalize turnsOf : history target settings verify source clock state = past at counted last
  generalize entriesOf : source.storage.entries state = read at counted
  have total : stats.total = past.1.length := by rw [counted]; rfl
  have early : stats.timedOut = decide (past.1.length < read.1.length) := by rw [counted]
  have entries : past.1.map Turn.entry =
      examined (deadline? settings clock.current).join read.1 clock.advance := by
    rw [← turnsOf, ← entriesOf, history, turns_entries]
  have length : stats.total =
      (examined (deadline? settings clock.current).join read.1 clock.advance).length := by
    rw [total, ← entries, List.length_map]
  have taken : past.1.map Turn.entry = read.1.take stats.total := by
    rw [entries, length]
    exact examined_eq_take _ _ _
  have stopped : stats.timedOut = true ↔ stats.total < read.1.length := by
    rw [early, decide_eq_true_iff, total]
  refine ⟨?_, ?_, ?_, ?_, ?_, ?_, ?_, ?_, ?_⟩
  · rw [counted]
    exact tally_balanced past.1
  · rw [entriesOf]
    refine ⟨?_, stopped⟩
    rw [length]
    exact (examined_isPrefix _ _ _).length_le
  · intro stop limit
    rw [limit, Option.join_some] at length
    have readings := examined_inTime stop read.1 clock.advance
    rw [← length] at readings
    exact ⟨readings.1, fun ended => readings.2 (stopped.mp ended)⟩
  · intro limit
    rw [limit, Option.join_some, examined_unlimited] at length
    rw [← Bool.not_eq_true, stopped, length]
    exact Nat.lt_irrefl _
  · rw [turnsOf, entriesOf]
    exact taken
  · rw [entriesOf, ← taken, ← tally_skipped, counted]
  · rw [last, ← turnsOf, history, turns_state, entriesOf, ← entries, taken]
  · rw [entriesOf, ← taken, counted]
    exact tally_errors_sublist past.1
  · intro unverified
    rw [counted, unverified]
    exact tally_unverified past.1

theorem step_dry (real : TypedMap σ String ν) (verify : Bool) (entry : String × ν)
    (stats : MigrationStats) (state other : σ) :
    step none settings verify entry stats state =
      ((step (some real) settings false entry stats other).1, state) := by
  rw [step.eq_def, step.eq_def]
  cases settings.selects entry.1 <;> rfl

/-- A loop without a target counts as one that writes and does not verify, whatever state
that one has come to. -/
theorem copyAll_dry (real : TypedMap σ String ν) (verify : Bool) (deadline : Option Nat)
    (entries : List (String × ν)) (stats : MigrationStats) (clock : Source Nat)
    (state other : σ) :
    copyAll none settings verify deadline entries stats clock state =
      ((copyAll (some real) settings false deadline entries stats clock other).1,
        (copyAll (some real) settings false deadline entries stats clock other).2.1, state) := by
  induction entries generalizing stats clock other with
  | nil => rfl
  | cons entry rest hypothesis =>
    rw [copyAll, copyAll]
    rcases reached deadline clock with ⟨stop, clock⟩
    cases stop with
    | true => rfl
    | false =>
      dsimp only
      rw [step_dry real verify entry stats state other]
      exact hypothesis _ _ _

theorem run_dry (real : TypedMap σ String ν) (verify : Bool) :
    run source none settings verify clock state =
      (run source (some real) settings false clock state).map fun (stats, later, _) =>
        (stats, later, (source.storage.entries state).2) := by
  rw [run, run]
  cases deadline? settings clock.current with
  | none => rfl
  | some deadline =>
    simp only [Option.bind_eq_bind, Option.bind_some]
    rw [copyAll_dry real verify deadline _ _ _ _ (source.storage.entries state).2]
    rfl

end Runs

/-- The statistics of a run account for every entry, whatever the source, the target, the
settings and the readings of the clock.  A run gives none only if its limit is a time that no
clock shows.  A dry run gives the statistics of the run without verification, and leaves the
state that reading the source has left. -/
theorem run_accounts (source : TypedMap σ String ν) (target : Option (TypedMap σ String ν))
    (settings : MigrationSettings) (verify : Bool) (clock : Source Nat) (state : σ) :
    (run source target settings verify clock state = none ↔
        deadline? settings clock.current = none) ∧
      (∀ stats later after,
        run source target settings verify clock state = some (stats, later, after) →
          Accounts source target settings verify clock state stats after) ∧
      ∀ real, run source none settings verify clock state =
        (run source (some real) settings false clock state).map fun (stats, later, _) =>
          (stats, later, (source.storage.entries state).2) :=
  ⟨run_eq_none_iff source target settings verify clock state,
    fun _ _ _ ran => accounts_of_run ran, fun real => run_dry real verify⟩

/-- A clock on which a limit of one second is reached before the second entry. -/
def striking : Source Nat := ⟨fun place => place * 600000000, 0⟩

/-- The second of two entries is left out, and the first one is found unreadable. -/
theorem limit_strikes_between_entries :
    ∃ stats later after,
      run valueMap (some ⟨(payloadTarget fun _ => true).storage, true⟩)
          { timeoutSeconds := 1 } true striking (⟨twoTexts, false⟩, .empty, .empty) =
        some (stats, later, after) ∧
      Accounts valueMap (some ⟨(payloadTarget fun _ => true).storage, true⟩)
        { timeoutSeconds := 1 } true striking (⟨twoTexts, false⟩, .empty, .empty) stats after ∧
      stats.total = 1 ∧ stats.timedOut = true ∧ stats.errors = [.unreadable "kept"] := by
  refine ⟨_, _, _, rfl, ?_, ?_⟩
  · exact (run_accounts valueMap (some ⟨(payloadTarget fun _ => true).storage, true⟩)
      { timeoutSeconds := 1 } true striking (⟨twoTexts, false⟩, .empty, .empty)).2.1 _ _ _ rfl
  · decide +kernel

end Migration
end TypedStore
