import TypedStore.Migration

/-!
# Runs turn by turn

A run gives each entry of the source a turn, in the order of the walk, until the
limit is reached.  What happens at a turn depends on the entry and on the state
that the turns before it have left, and on nothing that was counted.  So a run
is a history of turns, each with its verdict, and the statistics are an account
of the history.

`run_eq` says so for whole runs.  What is claimed of runs is then claimed of
their turns.
-/

namespace TypedStore

/-- What becomes of an entry at its turn. -/
inductive Verdict where
  /-- The pattern leaves the entry out. -/
  | skipped
  /-- The entry is written, or would have been. -/
  | migrated
  /-- The entry is written, but its new key does not give a value back. -/
  | unreadable
  deriving DecidableEq

/-- The statistics with one more entry in them. -/
def MigrationStats.note (stats : MigrationStats) (key : String) : Verdict → MigrationStats
  | .skipped => { stats with total := stats.total + 1, skipped := stats.skipped + 1 }
  | .migrated => { stats with total := stats.total + 1, migrated := stats.migrated + 1 }
  | .unreadable =>
    { stats with total := stats.total + 1, errors := stats.errors ++ [.unreadable key] }

namespace Migration

variable {σ ν : Type}

/-- An entry and the state at the beginning of its turn. -/
structure Turn (σ ν : Type) where
  entry : String × ν
  state : σ

/-- The entries that are dealt with before the limit is reached. -/
def examined {α : Type} (deadline : Option Nat) : List α → Source Nat → List α
  | [], _ => []
  | entry :: rest, clock =>
    match reached deadline clock with
    | (true, _) => []
    | (false, clock) => entry :: examined deadline rest clock

theorem examined_isPrefix {α : Type} (deadline : Option Nat) (entries : List α)
    (clock : Source Nat) : examined deadline entries clock <+: entries := by
  induction entries generalizing clock with
  | nil => exact List.prefix_rfl
  | cons entry rest hypothesis =>
    rw [examined]
    split
    · exact List.nil_prefix
    · exact List.cons_prefix_cons.mpr ⟨rfl, hypothesis _⟩

namespace Turn

/-- The state right after the entry is written. -/
def written (target : TypedMap σ String ν) (settings : MigrationSettings) (turn : Turn σ ν) : σ :=
  target.store (settings.rename turn.entry.1) turn.entry.2 turn.state

/-- What the new key gives right after the entry is written. -/
def readBack (target : TypedMap σ String ν) (settings : MigrationSettings) (turn : Turn σ ν) :
    Option ν :=
  (target.load (settings.rename turn.entry.1) (turn.written target settings)).1

variable (target : Option (TypedMap σ String ν)) (settings : MigrationSettings) (verify : Bool)

/-- The verdict on an entry, and the state at the end of its turn. -/
def outcome (turn : Turn σ ν) : Verdict × σ :=
  if settings.selects turn.entry.1 then
    match target with
    | none => (.migrated, turn.state)
    | some target =>
      if verify then
        let (found, state) := target.has (settings.rename turn.entry.1)
          (turn.written target settings)
        (if found then .migrated else .unreadable, state)
      else (.migrated, turn.written target settings)
  else (.skipped, turn.state)

/-- The verdict on an entry. -/
def verdict (turn : Turn σ ν) : Verdict :=
  (turn.outcome target settings verify).1

/-- With verification the verdict is by what the new key gives. -/
theorem verdict_verified (target : TypedMap σ String ν) (settings : MigrationSettings)
    (turn : Turn σ ν) :
    turn.verdict (some target) settings true =
      if settings.selects turn.entry.1 then
        if (turn.readBack target settings).isSome then .migrated else .unreadable
      else .skipped := by
  rw [verdict, outcome.eq_def]
  split <;> rfl

end Turn

section History

variable (target : Option (TypedMap σ String ν)) (settings : MigrationSettings) (verify : Bool)

/-- The turns of entries one after another, and the state after the last. -/
def turns : List (String × ν) → σ → List (Turn σ ν) × σ
  | [], state => ([], state)
  | entry :: rest, state =>
    let turn : Turn σ ν := ⟨entry, state⟩
    let (later, state) := turns rest (turn.outcome target settings verify).2
    (turn :: later, state)

/-- The account of some turns. -/
def tally (history : List (Turn σ ν)) : MigrationStats where
  total := history.length
  migrated := history.countP fun turn => turn.verdict target settings verify = .migrated
  skipped := history.countP fun turn => turn.verdict target settings verify = .skipped
  errors := (history.filter fun turn => turn.verdict target settings verify = .unreadable).map
    fun turn => .unreadable turn.entry.1

/-- The turns of a run, and the state after the last. -/
def history (source : TypedMap σ String ν) (clock : Source Nat) (state : σ) :
    List (Turn σ ν) × σ :=
  turns target settings verify
    (examined (deadline? settings clock.current).join (source.storage.entries state).1
      clock.advance)
    (source.storage.entries state).2

variable {target settings verify}

theorem turns_entries (entries : List (String × ν)) (state : σ) :
    (turns target settings verify entries state).1.map Turn.entry = entries := by
  induction entries generalizing state with
  | nil => rfl
  | cons entry rest hypothesis => exact congrArg (entry :: ·) (hypothesis _)

/-- A turn is counted by its verdict. -/
theorem step_eq (entry : String × ν) (stats : MigrationStats) (state : σ) :
    step target settings verify entry stats state =
      (stats.note entry.1 (Turn.verdict target settings verify ⟨entry, state⟩),
        (Turn.outcome target settings verify ⟨entry, state⟩).2) := by
  rw [step.eq_def, Turn.verdict, Turn.outcome.eq_def]
  dsimp only
  cases settings.selects entry.1 with
  | false => rfl
  | true =>
    cases target with
    | none => rfl
    | some target =>
      cases verify with
      | false => rfl
      | true =>
        rcases answer : target.has (settings.rename entry.1)
          (Turn.written target settings ⟨entry, state⟩) with ⟨found, after⟩
        have copied : target.has (settings.rename entry.1)
            (target.store (settings.rename entry.1) entry.2 state) = (found, after) := answer
        simp only [copyEntry, if_true, answer, copied]
        cases found <;> rfl

/-- Adding turns to an account one by one adds their own account. -/
theorem foldl_note (history : List (Turn σ ν)) (stats : MigrationStats) :
    history.foldl (fun stats turn =>
        stats.note turn.entry.1 (turn.verdict target settings verify)) stats =
      { stats with
        total := stats.total + (tally target settings verify history).total
        migrated := stats.migrated + (tally target settings verify history).migrated
        skipped := stats.skipped + (tally target settings verify history).skipped
        errors := stats.errors ++ (tally target settings verify history).errors } := by
  induction history generalizing stats with
  | nil => simp only [List.foldl_nil, tally, List.length_nil, List.countP_nil, List.filter_nil,
      List.map_nil, Nat.add_zero, List.append_nil]
  | cons turn rest hypothesis =>
    rw [List.foldl_cons, hypothesis]
    cases found : turn.verdict target settings verify <;>
      simp only [MigrationStats.note, tally, List.length_cons, List.countP_cons, List.filter_cons,
        found, reduceCtorEq, decide_true, decide_false, Bool.false_eq_true, if_true, if_false,
        List.map_cons, List.append_assoc, List.singleton_append, Nat.add_zero] <;>
      congr 1 <;> omega

variable (target settings verify) in
/-- Dealing with entries one after another is giving turns to those before the
limit. -/
theorem copyAll_eq (deadline : Option Nat) (entries : List (String × ν))
    (stats : MigrationStats) (clock : Source Nat) (state : σ) :
    ∃ later, copyAll target settings verify deadline entries stats clock state =
      ({ (turns target settings verify (examined deadline entries clock) state).1.foldl
            (fun stats turn => stats.note turn.entry.1 (turn.verdict target settings verify))
            stats with
          timedOut := stats.timedOut ||
            decide ((examined deadline entries clock).length < entries.length) },
        later, (turns target settings verify (examined deadline entries clock) state).2) := by
  induction entries generalizing stats clock state with
  | nil => exact ⟨clock, by simp [copyAll, examined, turns]⟩
  | cons entry rest hypothesis =>
    rw [copyAll, examined]
    rcases reached deadline clock with ⟨stop, clock⟩
    cases stop with
    | true => exact ⟨clock, by simp [turns]⟩
    | false =>
      rcases hypothesis (stats.note entry.1 (Turn.verdict target settings verify ⟨entry, state⟩))
        clock (Turn.outcome target settings verify ⟨entry, state⟩).2 with ⟨later, rest⟩
      refine ⟨later, ?_⟩
      dsimp only
      rw [step_eq]
      dsimp only
      rw [rest]
      have kept : ∀ verdict, (stats.note entry.1 verdict).timedOut = stats.timedOut := by
        intro verdict
        cases verdict <;> rfl
      simp only [turns, List.foldl_cons, List.length_cons, Nat.add_lt_add_iff_right, kept]

/-- A run ends early exactly when some entries have had no turn. -/
theorem run_eq {source : TypedMap σ String ν} {clock later : Source Nat} {state after : σ}
    {stats : MigrationStats}
    (ran : run source target settings verify clock state = some (stats, later, after)) :
    stats = { tally target settings verify
          (history target settings verify source clock state).1 with
        elapsed := stats.elapsed
        timedOut := decide ((history target settings verify source clock state).1.length <
          (source.storage.entries state).1.length) } ∧
      after = (history target settings verify source clock state).2 := by
  rw [run] at ran
  cases limit : deadline? settings clock.current with
  | none =>
    rw [limit] at ran
    cases ran
  | some deadline =>
    rw [limit] at ran
    rcases copyAll_eq target settings verify deadline (source.storage.entries state).1 {}
      clock.advance (source.storage.entries state).2 with ⟨stop, copied⟩
    have same : history target settings verify source clock state =
        turns target settings verify
          (examined deadline (source.storage.entries state).1 clock.advance)
          (source.storage.entries state).2 := by
      rw [history, limit, Option.join_some]
    have count : (history target settings verify source clock state).1.length =
        (examined deadline (source.storage.entries state).1 clock.advance).length := by
      rw [same, ← List.length_map (f := Turn.entry), turns_entries]
    simp only [Option.bind_eq_bind, Option.bind_some, copied, foldl_note] at ran
    rw [count, same]
    cases ran
    simp

/-- The entries that have had a turn are the first ones. -/
theorem history_isPrefix (source : TypedMap σ String ν) (clock : Source Nat) (state : σ) :
    (history target settings verify source clock state).1.map Turn.entry <+:
      (source.storage.entries state).1 := by
  rw [history, turns_entries]
  exact examined_isPrefix _ _ _

/-- A run that does not end early gives every entry a turn. -/
theorem history_of_inTime {source : TypedMap σ String ν} {clock later : Source Nat}
    {state after : σ} {stats : MigrationStats}
    (ran : run source target settings verify clock state = some (stats, later, after))
    (inTime : stats.timedOut = false) :
    history target settings verify source clock state =
      turns target settings verify (source.storage.entries state).1
        (source.storage.entries state).2 := by
  have all : (source.storage.entries state).1.length ≤
      (history target settings verify source clock state).1.length := by
    rw [(run_eq ran).1] at inTime
    exact Nat.not_lt.mp (of_decide_eq_false inTime)
  rw [history, ← List.length_map (f := Turn.entry), turns_entries] at all
  rw [history, (examined_isPrefix _ _ _).eq_of_length_le all]

end History

end Migration
end TypedStore
