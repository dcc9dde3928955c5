import TypedStore.Storage

/-!
# Which entries a visitor is called with

A visitor that notes what it is called with, `Visitor.recorded`, shows how far a walk goes:
the calls are those for the first entries, up to and with the first one that it answers with
false.  `Storage.WalksEntries` says that a storage walks over the same entries in the same
order for every visitor, so what one visitor is shown says what every other one is.
-/

namespace TypedStore

variable {σ κ ν : Type}

namespace Visitor

variable {α : Type}

/-- A visitor that also notes the entries it is called with. -/
def recorded (visit : Visitor κ ν α) : Visitor κ ν (α × List (κ × ν)) :=
  fun key value gathered =>
    let (after, goesOn) := visit key value gathered.1
    ((after, gathered.2 ++ [(key, value)]), goesOn)

/-- What a visitor answers when it is called with one entry after the other. -/
def answers (visit : Visitor κ ν α) : List (κ × ν) → α → List Bool
  | [], _ => []
  | (key, value) :: rest, gathered =>
    let (after, goesOn) := visit key value gathered
    goesOn :: answers visit rest after

/-- The entries up to and with the first one that is answered with false; all of them if
none is. -/
def called (visit : Visitor κ ν α) (entries : List (κ × ν)) (start : α) : List (κ × ν) :=
  entries.take ((visit.answers entries start).idxOf false + 1)

theorem length_answers (visit : Visitor κ ν α) (entries : List (κ × ν)) (start : α) :
    (visit.answers entries start).length = entries.length := by
  induction entries generalizing start with
  | nil => rfl
  | cons entry rest hypothesis =>
    rcases entry with ⟨key, value⟩
    exact congrArg (· + 1) (hypothesis (visit key value start).1)

/-- Noting the calls changes nothing else, and what is noted is how far the walk goes. -/
theorem walk_recorded (visit : Visitor κ ν α) (entries noted : List (κ × ν)) (start : α) :
    (visit.recorded.walk entries (start, noted)).1 =
      ((visit.walk entries start).1, noted ++ visit.called entries start) := by
  induction entries generalizing noted start with
  | nil => exact congrArg (Prod.mk start) (List.append_nil noted).symm
  | cons entry rest hypothesis =>
    rcases entry with ⟨key, value⟩
    rw [walk, walk, called, answers, recorded]
    cases visited : visit key value start with
    | mk after goesOn =>
      cases goesOn with
      | false => rfl
      | true =>
        have further : (true :: visit.answers rest after).idxOf false =
            (visit.answers rest after).idxOf false + 1 := by
          rw [List.idxOf_cons]
          rfl
        dsimp only
        rw [further, List.take_succ_cons, hypothesis, List.append_assoc]
        rfl

/-- A visitor that never stops is called with every entry. -/
theorem called_of_goesOn {visit : Visitor κ ν α}
    (goesOn : ∀ key value gathered, (visit key value gathered).2 = true)
    (entries : List (κ × ν)) (start : α) : visit.called entries start = entries := by
  have never : ∀ (entries : List (κ × ν)) (start : α), false ∉ visit.answers entries start := by
    intro entries
    induction entries with
    | nil => exact fun _ => List.not_mem_nil
    | cons entry rest hypothesis =>
      rcases entry with ⟨key, value⟩
      intro start member
      rcases List.mem_cons.mp member with here | later
      · rw [goesOn] at here
        cases here
      · exact hypothesis _ later
  rw [called, List.idxOf_eq_length (never entries start), length_answers]
  exact List.take_of_length_le (Nat.le_succ _)

end Visitor

/-- Whether a storage walks over its entries in one order, whatever the visitor. -/
def Storage.WalksEntries (storage : Storage σ κ ν) : Prop :=
  ∀ (state : σ) {α : Type} (visit : Visitor κ ν α) (start : α),
    (storage.range visit start state).1 = (visit.walk (storage.entries state).1 start).1

/-- If every visitor walks over some list of entries, the same for all, these are the entries
of the storage. -/
theorem Storage.entries_of_order {storage : Storage σ κ ν} (order : σ → List (κ × ν))
    (walks : ∀ (state : σ) {α : Type} (visit : Visitor κ ν α) (start : α),
      (storage.range visit start state).1 = (visit.walk (order state) start).1) (state : σ) :
    (storage.entries state).1 = order state := by
  change (storage.range Visitor.collect [] state).1.reverse = order state
  rw [walks, Visitor.walk_collect, List.append_nil, List.reverse_reverse]

theorem Storage.WalksEntries.of_order {storage : Storage σ κ ν} (order : σ → List (κ × ν))
    (walks : ∀ (state : σ) {α : Type} (visit : Visitor κ ν α) (start : α),
      (storage.range visit start state).1 = (visit.walk (order state) start).1) :
    storage.WalksEntries := by
  intro state α visit start
  rw [entries_of_order order walks]
  exact walks state visit start

end TypedStore
