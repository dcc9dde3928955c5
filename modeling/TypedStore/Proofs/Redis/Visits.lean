import TypedStore.Proofs.Storage.Visits
import TypedStore.Redis

/-!
# One order for all visitors

A walk of the remote engine asks for its pages while it goes, and it asks no further once
the visitor has stopped it.  The pages that it does ask for do not depend on the visitor, so
a walk that is stopped has come through the first entries of one that is not.  Nothing is
assumed of the server for that.
-/

namespace TypedStore
namespace Redis

variable {σ κ : Type} (link : RedisLink σ) (codec : KeyCodec κ)

/-- The entries that a walk comes to if it is not stopped. -/
def entriesFrom : (pages : Nat) → UInt64 → (seen : List Bytes) → State σ → List (κ × Bytes)
  | 0, _, _, _ => []
  | pages + 1, cursor, seen, state =>
    match scanPage link cursor state with
    | (.error _, _) => []
    | (.ok (next, page), state) =>
      match fetch link (freshKeys seen page) state with
      | (.error _, _) => []
      | (.ok values, state) =>
        ownedEntries codec state.1.options (freshKeys seen page) values ++
          if next = 0 then [] else entriesFrom pages next (seen ++ freshKeys seen page) state

variable {link codec}

theorem rangeFrom_eq_walk {α : Type} (visit : Visitor κ Bytes α) (pages : Nat)
    (cursor : UInt64) (seen : List Bytes) (gathered : α) (state : State σ) :
    (rangeFrom link codec visit pages cursor seen gathered state).1 =
      (visit.walk (entriesFrom link codec pages cursor seen state) gathered).1 := by
  induction pages generalizing cursor seen gathered state with
  | zero => rfl
  | succ pages hypothesis =>
    rw [rangeFrom, entriesFrom]
    rcases scanPage link cursor state with ⟨error | ⟨next, page⟩, scanned⟩
    · rfl
    · dsimp only
      rcases fetch link (freshKeys seen page) scanned with ⟨error | values, after⟩
      · rfl
      · dsimp only
        rw [Visitor.walk_append]
        rcases visit.walk (ownedEntries codec after.1.options (freshKeys seen page) values)
          gathered with ⟨reached, goesOn⟩
        cases goesOn with
        | false => rfl
        | true =>
          dsimp only
          split
          · rfl
          · exact hypothesis next (seen ++ freshKeys seen page) reached after

theorem walksEntries : (Redis.storage link codec).WalksEntries := by
  apply Storage.WalksEntries.of_order fun state =>
    if state.1.closed then [] else entriesFrom link codec (link.pageBound state.2) 0 [] state
  intro state α visit start
  change (range link codec visit start state).1 = _
  rw [range]
  split
  · rfl
  · exact rangeFrom_eq_walk visit _ 0 [] start state

end Redis
end TypedStore
