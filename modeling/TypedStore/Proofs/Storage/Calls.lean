import TypedStore.Storage.Combine

/-!
# Calls and their answers

What a call of a storage answers and does to its state, for each call but
closing, and what readers of a state see.  Programs over maps come down to these
calls: taking an entry out by its key is reading and removing it, and a map that
denies overwriting inserts under absent keys only.
-/

namespace TypedStore

variable {σ κ ν : Type}

/-- A call of a storage that leaves it open. -/
inductive StorageCall (κ ν : Type) : Type 1 where
  | load (key : κ)
  | store (key : κ) (value : ν)
  | storeIfAbsent (key : κ) (value : ν)
  | delete (keys : List κ)
  | range {α : Type} (visit : Visitor κ ν α) (start : α)
  | next
  | keys
  | len
  | clear

/-- What a call answers with. -/
def StorageCall.Answer : StorageCall κ ν → Type
  | .load _ => Option ν
  | .store _ _ => Unit
  | .storeIfAbsent _ _ => Bool
  | .delete _ => Unit
  | .range (α := α) _ _ => α
  | .next => Option (κ × ν)
  | .keys => List κ
  | .len => Nat
  | .clear => Unit

/-- Whether a call is given keys of some kind only. -/
def StorageCall.Within (named : κ → Prop) : StorageCall κ ν → Prop
  | .load key => named key
  | .store key _ => named key
  | .storeIfAbsent key _ => named key
  | .delete removed => ∀ key ∈ removed, named key
  | _ => True

theorem StorageCall.within_anything (call : StorageCall κ ν) : call.Within fun _ => True := by
  cases call with
  | delete removed => exact fun _ _ => trivial
  | _ => trivial

/-- A call and what it answered. -/
structure StorageCall.Answered (κ ν : Type) : Type 1 where
  call : StorageCall κ ν
  answer : call.Answer

/-- What readers see. -/
structure Contents (κ ν : Type) where
  load : κ → Option ν
  keys : List κ
  len : Nat

namespace Storage

/-- What readers of a state see. -/
def contents (storage : Storage σ κ ν) (state : σ) : Contents κ ν where
  load key := (storage.load key state).1
  keys := (storage.keys state).1
  len := (storage.len state).1

/-- The state after a call. -/
def after (storage : Storage σ κ ν) : StorageCall κ ν → σ → σ
  | .load key, state => (storage.load key state).2
  | .store key value, state => storage.store key value state
  | .storeIfAbsent key value, state => (storage.storeIfAbsent key value state).2
  | .delete keys, state => storage.delete keys state
  | .range visit start, state => (storage.range visit start state).2
  | .next, state => (storage.next state).2
  | .keys, state => (storage.keys state).2
  | .len, state => (storage.len state).2
  | .clear, state => storage.clear state

/-- Make a call. -/
def perform (storage : Storage σ κ ν) : (call : StorageCall κ ν) → σ → call.Answer × σ
  | .load key, state => storage.load key state
  | .store key value, state => ((), storage.store key value state)
  | .storeIfAbsent key value, state => storage.storeIfAbsent key value state
  | .delete keys, state => ((), storage.delete keys state)
  | .range visit start, state => storage.range visit start state
  | .next, state => storage.next state
  | .keys, state => storage.keys state
  | .len, state => storage.len state
  | .clear, state => ((), storage.clear state)

/-- Make calls one after another. -/
def performAll (storage : Storage σ κ ν) :
    List (StorageCall κ ν) → σ → List (StorageCall.Answered κ ν) × σ
  | [], state => ([], state)
  | call :: rest, state =>
    let (answer, state) := storage.perform call state
    let (answers, state) := performAll storage rest state
    (⟨call, answer⟩ :: answers, state)

theorem perform_snd (storage : Storage σ κ ν) (call : StorageCall κ ν) (state : σ) :
    (storage.perform call state).2 = storage.after call state := by
  cases call <;> rfl

/-- What every call keeps is kept by calls made one after another. -/
theorem performAll_induction {storage : Storage σ κ ν} (named : κ → Prop) (kept : σ → Prop)
    (step : ∀ (call : StorageCall κ ν) (state : σ), call.Within named → kept state →
      kept (storage.after call state))
    {calls : List (StorageCall κ ν)} (within : ∀ call ∈ calls, call.Within named) {state : σ}
    (first : kept state) : kept (storage.performAll calls state).2 := by
  induction calls generalizing state with
  | nil => exact first
  | cons call rest hypothesis =>
    have later := step call state (within call List.mem_cons_self) first
    rw [← perform_snd] at later
    exact hypothesis (fun other member => within other (List.mem_cons_of_mem _ member)) later

theorem choose_after (pick : σ → Storage σ κ ν) (call : StorageCall κ ν) (state : σ) :
    (choose pick).after call state = (pick state).after call state := by
  cases call <;> rfl

theorem within_after {τ : Type} (storage : Storage σ κ ν) (get : τ → σ) (put : τ → σ → τ)
    (call : StorageCall κ ν) (state : τ) :
    (storage.within get put).after call state = put state (storage.after call (get state)) := by
  cases call <;> rfl

end Storage
end TypedStore
