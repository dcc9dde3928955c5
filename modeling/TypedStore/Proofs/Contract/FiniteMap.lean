import TypedStore.Listing
import TypedStore.TypedMap

/-!
# What a map may answer

The operations of a map are put into one type, `MapOp`, so that a program using
maps is a list of calls.  A call also says whether it goes through a map that
allows overwriting; several maps may share one engine.

`MapOp.Allows` is the contract: what an operation may answer, and which finite
map there is afterwards, given the finite map before.  It leaves open what no
engine promises, the order of keys and entries and the choice that `next`
makes, and fixes everything else.  After closing there is no map any more:
reads answer as on an empty one and writes are ignored.
-/

namespace TypedStore

/-- An operation of a map, with what it is given. -/
inductive MapOp (κ ν : Type) : Type 1 where
  | load (key : κ)
  | has (key : κ)
  | store (key : κ) (value : ν)
  | delete (keys : List κ)
  | pop (key : κ)
  | next
  | range {α : Type} (visit : Visitor κ ν α) (start : α)
  | keys
  | len
  | isEmpty
  | clear
  | close

/-- A call of an operation, through a map that allows overwriting or denies it. -/
structure MapCall (κ ν : Type) : Type 1 where
  allowOverwrite : Bool
  op : MapOp κ ν

/-- A finite map, or none once it is closed. -/
abbrev MapState (κ ν : Type) := Option (Listing κ ν)

/-- The entries as readers see them. -/
def MapState.seen {κ ν : Type} [DecidableEq κ] (map : MapState κ ν) : Listing κ ν :=
  map.getD .empty

/-- Insert an entry unless its key is there. -/
def Listing.insertAbsent {κ ν : Type} [DecidableEq κ] (contents : Listing κ ν) (key : κ)
    (value : ν) : Listing κ ν :=
  if (contents.get? key).isSome then contents else contents.insert key value

namespace MapOp

variable {κ ν : Type}

/-- What an operation answers with. -/
def Answer : MapOp κ ν → Type
  | .load _ => Option ν
  | .has _ => Bool
  | .store _ _ => Unit
  | .delete _ => Unit
  | .pop _ => Option ν
  | .next => Option (κ × ν)
  | .range (α := α) _ _ => α
  | .keys => List κ
  | .len => Nat
  | .isEmpty => Bool
  | .clear => Unit
  | .close => Except StoreError Unit

/-- Whether an operation is given keys and values of some kind only. -/
def Within (keys : κ → Prop) (values : ν → Prop) : MapOp κ ν → Prop
  | .load key => keys key
  | .has key => keys key
  | .store key value => keys key ∧ values value
  | .delete removed => ∀ key ∈ removed, keys key
  | .pop key => keys key
  | _ => True

theorem Within.mono {op : MapOp κ ν} {keys moreKeys : κ → Prop} {values moreValues : ν → Prop}
    (within : op.Within keys values) (widerKeys : ∀ key, keys key → moreKeys key)
    (widerValues : ∀ value, values value → moreValues value) : op.Within moreKeys moreValues := by
  cases op with
  | load key => exact widerKeys key within
  | has key => exact widerKeys key within
  | store key value => exact ⟨widerKeys key within.1, widerValues value within.2⟩
  | delete removed => exact fun key member => widerKeys key (within key member)
  | pop key => exact widerKeys key within
  | _ => trivial

theorem within_anything (op : MapOp κ ν) : op.Within (fun _ => True) fun _ => True := by
  cases op with
  | store key value => exact ⟨trivial, trivial⟩
  | delete removed => exact fun _ _ => trivial
  | _ => trivial

variable [DecidableEq κ]

/-- What an operation may answer, given the map before and the one after it. -/
def Allows (allowOverwrite : Bool) (before : MapState κ ν) :
    (op : MapOp κ ν) → op.Answer → MapState κ ν → Prop
  | .load key, answer, after => answer = before.seen.get? key ∧ after = before
  | .has key, answer, after => answer = (before.seen.get? key).isSome ∧ after = before
  | .store key value, _, after =>
    after = before.map fun contents =>
      if allowOverwrite then contents.insert key value else contents.insertAbsent key value
  | .delete removed, _, after => after = before.map (·.eraseAll removed)
  | .pop key, answer, after =>
    answer = before.seen.get? key ∧ after = before.map (·.erase key)
  | .next, none, after => before.seen.entries = [] ∧ after = before
  | .next, some (key, value), after =>
    before.seen.get? key = some value ∧ after = before.map (·.erase key)
  | .range visit start, answer, after =>
    (∃ order, order.Perm before.seen.entries ∧ answer = (visit.walk order start).1) ∧
      after = before
  | .keys, answer, after => List.Perm answer before.seen.keys ∧ after = before
  | .len, answer, after => answer = before.seen.entries.length ∧ after = before
  | .isEmpty, answer, after => answer = before.seen.entries.isEmpty ∧ after = before
  | .clear, _, after => after = before.map fun _ => .empty
  | .close, answer, after =>
    answer = (if before.isSome then .ok () else .error .closed) ∧ after = none

end MapOp

/-- Carry out an operation. -/
def TypedMap.perform {σ κ ν : Type} (map : TypedMap σ κ ν) :
    (op : MapOp κ ν) → σ → op.Answer × σ
  | .load key, state => map.load key state
  | .has key, state => map.has key state
  | .store key value, state => ((), map.store key value state)
  | .delete keys, state => ((), map.delete keys state)
  | .pop key, state => map.pop key state
  | .next, state => map.next state
  | .range visit start, state => map.range visit start state
  | .keys, state => map.keys state
  | .len, state => map.len state
  | .isEmpty, state => map.isEmpty state
  | .clear, state => ((), map.clear state)
  | .close, state => map.close state

/-- A call and what it answered. -/
structure AnsweredCall (κ ν : Type) : Type 1 where
  call : MapCall κ ν
  answer : call.op.Answer

/-- Make calls one after another on one engine. -/
def Storage.run {σ κ ν : Type} (storage : Storage σ κ ν) :
    List (MapCall κ ν) → σ → List (AnsweredCall κ ν) × σ
  | [], state => ([], state)
  | call :: rest, state =>
    let (answer, state) := TypedMap.perform ⟨storage, call.allowOverwrite⟩ call.op state
    let (answers, state) := run storage rest state
    (⟨call, answer⟩ :: answers, state)

/-- Whether all answers are those of one finite map, which changes from call to
call as the contract says. -/
def MapState.Explains {κ ν : Type} [DecidableEq κ] :
    MapState κ ν → List (AnsweredCall κ ν) → Prop
  | _, [] => True
  | before, ⟨call, answer⟩ :: rest =>
    ∃ after, call.op.Allows call.allowOverwrite before answer after ∧
      MapState.Explains after rest

end TypedStore
