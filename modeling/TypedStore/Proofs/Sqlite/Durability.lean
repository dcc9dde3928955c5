import TypedStore.Proofs.Storage.Calls
import TypedStore.Sqlite

/-!
# What a table keeps of its handle

A handle of the table engine keeps nothing but the number of rows it remembers,
so what readers see is in the table at all times.  A handle in order remembers
the right number; one that has just been opened remembers none.
-/

namespace TypedStore
namespace Sqlite

variable {κ : Type} {codec : KeyCodec κ}

/-- Whether a handle is open and remembers no wrong number of rows. -/
structure InOrder (state : State) : Prop where
  opened : state.2.closed = false
  remembered : ∀ rows countedAt, state.2.cached = some (rows, countedAt) → rows = state.1.size

/-- What readers see of a table. -/
def shown (codec : KeyCodec κ) (table : SqlTable) : Contents κ Bytes where
  load key := do
    let key ← cell? codec key
    let (_, value) ← table.find? key
    value.bytes?
  keys := (table.rows.filterMap (readRow codec)).map Prod.fst
  len := table.size

namespace InOrder

variable {table : SqlTable} {handle : Sqlite}

theorem notClosed (inOrder : InOrder (table, handle)) : ¬handle.closed = true := by
  rw [inOrder.opened]
  exact Bool.false_ne_true

theorem forget (inOrder : InOrder (table, handle)) (changed : SqlTable) :
    InOrder (changed, handle.forget) :=
  ⟨inOrder.opened, fun _ _ impossible => nomatch impossible⟩

/-- Counting gives the number of rows, remembered or not. -/
theorem len (inOrder : InOrder (table, handle)) :
    (Sqlite.len (table, handle)).1 = table.size ∧ (Sqlite.len (table, handle)).2.1 = table ∧
      InOrder (Sqlite.len (table, handle)).2 := by
  have counts : ∀ counting : Sqlite, counting.closed = false →
      InOrder (count table counting).2 := by
    intro counting opened
    refine ⟨opened, ?_⟩
    intro rows countedAt same
    cases same
    rfl
  rw [Sqlite.len, if_neg inOrder.notClosed]
  cases cached : handle.cached with
  | none => exact ⟨rfl, rfl, counts handle inOrder.opened⟩
  | some both =>
    rcases both with ⟨rows, countedAt⟩
    dsimp only
    split
    · exact ⟨inOrder.remembered rows countedAt cached, rfl, inOrder.opened, inOrder.remembered⟩
    · exact ⟨rfl, rfl, counts handle.tick.2 inOrder.opened⟩

/-- Every call keeps a handle in order. -/
theorem after (inOrder : InOrder (table, handle)) (codec : KeyCodec κ)
    (call : StorageCall κ Bytes) :
    InOrder ((Sqlite.storage codec).after call (table, handle)) := by
  cases call with
  | load key => exact inOrder
  | store key value =>
    change InOrder (Sqlite.store codec key value (table, handle))
    rw [Sqlite.store, if_neg inOrder.notClosed]
    split
    · exact inOrder
    · exact inOrder.forget _
  | storeIfAbsent key value =>
    change InOrder (Sqlite.storeIfAbsent codec key value (table, handle)).2
    rw [Sqlite.storeIfAbsent, if_neg inOrder.notClosed]
    split
    · exact inOrder
    · split
      · exact inOrder.forget _
      · exact inOrder.forget _
  | delete removed =>
    change InOrder (Sqlite.delete codec removed (table, handle))
    rw [Sqlite.delete]
    split
    · exact inOrder
    · exact inOrder.forget _
  | range visit start => exact inOrder
  | next =>
    change InOrder (Sqlite.next codec (table, handle)).2
    rw [Sqlite.next, if_neg inOrder.notClosed]
    exact inOrder.forget _
  | keys => exact inOrder
  | len => exact inOrder.len.2.2
  | clear =>
    change InOrder (Sqlite.clear (table, handle))
    rw [Sqlite.clear, if_neg inOrder.notClosed]
    exact inOrder.forget _

/-- What readers see is what is in the table. -/
theorem contents (inOrder : InOrder (table, handle)) :
    (Sqlite.storage codec).contents (table, handle) = shown codec table := by
  have loads : (fun key => Sqlite.load codec key (table, handle)) = (shown codec table).load := by
    funext key
    exact if_neg inOrder.notClosed
  have keys : (visible codec (table, handle)).map Prod.fst = (shown codec table).keys :=
    congrArg _ (if_neg inOrder.notClosed)
  change Contents.mk _ _ _ = Contents.mk _ _ _
  rw [Contents.mk.injEq]
  exact ⟨loads, keys, inOrder.len.1⟩

end InOrder

theorem after_of_closed {state : State} (closed : state.2.closed = true)
    (call : StorageCall κ Bytes) : (Sqlite.storage codec).after call state = state := by
  rcases state with ⟨table, handle⟩
  cases call with
  | store key value => exact if_pos closed
  | storeIfAbsent key value => exact congrArg Prod.snd (if_pos closed)
  | delete removed =>
    change Sqlite.delete codec removed (table, handle) = (table, handle)
    dsimp only at closed
    rw [Sqlite.delete, closed, Bool.or_true]
    rfl
  | next => exact congrArg Prod.snd (if_pos closed)
  | len => exact congrArg Prod.snd (if_pos closed)
  | clear => exact if_pos closed
  | _ => rfl

theorem open?_eq_ok {options : SqliteOptions} (good : options.check = .ok ())
    (executable : options.isExecutable = true) (clock : Source Nat) :
    open? options clock =
      .ok { countCache := options.countCache, cached := none, clock, closed := false } := by
  rw [open?, good, executable]
  rfl

theorem open?_eq_error {options : SqliteOptions} (good : options.check = .ok ())
    (notExecutable : ¬options.isExecutable = true) (clock : Source Nat) :
    open? options clock = .error (.backend "statement not accepted") := by
  rw [open?, good]
  exact if_neg notExecutable

end Sqlite
end TypedStore
