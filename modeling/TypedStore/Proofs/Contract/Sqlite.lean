import TypedStore.Proofs.Contract.Mirror
import TypedStore.Proofs.Contract.Refinement
import TypedStore.Proofs.Sqlite.Rows
import TypedStore.Sqlite

/-!
# The table engine is a finite map

The rows of the table mirror a map: keys and values are byte strings, which
need no opening.  This is about a table that the handle has to itself, since the
number of rows that it remembers would otherwise be out of date.

A remembered number is right because every operation that may change the table
forgets it.  How long it is believed, and what the clock shows, does not matter.
-/

namespace TypedStore
namespace Sqlite

variable {κ : Type} {codec : KeyCodec κ}

/-- Whether a cell holds what a key is written as. -/
def SpellsCell (codec : KeyCodec κ) (cell : SqlValue) (key : κ) : Prop :=
  ∃ bytes, cell = .blob bytes ∧ codec.Spells bytes key

theorem biUnique_spellsCell : Relator.BiUnique (SpellsCell codec) := by
  constructor
  · rintro first key second ⟨bytes, rfl, spelled⟩ ⟨others, rfl, otherSpelled⟩
    rw [KeyCodec.biUnique_spells.1 spelled otherSpelled]
  · rintro cell first second ⟨bytes, rfl, spelled⟩ ⟨others, same, otherSpelled⟩
    cases same
    exact KeyCodec.biUnique_spells.2 spelled otherSpelled

/-- No cell holds a key that cannot be written. -/
theorem not_spellsCell {key : κ} (unspelled : ∀ bytes, ¬codec.Spells bytes key)
    (cell : SqlValue) : ¬SpellsCell codec cell key := by
  rintro ⟨bytes, _, spelled⟩
  exact unspelled bytes spelled

/-- Whether a cell holds a value. -/
def HoldsCell (cell : SqlValue) (value : Bytes) : Prop :=
  cell = .blob value

/-- The map that a handle and its table stand for. -/
inductive Represents (codec : KeyCodec κ) : State → MapState κ Bytes → Prop where
  | closed {table : SqlTable} {handle : Sqlite} (closed : handle.closed = true) :
    Represents codec (table, handle) none
  | opened {table : SqlTable} {handle : Sqlite} {contents : Listing κ Bytes}
    (opened : handle.closed = false)
    (remembered : ∀ rows countedAt, handle.cached = some (rows, countedAt) → rows = table.size)
    (mirrors : Mirrors (SpellsCell codec) HoldsCell table.rows contents) :
    Represents codec (table, handle) (some contents)

/-- A handle that has forgotten the number of rows remembers nothing wrong. -/
theorem represents_forget {table : SqlTable} {handle : Sqlite} {contents : Listing κ Bytes}
    (opened : handle.closed = false)
    (mirrors : Mirrors (SpellsCell codec) HoldsCell table.rows contents) :
    Represents codec (table, handle.forget) (some contents) := by
  refine .opened opened ?_ mirrors
  intro rows countedAt impossible
  cases impossible

variable [DecidableEq κ]

/-- Looking up a cell finds what the map holds. -/
theorem find?_rel {table : SqlTable} {contents : Listing κ Bytes}
    (mirrors : Mirrors (SpellsCell codec) HoldsCell table.rows contents) {key : κ}
    {bytes : Bytes} (spelled : codec.Spells bytes key) :
    Option.Rel (fun row value => row.2 = SqlValue.blob value) (table.find? (.blob bytes))
      (contents.get? key) := by
  have found := mirrors.find? biUnique_spellsCell ⟨bytes, rfl, spelled⟩
  have notNull : SqlValue.blob bytes ≠ .null := fun same => SqlValue.noConfusion same
  rw [SqlTable.find?_eq_listing table notNull]
  generalize Listing.find? (SqlValue.blob bytes) table.rows = stored at found
  generalize contents.get? key = held at found
  cases found with
  | none => exact Option.Rel.none
  | some same => exact Option.Rel.some same

theorem load_eq {state : State} {map : MapState κ Bytes} (represents : Represents codec state map)
    {key : κ} (faithful : codec.Faithful key) : load codec key state = map.seen.get? key := by
  cases represents with
  | closed closed =>
    rw [load, if_pos closed]
    rfl
  | @opened table handle contents opened _ mirrors =>
    rcases faithful.spelled_or with ⟨bytes, spelled⟩ | ⟨unwritable, unspelled⟩
    · have looked : load codec key (table, handle) =
          (table.find? (.blob bytes)).bind fun row => row.2.bytes? := by
        rw [load, opened, cell?, spelled.bytes?]
        rfl
      rw [looked]
      apply bind_eq_of_rel (find?_rel mirrors spelled)
      intro row value same
      rw [same]
      rfl
    · rw [load, opened, cell?, unwritable]
      exact (mirrors.get?_eq_none (not_spellsCell unspelled)).symm

theorem visible_perm {state : State} {map : MapState κ Bytes}
    (represents : Represents codec state map) : (visible codec state).Perm map.seen.entries := by
  cases represents with
  | closed closed =>
    rw [visible, if_pos closed]
    exact List.Perm.refl _
  | opened opened _ mirrors =>
    rw [visible, opened]
    apply mirrors.filterMap_perm
    rintro ⟨cell, stored⟩ ⟨key, value⟩ ⟨bytes, same, spelled⟩ held
    dsimp only at same spelled held
    rw [same, held, readRow]
    change (do
      let key ← codec.key? bytes
      return (key, value)) = some (key, value)
    rw [spelled.key?]
    rfl

/-! ## Writing -/

theorem mirrors_upsert {table : SqlTable} {contents : Listing κ Bytes}
    (mirrors : Mirrors (SpellsCell codec) HoldsCell table.rows contents) {key : κ}
    {bytes : Bytes} (spelled : codec.Spells bytes key) (value : Bytes) :
    Mirrors (SpellsCell codec) HoldsCell (table.upsert (.blob bytes) (.blob value)).rows
      (contents.insert key value) := by
  have notNull : SqlValue.blob bytes ≠ .null := fun same => SqlValue.noConfusion same
  refine mirrors.insert biUnique_spellsCell ⟨bytes, rfl, spelled⟩ rfl ?_
  rw [table.rows_upsert notNull]

theorem mirrors_erase {table : SqlTable} {contents : Listing κ Bytes}
    (mirrors : Mirrors (SpellsCell codec) HoldsCell table.rows contents) {key : κ}
    {bytes : Bytes} (spelled : codec.Spells bytes key) :
    Mirrors (SpellsCell codec) HoldsCell (table.erase (.blob bytes)).rows
      (contents.erase key) := by
  have notNull : SqlValue.blob bytes ≠ .null := fun same => SqlValue.noConfusion same
  rw [table.rows_erase notNull]
  exact mirrors.filter biUnique_spellsCell ⟨bytes, rfl, spelled⟩

theorem represents_store {state : State} {map : MapState κ Bytes}
    (represents : Represents codec state map) {key : κ} (known : codec.Restores key)
    (value : Bytes) :
    Represents codec (store codec key value state) (map.map (·.insert key value)) := by
  rcases known with ⟨bytes, spelled⟩
  cases represents with
  | closed closed =>
    rw [store, if_pos closed]
    exact .closed closed
  | @opened table handle contents opened _ mirrors =>
    have stored : store codec key value (table, handle) =
        (table.upsert (.blob bytes) (.blob value), handle.forget) := by
      rw [store, opened, cell?, spelled.bytes?]
      rfl
    rw [stored]
    exact represents_forget opened (mirrors_upsert mirrors spelled value)

theorem represents_storeIfAbsent {state : State} {map : MapState κ Bytes}
    (represents : Represents codec state map) {key : κ} (known : codec.Restores key)
    (value : Bytes) :
    Represents codec (storeIfAbsent codec key value state).2
      (map.map (·.insertAbsent key value)) := by
  rcases known with ⟨bytes, spelled⟩
  cases represents with
  | closed closed =>
    rw [storeIfAbsent, if_pos closed]
    exact .closed closed
  | @opened table handle contents opened _ mirrors =>
    have stored : (storeIfAbsent codec key value (table, handle)).2 =
        if (table.find? (.blob bytes)).isSome then (table, handle.forget)
        else (table.upsert (.blob bytes) (.blob value), handle.forget) := by
      rw [storeIfAbsent, opened, cell?, spelled.bytes?]
      change (if (table.find? (.blob bytes)).isSome then (false, table, handle.forget)
        else (true, table.upsert (.blob bytes) (.blob value), handle.forget)).2 = _
      cases (table.find? (.blob bytes)).isSome <;> rfl
    rw [stored, Option.map_some, Listing.insertAbsent,
      ← isSome_eq_of_rel (find?_rel mirrors spelled)]
    split
    · exact represents_forget opened mirrors
    · exact represents_forget opened (mirrors_upsert mirrors spelled value)

/-- A key for which nothing can be written is not in the map, and is passed over. -/
theorem mirrors_foldl_erase {table : SqlTable} {contents : Listing κ Bytes} {removed : List κ}
    (mirrors : Mirrors (SpellsCell codec) HoldsCell table.rows contents)
    (faithful : ∀ key ∈ removed, codec.Faithful key) :
    Mirrors (SpellsCell codec) HoldsCell
      ((removed.filterMap (cell? codec)).foldl SqlTable.erase table).rows
      (contents.eraseAll removed) := by
  induction removed generalizing table contents with
  | nil => exact mirrors
  | cons key rest hypothesis =>
    have others : ∀ other ∈ rest, codec.Faithful other :=
      fun other member => faithful other (List.mem_cons_of_mem _ member)
    rcases (faithful key List.mem_cons_self).spelled_or with
      ⟨bytes, spelled⟩ | ⟨unwritable, unspelled⟩
    · have cell : cell? codec key = some (.blob bytes) := by
        rw [cell?, spelled.bytes?]
        rfl
      rw [List.filterMap_cons, cell, List.foldl_cons]
      exact hypothesis (mirrors_erase mirrors spelled) others
    · have cell : cell? codec key = none := by
        rw [cell?, unwritable]
        rfl
      rw [List.filterMap_cons, cell, mirrors.eraseAll_cons_of_unspelled (not_spellsCell unspelled)]
      exact hypothesis mirrors others

theorem represents_delete {state : State} {map : MapState κ Bytes}
    (represents : Represents codec state map) {removed : List κ}
    (faithful : ∀ key ∈ removed, codec.Faithful key) :
    Represents codec (delete codec removed state) (map.map (·.eraseAll removed)) := by
  cases represents with
  | closed closed =>
    rw [delete, closed, Bool.or_true, if_pos rfl]
    exact .closed closed
  | @opened table handle contents opened remembered mirrors =>
    cases removed with
    | nil => exact .opened opened remembered mirrors
    | cons key rest =>
      have deleted : delete codec (key :: rest) (table, handle) =
          (((key :: rest).filterMap (cell? codec)).foldl SqlTable.erase table, handle.forget) := by
        rw [delete, opened]
        rfl
      rw [deleted]
      exact represents_forget opened (mirrors_foldl_erase mirrors faithful)

/-! ## Taking the smallest row -/

/-- Every row can be read, so the first row taken is the one returned. -/
theorem next_spec {table : SqlTable} {handle : Sqlite} {contents : Listing κ Bytes}
    (opened : handle.closed = false)
    (mirrors : Mirrors (SpellsCell codec) HoldsCell table.rows contents) :
    (contents.entries = [] ∧ next codec (table, handle) = (none, table, handle.forget)) ∨
      ∃ key value left, next codec (table, handle) = (some (key, value), left, handle.forget) ∧
        contents.get? key = some value ∧
        Mirrors (SpellsCell codec) HoldsCell left.rows (contents.erase key) := by
  have stepped : next codec (table, handle) =
      ((popReadable codec table.size table).1, (popReadable codec table.size table).2,
        handle.forget) := by
    rw [next, opened]
    rfl
  rw [stepped]
  rcases table.popSmallest_spec with ⟨empty, _⟩ | ⟨row, taken, order⟩
  · refine .inl ⟨mirrors.nil_iff.mp empty, ?_⟩
    have none : table.size = 0 := List.length_eq_zero_iff.mpr empty
    rw [none]
    rfl
  · refine .inr ?_
    rcases mirrors.pop order with ⟨key, value, ⟨bytes, cell, spelled⟩, held, present, left⟩
    have read : readRow codec row = some (key, value) := by
      rcases row with ⟨first, second⟩
      dsimp only at cell held
      rw [cell, held, readRow]
      change (do
        let key ← codec.key? bytes
        return (key, value)) = some (key, value)
      rw [spelled.key?]
      rfl
    have some : table.size = (table.size - 1) + 1 := by
      have length := order.length_eq
      rw [List.length_cons] at length
      rw [SqlTable.size, length]
      rfl
    refine ⟨key, value, table.popSmallest.2, ?_, present, left⟩
    rw [some, popReadable]
    cases popped : table.popSmallest with
    | mk first rest =>
      rw [popped] at taken
      dsimp only at taken
      subst taken
      dsimp only
      rw [read]

/-! ## The engine -/

theorem represents_len {state : State} {map : MapState κ Bytes}
    (represents : Represents codec state map) :
    (len state).1 = map.seen.entries.length ∧ Represents codec (len state).2 map := by
  cases represents with
  | closed closed =>
    rw [len, if_pos closed]
    exact ⟨rfl, .closed closed⟩
  | @opened table handle contents opened remembered mirrors =>
    have length : table.size = contents.entries.length := mirrors.length_eq
    have counts : ∀ counting : Sqlite, counting.closed = false →
        (count table counting).1 = contents.entries.length ∧
          Represents codec (count table counting).2 (some contents) := by
      intro counting countingOpen
      refine ⟨length, .opened countingOpen ?_ mirrors⟩
      intro rows countedAt same
      cases same
      rfl
    have notClosed : ¬handle.closed = true := by
      rw [opened]
      exact Bool.false_ne_true
    rw [len, if_neg notClosed]
    cases cached : handle.cached with
    | none => exact counts handle opened
    | some both =>
      rcases both with ⟨rows, countedAt⟩
      dsimp only
      split
      · refine ⟨?_, .opened opened ?_ mirrors⟩
        · rw [remembered rows countedAt cached]
          exact length
        · intro other otherAt same
          exact remembered other otherAt same
      · exact counts handle.tick.2 opened

theorem refines : (Sqlite.storage codec).Refines codec.Restores (fun _ => True) (fun _ => True)
    (Represents codec) where
  load represents known := ⟨load_eq represents known.faithful, represents⟩
  store represents known _ _ := represents_store represents known _
  storeIfAbsent represents known _ _ := represents_storeIfAbsent represents known _
  delete represents known :=
    represents_delete represents fun key member => (known key member).faithful
  range := by
    intro state map α visit start represents
    exact ⟨⟨_, visible_perm represents, rfl⟩, represents⟩
  next_none := by
    intro state map represents nothing
    change (next codec state).1 = none at nothing
    change _ ∧ Represents codec (next codec state).2 map
    cases represents with
    | closed closed =>
      rw [next, if_pos closed]
      exact ⟨rfl, .closed closed⟩
    | opened opened _ mirrors =>
      rcases next_spec opened mirrors with ⟨empty, stepped⟩ | ⟨key, value, left, stepped, _⟩
      · rw [stepped]
        exact ⟨empty, represents_forget opened mirrors⟩
      · rw [stepped] at nothing
        cases nothing
  next_some := by
    intro state map key value represents taken
    change (next codec state).1 = some (key, value) at taken
    change _ ∧ Represents codec (next codec state).2 _
    cases represents with
    | closed closed =>
      rw [next, if_pos closed] at taken
      cases taken
    | opened opened _ mirrors =>
      rcases next_spec opened mirrors with
        ⟨_, stepped⟩ | ⟨first, held, left, stepped, present, mirrorsLeft⟩
      · rw [stepped] at taken
        cases taken
      · rw [stepped] at taken ⊢
        cases taken
        exact ⟨present, represents_forget opened mirrorsLeft⟩
  keys := by
    intro state map represents
    exact ⟨(visible_perm represents).map Prod.fst, represents⟩
  len represents := represents_len represents
  clear := by
    intro state map represents
    change Represents codec (clear state) _
    cases represents with
    | closed closed =>
      rw [clear, if_pos closed]
      exact .closed closed
    | @opened table handle _ opened _ _ =>
      have cleared : clear (table, handle) = (.empty, handle.forget) := by
        rw [clear, opened]
        rfl
      rw [cleared]
      exact represents_forget opened Mirrors.empty
  close := by
    intro state map represents
    change (close state).1 = _ ∧ Represents codec (close state).2 none
    cases represents with
    | closed closed =>
      rw [close, if_pos closed]
      exact ⟨rfl, .closed closed⟩
    | opened opened _ _ =>
      rw [close, opened]
      exact ⟨rfl, .closed rfl⟩

omit [DecidableEq κ] in
theorem open?_spec {options : SqliteOptions} {clock : Source Nat} {handle : Sqlite}
    (opened : open? options clock = .ok handle) :
    handle.closed = false ∧ handle.cached = none := by
  rw [open?] at opened
  split at opened
  · cases opened
  · split at opened
    · cases opened
      exact ⟨rfl, rfl⟩
    · cases opened

/-- The default options open a table. -/
theorem open?_default (clock : Source Nat) : open? {} clock =
    .ok { countCache := .ofSeconds 5, cached := none, clock, closed := false } := by
  have good : SqliteOptions.check {} = .ok () := by decide +kernel
  have executable : SqliteOptions.isExecutable {} = true := by decide +kernel
  rw [open?, good, executable]
  rfl

omit [DecidableEq κ] in
/-- A fresh handle on an empty table stands for the empty map. -/
theorem represents_of_open {options : SqliteOptions} {clock : Source Nat} {handle : Sqlite}
    (opened : open? options clock = .ok handle) :
    Represents codec (SqlTable.empty, handle) (some .empty) := by
  rcases open?_spec opened with ⟨isOpen, nothing⟩
  refine .opened isOpen ?_ Mirrors.empty
  intro rows countedAt remembered
  rw [nothing] at remembered
  cases remembered

end Sqlite
end TypedStore
