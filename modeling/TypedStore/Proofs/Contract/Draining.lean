import TypedStore.Proofs.Contract.Holdings

/-!
# Draining an engine

A map takes entries out of its engine until one can be read.  What it returns is an entry
that could be read, what it discards are entries that could not, and it returns nothing only
when it has emptied the engine.  So a map that is asked for one entry after another returns
every entry that could be read, each once.

`Adapter.Drains` says this of one state.  It follows from what the engine hands out, whatever
order its own `next` takes entries in, and however many of them this passes over before the
map sees one.
-/

namespace TypedStore

variable {σ κ ν : Type} [DecidableEq κ]

/-- What taking entries through a typed layer does to a state whose engine holds some
payloads. -/
structure Adapter.Drains (values : ValueCodec ν) (inner : Storage σ κ Bytes) (known : κ → Prop)
    (holds : σ → Listing κ Bytes → Prop) (registry : Registry) (state : σ)
    (contents : Listing κ Bytes) : Prop where
  /-- The loop ends by itself, with what the operation returns. -/
  ends : Takes values inner registry state
    ((Adapter.storage values inner).next (registry, state)).1
    ((Adapter.storage values inner).next (registry, state)).2.2
  /-- The entry that is returned was there.  It is gone, and so may be others that could not
  be read; all else is untouched. -/
  found : ∀ {key value},
    ((Adapter.storage values inner).next (registry, state)).1 = some (key, value) →
    ((Adapter.storage values inner).load key (registry, state)).1 = some value ∧
    ∃ left, holds ((Adapter.storage values inner).next (registry, state)).2.2 left ∧
      left.get? key = none ∧ ∀ other, other ≠ key → left.get? other = contents.get? other ∨
        left.get? other = none ∧
          ((Adapter.storage values inner).load other (registry, state)).1 = none
  /-- Nothing is returned only if nothing could be read, and then the engine is empty. -/
  nothing : ((Adapter.storage values inner).next (registry, state)).1 = none →
    (∀ key, known key →
      ((Adapter.storage values inner).load key (registry, state)).1 = none) ∧
    holds ((Adapter.storage values inner).next (registry, state)).2.2 .empty
  /-- Taking entries one after another returns each one that could be read, once, and then
  nothing. -/
  drained : ∀ limit, contents.entries.length ≤ limit →
    (((Adapter.storage values inner).drain limit (registry, state)).1.map Prod.fst).Nodup ∧
    (∀ key value, (key, value) ∈ ((Adapter.storage values inner).drain limit (registry, state)).1 ↔
      known key ∧ ((Adapter.storage values inner).load key (registry, state)).1 = some value) ∧
    ((Adapter.storage values inner).next
      ((Adapter.storage values inner).drain limit (registry, state)).2).1 = none

/-- A typed layer drains what its engine hands out. -/
theorem Storage.HandsOut.drains {inner : Storage σ κ Bytes} {known : κ → Prop}
    {reads : σ → Bytes → Option Bytes} {holds : σ → Listing κ Bytes → Prop}
    (inside : inner.HandsOut reads holds) (exposes : inner.Exposes known reads holds)
    (walks : inner.WalksEntries) (values : ValueCodec ν) (registry : Registry) {state : σ}
    {contents : Listing κ Bytes} (held : holds state contents) :
    Adapter.Drains values inner known holds registry state contents := by
  have shows : (Adapter.storage values inner).Exposes known (Adapter.readsThrough values reads)
      fun state => holds state.2 := Adapter.exposes exposes walks
  have gives : (Adapter.storage values inner).HandsOut (Adapter.readsThrough values reads)
      fun state => holds state.2 := Adapter.handsOut inside
  have heldTyped : (fun state : Registry × σ => holds state.2) (registry, state) contents := held
  rcases gives.next heldTyped with ⟨after, yields, heldAfter, _⟩
  constructor
  · exact Adapter.takes_nextReadable inside _ held (Nat.lt_succ_of_le (inside.size held))
  · intro key value taken
    rw [taken] at yields
    have present := yields.get?_bind
    rw [← Listing.get?_filterMap, Listing.get?_eq_some_iff] at present
    refine ⟨((shows.mem_filterMap_iff heldTyped).mp present).2, after, heldAfter,
      yields.get?_eq_none, ?_⟩
    intro other different
    rcases yields.get?_of_ne different with same | ⟨gone, bytes, heldOther, unreadable⟩
    · exact .inl same
    · refine .inr ⟨gone, ?_⟩
      rw [shows.load heldTyped (shows.known_of_held heldTyped heldOther), heldOther,
        Option.bind_some, unreadable]
  · intro nothing
    rw [nothing] at yields
    rcases yields with ⟨sheds, rfl⟩
    refine ⟨?_, heldAfter⟩
    intro key isKnown
    rw [shows.load heldTyped isKnown, ← sheds.get?_bind]
    rfl
  · intro limit enough
    rcases gives.drain_perm limit heldTyped enough with ⟨order, ended⟩
    refine ⟨?_, ?_, ended⟩
    · exact (order.map Prod.fst).nodup_iff.mpr (Listing.distinct _)
    · intro key value
      rw [order.mem_iff]
      exact shows.mem_filterMap_iff heldTyped

/-- Whatever bytes an engine holds under keys of the map, asking the map for one entry after
another returns the entries that can be read, each once, and discards the others.  The remote
engine is alone behind its prefix, on a server that answers. -/
theorem next_drains_readable_entries (values : ValueCodec ν) (codec : KeyCodec κ)
    (registry : Registry) :
    (∀ contents : Listing κ Bytes, Adapter.Drains values Memory.storage (fun _ => True)
      Memory.Contains registry ⟨contents, false⟩ contents) ∧
    (∀ (aead : Aead) {lsm : Lsm} {contents : Listing κ Bytes}, lsm.Contains codec contents →
      Adapter.Drains values (Lsm.storage aead codec) codec.Faithful (Lsm.Contains codec) registry
        lsm contents) ∧
    (∀ {state : Sqlite.State} {contents : Listing κ Bytes}, Sqlite.Contains codec state contents →
      Adapter.Drains values (Sqlite.storage codec) codec.Faithful (Sqlite.Contains codec) registry
        state contents) ∧
    ∀ {σ : Type} {link : RedisLink σ} {quiet : link.Quiescent}, quiet.Bounded →
      ∀ {state : Redis.State σ} {contents : Listing κ Bytes},
        Redis.Contains quiet codec state contents →
      Adapter.Drains values (Redis.storage link codec) codec.Faithful (Redis.Contains quiet codec)
        registry state contents := by
  refine ⟨?_, ?_, ?_, ?_⟩
  · exact fun contents =>
      Memory.handsOut.drains Memory.exposes Memory.walksEntries values registry rfl
  · exact fun aead _ _ held =>
      Lsm.handsOut.drains Lsm.exposes Lsm.walksEntries values registry held
  · exact fun held =>
      Sqlite.handsOut.drains Sqlite.exposes Sqlite.walksEntries values registry held
  · exact fun bounded _ _ held =>
      (Redis.handsOut bounded).drains Redis.exposes Redis.walksEntries values registry held

/-- A payload that nobody can read, and a truth value. -/
def spoiltContents : Listing Datum Bytes :=
  (Listing.empty.insert (.text "a") [0xc1]).insert (.text "b")
    (Envelope.wrap (.bool true) (some "bool")).write

/-- These payloads in every engine.  In memory, the truth value comes first, and then nothing
is left. -/
theorem spoilt_contents_drained :
    Adapter.Drains Schema.bool.valueCodec Memory.storage (fun _ => True) Memory.Contains .empty
        ⟨spoiltContents, false⟩ spoiltContents ∧
      (((Adapter.storage Schema.bool.valueCodec Memory.storage).drain 2
        (.empty, ⟨spoiltContents, false⟩)).1 = [(.text "b", .bool true)]) ∧
      (∃ lsm, lsm.Contains Schema.text.keyCodec spoiltContents ∧
        Adapter.Drains Schema.bool.valueCodec (Lsm.storage .marking Schema.text.keyCodec)
          Schema.text.keyCodec.Faithful (Lsm.Contains Schema.text.keyCodec) .empty lsm
          spoiltContents) ∧
      (∃ state, Sqlite.Contains Schema.text.keyCodec state spoiltContents ∧
        Adapter.Drains Schema.bool.valueCodec (Sqlite.storage Schema.text.keyCodec)
          Schema.text.keyCodec.Faithful (Sqlite.Contains Schema.text.keyCodec) .empty state
          spoiltContents) ∧
      ∃ state, Redis.Contains RedisLink.onePageQuiescent Schema.text.keyCodec state spoiltContents ∧
        Adapter.Drains Schema.bool.valueCodec
          (Redis.storage RedisLink.onePage Schema.text.keyCodec) Schema.text.keyCodec.Faithful
          (Redis.Contains RedisLink.onePageQuiescent Schema.text.keyCodec) .empty state
          spoiltContents := by
  have first : Schema.text.keyCodec.Spells [161, 97] (.text "a") :=
    ⟨by decide +kernel, by decide +kernel⟩
  have second : Schema.text.keyCodec.Spells [161, 98] (.text "b") :=
    ⟨by decide +kernel, by decide +kernel⟩
  rcases next_drains_readable_entries Schema.bool.valueCodec Schema.text.keyCodec .empty with
    ⟨inMemory, logged, tabled, remote⟩
  refine ⟨inMemory spoiltContents, by decide +kernel, ?_, ?_, ?_⟩
  · have mirrors := (Mirrors.empty.insert KeyCodec.biUnique_spells first rfl
      (Tree.empty.entries_insert_perm [161, 97] [0xc1])).insert KeyCodec.biUnique_spells second rfl
      (Tree.entries_insert_perm _ [161, 98] (Envelope.wrap (.bool true) (some "bool")).write)
    have held : Lsm.Contains Schema.text.keyCodec ⟨_, .plain .empty, false, 2, false⟩
        spoiltContents := ⟨rfl, mirrors⟩
    exact ⟨_, held, logged .marking held⟩
  · have nothing : Mirrors (Sqlite.SpellsCell Schema.text.keyCodec) Sqlite.HoldsCell
        SqlTable.empty.rows .empty := Mirrors.empty
    have mirrors := Sqlite.mirrors_upsert (Sqlite.mirrors_upsert nothing first [0xc1]) second
      (Envelope.wrap (.bool true) (some "bool")).write
    have held : Sqlite.Contains Schema.text.keyCodec (_, ⟨.ofSeconds 5, none, .constant 0, false⟩)
        spoiltContents := ⟨rfl, mirrors⟩
    exact ⟨_, held, tabled held⟩
  · have nothing : Mirrors (Redis.SpellsServerKey Schema.text.keyCodec {}) Eq
        (Redis.ownedRows Schema.text.keyCodec {} .empty) (.empty : Listing Datum Bytes) :=
      Mirrors.empty
    have mirrors := Redis.mirrors_insert
      (Redis.mirrors_insert nothing ⟨[161, 97], rfl, first⟩ [0xc1]) ⟨[161, 98], rfl, second⟩
      (Envelope.wrap (.bool true) (some "bool")).write
    have held : Redis.Contains RedisLink.onePageQuiescent Schema.text.keyCodec
        (Redis.connected {}, _) spoiltContents := .opened rfl trivial trivial mirrors
    exact ⟨_, held, remote RedisLink.onePageQuiescent_bounded held⟩

end TypedStore
