import TypedStore.Proofs.Redis.Quiescent

/-!
# Servers with pages of any kind

A `Pagination` is a way to cut a keyspace into the pages of a scan: any number of
pages of any sizes, empty ones among them, with keys repeated on one page or on
several, and with cursors of any value.  All that a scan promises is kept: it
starts at cursor zero, ends where it comes back to it, and lists the keys that are
there and match, and no others.

`RedisLink.paged` is the server that pages in this way.  It is quiescent, so what
holds on quiescent servers holds for every paging.
-/

namespace TypedStore

/-- A way to cut a keyspace into pages. -/
structure Pagination where
  /-- The pages of a scan in their order, each with the cursor that asks for it. -/
  pages : Tree → (pattern : Bytes) → (count : Nat) → List (UInt64 × List Bytes)
  /-- No scan of the keyspace has more pages. -/
  bound : Tree → Nat
  starts : ∀ keyspace pattern count, ∃ page rest, pages keyspace pattern count = (0, page) :: rest
  /-- A cursor does not come back before the scan is over. -/
  distinct : ∀ keyspace pattern count, ((pages keyspace pattern count).map Prod.fst).Nodup
  members : ∀ keyspace pattern count key, key ∈ (pages keyspace pattern count).flatMap Prod.snd ↔
    (keyspace.get? key).isSome = true ∧ Glob.isMatch pattern key = true
  short : ∀ keyspace pattern count, (pages keyspace pattern count).length ≤ bound keyspace

namespace Pagination

/-- The cursor that asks for the first of these pages; zero if there is none. -/
def firstCursor (pages : List (UInt64 × List Bytes)) : UInt64 :=
  (pages.map Prod.fst).headD 0

/-- The page that a cursor asks for, after the cursor of the page that follows. -/
def pageAt (cursor : UInt64) : List (UInt64 × List Bytes) → UInt64 × List Bytes
  | [] => (0, [])
  | (asked, page) :: rest =>
    if asked = cursor then (firstCursor rest, page) else pageAt cursor rest

theorem pageAt_append {cursor : UInt64} {before : List (UInt64 × List Bytes)}
    (fresh : cursor ∉ before.map Prod.fst) (page : List Bytes)
    (rest : List (UInt64 × List Bytes)) :
    pageAt cursor (before ++ (cursor, page) :: rest) = (firstCursor rest, page) := by
  induction before with
  | nil =>
    unfold pageAt
    exact if_pos rfl
  | cons asked before hypothesis =>
    rw [List.map_cons, List.mem_cons, not_or] at fresh
    rw [List.cons_append, pageAt, if_neg fun same => fresh.1 same.symm]
    exact hypothesis fresh.2

/-- Whether a scan that is at this cursor has these keys before it, on its next page
and at most so many pages after it. -/
def Ahead (paging : Pagination) (keyspace : Tree) (cursor : UInt64) (pattern : Bytes) (count : Nat)
    (pages : Nat) (keys : List Bytes) : Prop :=
  ∃ before page rest, paging.pages keyspace pattern count = before ++ (cursor, page) :: rest ∧
    rest.length ≤ pages ∧ keys = page ++ rest.flatMap Prod.snd

variable {paging : Pagination} {keyspace : Tree} {pattern : Bytes} {count : Nat}

theorem ahead_start (paging : Pagination) (keyspace : Tree) (pattern : Bytes) (count : Nat) :
    ∃ pages, paging.bound keyspace = pages + 1 ∧
      paging.Ahead keyspace 0 pattern count pages
        ((paging.pages keyspace pattern count).flatMap Prod.snd) := by
  rcases paging.starts keyspace pattern count with ⟨page, rest, listed⟩
  have short := paging.short keyspace pattern count
  rw [listed, List.length_cons] at short
  refine ⟨paging.bound keyspace - 1, by omega, [], page, rest, listed, by omega, ?_⟩
  rw [listed, List.flatMap_cons]

/-- A page that is not the last is followed by one whose cursor is not zero. -/
theorem cursor_ne_zero {before rest : List (UInt64 × List Bytes)} {first : UInt64 × List Bytes}
    {cursor : UInt64} {page : List Bytes}
    (listed : paging.pages keyspace pattern count = before ++ first :: (cursor, page) :: rest) :
    cursor ≠ 0 := by
  rcases paging.starts keyspace pattern count with ⟨startPage, others, starts⟩
  have distinct := paging.distinct keyspace pattern count
  rintro rfl
  rw [starts, List.map_cons, List.nodup_cons] at distinct
  apply distinct.1
  rw [starts] at listed
  cases before with
  | nil =>
    rw [List.nil_append, List.cons.injEq] at listed
    rw [listed.2]
    exact List.mem_cons_self
  | cons head before =>
    rw [List.cons_append, List.cons.injEq] at listed
    rw [listed.2, List.map_append]
    exact List.mem_append_right _ (List.mem_cons_of_mem _ List.mem_cons_self)

/-- The page that is asked for lists what is ahead, up to what is ahead after it. -/
theorem Ahead.step {cursor : UInt64} {pages : Nat} {keys : List Bytes}
    (ahead : paging.Ahead keyspace cursor pattern count pages keys) :
    ∃ next page, pageAt cursor (paging.pages keyspace pattern count) = (next, page) ∧
      (∀ key ∈ page, (keyspace.get? key).isSome = true ∧ Glob.isMatch pattern key = true) ∧
      (next = 0 ∧ (∀ key ∈ keys, key ∈ page) ∨
        next ≠ 0 ∧ ∃ fewer left, pages = fewer + 1 ∧
          paging.Ahead keyspace next pattern count fewer left ∧
          ∀ key ∈ keys, key ∈ page ∨ key ∈ left) := by
  rcases ahead with ⟨before, page, rest, listed, few, rfl⟩
  have distinct := paging.distinct keyspace pattern count
  have fresh : cursor ∉ before.map Prod.fst := by
    rw [listed, List.map_append, List.map_cons] at distinct
    exact fun member => (List.nodup_append.mp distinct).2.2 cursor member cursor
      List.mem_cons_self rfl
  refine ⟨firstCursor rest, page, ?_, ?_, ?_⟩
  · rw [listed]
    exact pageAt_append fresh page rest
  · intro key member
    apply (paging.members keyspace pattern count key).mp
    rw [listed, List.flatMap_append, List.flatMap_cons]
    exact List.mem_append_right _ (List.mem_append_left _ member)
  · cases rest with
    | nil =>
      rw [List.flatMap_nil, List.append_nil]
      exact .inl ⟨rfl, fun _ member => member⟩
    | cons following rest =>
      rcases following with ⟨next, nextPage⟩
      rw [List.length_cons] at few
      refine .inr ⟨cursor_ne_zero listed, pages - 1, nextPage ++ rest.flatMap Prod.snd, by omega,
        ⟨before ++ [(cursor, page)], nextPage, rest, ?_, by omega, rfl⟩, ?_⟩
      · rw [listed, List.append_assoc]
        rfl
      · intro key member
        rw [List.flatMap_cons] at member
        exact List.mem_append.mp member

/-- The answer to a scan. -/
def reply (paging : Pagination) (keyspace : Tree) (cursor : UInt64) (pattern : Bytes)
    (count : Nat) : RedisReply :=
  let asked := pageAt cursor (paging.pages keyspace pattern count)
  .page asked.1 asked.2

end Pagination

/-- A server that answers scans page by page. -/
def RedisLink.paged (paging : Pagination) : RedisLink Tree where
  send _ command keyspace :=
    let (reply, keyspace) := command.apply (paging.reply keyspace) keyspace
    (.reply reply, keyspace)
  pageBound := paging.bound
  entryBound := Tree.size

/-- It is quiescent in every state. -/
def RedisLink.pagedQuiescent (paging : Pagination) : (RedisLink.paged paging).Quiescent where
  steady _ := True
  accepts _ := True
  keyspace server := server
  owes := paging.Ahead
  direct := by
    intro connection command server _ sent
    have same := RedisCommand.apply_of_isDirect sent.isDirect noScan (paging.reply server) server
    refine ⟨(command.apply noScan server).2, ?_, trivial, rfl, ?_⟩
    · rw [same]
      rfl
    · intro unchanged cursor pattern count pages keys owed
      rw [unchanged]
      exact owed
  scan := by
    intro connection server cursor pattern count pages keys _ owed
    rcases owed.step with ⟨next, page, answered, listed, rest⟩
    refine ⟨next, page, server, ?_, trivial, rfl, listed, rest⟩
    change (RedisOutcome.reply (paging.reply server cursor pattern count), server) = _
    rw [Pagination.reply, answered]
  start := by
    intro server pattern count _
    rcases Pagination.ahead_start paging server pattern count with ⟨pages, bound, ahead⟩
    exact ⟨pages, _, bound, ahead, fun key present matched =>
      (paging.members server pattern count key).mpr ⟨present, matched⟩⟩

end TypedStore
