import Mathlib.Data.List.Nodup
import TypedStore.Proofs.Redis.Glob
import TypedStore.Proofs.Redis.Quiescent

/-!
# Commands and walks on a quiescent server

What the remote engine's loops do when every command is answered.  A single
command changes the keyspace as it says and leaves the handle as it was, but for
the count of turns.  A walk through the pages finds every key that begins with
the prefix; whatever it does between two pages must leave the keyspace alone.

The three loops over pages are separate programs, and each has its own
induction here, on the number of pages that the scan may still take.  What
carries them is the same, `Owing`: the pages still to come list every key that
the loop is missing.
-/

namespace TypedStore
namespace Redis

variable {σ κ : Type} {link : RedisLink σ} (quiet : link.Quiescent)

/-- The handle is the same, but for its turns, and the server answers. -/
structure Stays (before after : State σ) : Prop where
  options : after.1.options = before.1.options
  closed : after.1.closed = before.1.closed
  steady : quiet.steady after.2

/-- Whether a key of the server is there and begins with the prefix. -/
def Listable (state : State σ) (key : Bytes) : Prop :=
  ((quiet.keyspace state.2).get? key).isSome = true ∧
    Glob.isMatch state.1.options.pattern key = true

/-- Whether a scan from this cursor on, within so many pages after the next one,
still lists every key that is missing. -/
def Owing (state : State σ) (cursor : UInt64) (pages : Nat) (missing : Bytes → Prop) : Prop :=
  ∃ keys, quiet.owes state.2 cursor state.1.options.pattern state.1.options.pageSize pages keys ∧
    ∀ key, Listable quiet state key → missing key → key ∈ keys

variable {quiet}

theorem Stays.refl {state : State σ} (steady : quiet.steady state.2) : Stays quiet state state :=
  ⟨rfl, rfl, steady⟩

theorem Stays.trans {first second third : State σ} (later : Stays quiet second third)
    (earlier : Stays quiet first second) : Stays quiet first third :=
  ⟨later.options.trans earlier.options, later.closed.trans earlier.closed, later.steady⟩

theorem Stays.listable_iff {before after : State σ} (stays : Stays quiet before after)
    (same : quiet.keyspace after.2 = quiet.keyspace before.2) (key : Bytes) :
    Listable quiet after key ↔ Listable quiet before key := by
  rw [Listable, Listable, same, stays.options]

theorem Owing.weaken {state : State σ} {cursor : UInt64} {pages : Nat}
    {missing less : Bytes → Prop} (owing : Owing quiet state cursor pages missing)
    (fewer : ∀ key, Listable quiet state key → less key → missing key) :
    Owing quiet state cursor pages less := by
  rcases owing with ⟨keys, owes, complete⟩
  exact ⟨keys, owes, fun key listable without => complete key listable (fewer key listable without)⟩

/-! ## Single commands -/

theorem executeWithin_of_reply {command : RedisCommand} {retries : Nat} {state after : State σ}
    {reply : RedisReply} (answered : attempt link command state = (.reply reply, after)) :
    executeWithin link command retries state = (.ok reply, after) := by
  unfold executeWithin
  rw [answered]

/-- A command that the engine sends besides scans is answered by what it does to the
keyspace; if that is nothing, scans go on as before. -/
theorem execute_direct {state : State σ} (steady : quiet.steady state.2) (command : RedisCommand)
    (sent : command.IsSent quiet.accepts) :
    ∃ after, execute link command state =
        (.ok (command.apply noScan (quiet.keyspace state.2)).1, after) ∧
      Stays quiet state after ∧
      quiet.keyspace after.2 = (command.apply noScan (quiet.keyspace state.2)).2 ∧
      (quiet.keyspace after.2 = quiet.keyspace state.2 → ∀ cursor pages missing,
        Owing quiet state cursor pages missing → Owing quiet after cursor pages missing) := by
  rcases state with ⟨handle, server⟩
  rcases quiet.direct (handle.turns % handle.options.connections) command server steady sent with
    ⟨after, answered, stillSteady, keyspace, owes⟩
  have stays : Stays quiet (handle, server) ({ handle with turns := handle.turns + 1 }, after) :=
    ⟨rfl, rfl, stillSteady⟩
  refine ⟨({ handle with turns := handle.turns + 1 }, after), ?_, stays, keyspace, ?_⟩
  · apply executeWithin_of_reply
    rw [attempt, answered]
  · rintro same cursor pages missing ⟨keys, owed, complete⟩
    refine ⟨keys, owes same _ _ _ _ _ owed, ?_⟩
    intro key listable
    exact complete key ((stays.listable_iff same key).mp listable)

/-- A page lists keys that are there, and what it leaves out is still owed. -/
theorem scanPage_spec {state : State σ} (steady : quiet.steady state.2) {cursor : UInt64}
    {pages : Nat} {missing : Bytes → Prop} (owing : Owing quiet state cursor pages missing) :
    ∃ next page after, scanPage link cursor state = (.ok (next, page), after) ∧
      Stays quiet state after ∧ quiet.keyspace after.2 = quiet.keyspace state.2 ∧
      (∀ key ∈ page, Listable quiet state key) ∧
      (next = 0 ∧ (∀ key, Listable quiet state key → missing key → key ∈ page) ∨
        next ≠ 0 ∧ ∃ fewer, pages = fewer + 1 ∧
          Owing quiet after next fewer fun key => missing key ∧ key ∉ page) := by
  rcases state with ⟨handle, server⟩
  rcases owing with ⟨keys, owed, complete⟩
  rcases quiet.scan (handle.turns % handle.options.connections) server cursor
    handle.options.pattern handle.options.pageSize pages keys steady owed with
    ⟨next, page, after, sent, stillSteady, same, listed, rest⟩
  have stays : Stays quiet (handle, server) ({ handle with turns := handle.turns + 1 }, after) :=
    ⟨rfl, rfl, stillSteady⟩
  have answered : execute link
      (.scan cursor handle.options.pattern handle.options.pageSize) (handle, server) =
      (.ok (.page next page), { handle with turns := handle.turns + 1 }, after) := by
    apply executeWithin_of_reply
    rw [attempt, sent]
  refine ⟨next, page, ({ handle with turns := handle.turns + 1 }, after), ?_, stays, same,
    listed, ?_⟩
  · rw [scanPage, answered]
  · rcases rest with ⟨last, all⟩ | ⟨more, fewer, left, count, stillOwed, all⟩
    · exact .inl ⟨last, fun key listable without => all key (complete key listable without)⟩
    · refine .inr ⟨more, fewer, count, left, stillOwed, ?_⟩
      rintro key listable ⟨without, unseen⟩
      have inKeys := complete key ((stays.listable_iff same key).mp listable) without
      exact (all key inKeys).resolve_left unseen

/-- A scan from the beginning owes everything. -/
theorem owing_start {state : State σ} (steady : quiet.steady state.2) :
    ∃ pages, link.pageBound state.2 = pages + 1 ∧ Owing quiet state 0 pages fun _ => True := by
  rcases quiet.start state.2 state.1.options.pattern state.1.options.pageSize steady with
    ⟨pages, keys, bound, owed, complete⟩
  exact ⟨pages, bound, keys, owed, fun key listable _ => complete key listable.1 listable.2⟩

/-! ## Keys of a page -/

theorem mem_foldl_fresh (seen page fresh : List Bytes) (key : Bytes) :
    key ∈ page.foldl (fun fresh key =>
        if seen.contains key || fresh.contains key then fresh else key :: fresh) fresh ↔
      key ∈ fresh ∨ key ∈ page ∧ key ∉ seen := by
  induction page generalizing fresh with
  | nil => simp only [List.foldl_nil, List.not_mem_nil, false_and, or_false]
  | cons first rest hypothesis =>
    rw [List.foldl_cons, hypothesis]
    by_cases old : (seen.contains first || fresh.contains first) = true
    · rw [if_pos old]
      rw [Bool.or_eq_true, List.contains_iff_mem, List.contains_iff_mem] at old
      constructor
      · rintro (here | ⟨later, unseen⟩)
        · exact .inl here
        · exact .inr ⟨List.mem_cons_of_mem _ later, unseen⟩
      · rintro (here | ⟨member, unseen⟩)
        · exact .inl here
        · rcases List.mem_cons.mp member with rfl | later
          · rcases old with known | known
            · exact absurd known unseen
            · exact .inl known
          · exact .inr ⟨later, unseen⟩
    · rw [if_neg old]
      rw [Bool.or_eq_true, List.contains_iff_mem, List.contains_iff_mem, not_or] at old
      constructor
      · rintro (here | ⟨later, unseen⟩)
        · rcases List.mem_cons.mp here with rfl | before
          · exact .inr ⟨List.mem_cons_self, old.1⟩
          · exact .inl before
        · exact .inr ⟨List.mem_cons_of_mem _ later, unseen⟩
      · rintro (here | ⟨member, unseen⟩)
        · exact .inl (List.mem_cons_of_mem _ here)
        · rcases List.mem_cons.mp member with rfl | later
          · exact .inl List.mem_cons_self
          · exact .inr ⟨later, unseen⟩

theorem nodup_foldl_fresh (seen page fresh : List Bytes) (distinct : fresh.Nodup) :
    (page.foldl (fun fresh key =>
      if seen.contains key || fresh.contains key then fresh else key :: fresh) fresh).Nodup := by
  induction page generalizing fresh with
  | nil => exact distinct
  | cons first rest hypothesis =>
    rw [List.foldl_cons]
    by_cases old : (seen.contains first || fresh.contains first) = true
    · rw [if_pos old]
      exact hypothesis fresh distinct
    · rw [if_neg old]
      rw [Bool.or_eq_true, List.contains_iff_mem, List.contains_iff_mem, not_or] at old
      exact hypothesis (first :: fresh) (List.nodup_cons.mpr ⟨old.2, distinct⟩)

theorem mem_freshKeys {seen page : List Bytes} {key : Bytes} :
    key ∈ freshKeys seen page ↔ key ∈ page ∧ key ∉ seen := by
  rw [freshKeys, List.mem_reverse, mem_foldl_fresh]
  simp only [List.not_mem_nil, false_or]

theorem nodup_freshKeys (seen page : List Bytes) : (freshKeys seen page).Nodup := by
  rw [freshKeys, List.nodup_reverse]
  exact nodup_foldl_fresh seen page [] List.nodup_nil

theorem nodup_append_freshKeys {seen : List Bytes} (distinct : seen.Nodup) (page : List Bytes) :
    (seen ++ freshKeys seen page).Nodup := by
  refine List.nodup_append.mpr ⟨distinct, nodup_freshKeys seen page, ?_⟩
  intro first old second new same
  rw [same] at old
  exact (mem_freshKeys.mp new).2 old

/-- What a page and the pages before it have shown, against what is missing. -/
theorem not_mem_append_freshKeys {seen page : List Bytes} {key : Bytes} :
    key ∉ seen ++ freshKeys seen page ↔ key ∉ seen ∧ key ∉ page := by
  rw [List.mem_append, mem_freshKeys, not_or, not_and, not_not]
  constructor
  · rintro ⟨unseen, fresh⟩
    exact ⟨unseen, fun listed => unseen (fresh listed)⟩
  · rintro ⟨unseen, unlisted⟩
    exact ⟨unseen, fun listed => absurd listed unlisted⟩

/-! ## Listing all keys -/

/-- Scanning on adds exactly the keys that are missing. -/
theorem scanFrom_spec (pages : Nat) {state : State σ} {cursor : UInt64} {found : List Bytes}
    (steady : quiet.steady state.2) (owing : Owing quiet state cursor pages (· ∉ found))
    (distinct : found.Nodup) (sound : ∀ key ∈ found, Listable quiet state key) :
    ∃ listed after, scanFrom link (pages + 1) cursor found state = (.ok listed, after) ∧
      Stays quiet state after ∧ quiet.keyspace after.2 = quiet.keyspace state.2 ∧
      listed.Nodup ∧ ∀ key, key ∈ listed ↔ Listable quiet state key := by
  induction pages using Nat.strongRecOn generalizing state cursor found with
  | ind pages hypothesis =>
    rcases scanPage_spec steady owing with
      ⟨next, page, after, scanned, stays, same, listable, rest⟩
    have soundAll : ∀ key ∈ found ++ freshKeys found page, Listable quiet state key := by
      intro key member
      rcases List.mem_append.mp member with old | new
      · exact sound key old
      · exact listable key (mem_freshKeys.mp new).1
    have distinctAll := nodup_append_freshKeys distinct page
    rw [scanFrom, scanned]
    dsimp only
    rcases rest with ⟨last, all⟩ | ⟨more, fewer, count, stillOwing⟩
    · refine ⟨found ++ freshKeys found page, after, if_pos last, stays, same, distinctAll, ?_⟩
      intro key
      refine ⟨soundAll key, ?_⟩
      intro listableKey
      by_contra absent
      rcases not_mem_append_freshKeys.mp absent with ⟨unseen, unlisted⟩
      exact unlisted (all key listableKey unseen)
    · have owingRest : Owing quiet after next fewer (· ∉ found ++ freshKeys found page) :=
        stillOwing.weaken fun key _ without => not_mem_append_freshKeys.mp without
      have soundAfter : ∀ key ∈ found ++ freshKeys found page, Listable quiet after key :=
        fun key member => (stays.listable_iff same key).mpr (soundAll key member)
      rcases hypothesis fewer (by omega) stays.steady owingRest distinctAll soundAfter with
        ⟨listed, last, scannedRest, staysRest, sameRest, listedDistinct, members⟩
      refine ⟨listed, last, ?_, staysRest.trans stays, sameRest.trans same, listedDistinct, ?_⟩
      · rw [if_neg more, count]
        exact scannedRest
      · intro key
        rw [members key, stays.listable_iff same]

/-- All keys that are there and begin with the prefix, each once. -/
theorem scanKeys_spec {state : State σ} (steady : quiet.steady state.2) :
    ∃ listed after, scanKeys link state = (.ok listed, after) ∧ Stays quiet state after ∧
      quiet.keyspace after.2 = quiet.keyspace state.2 ∧ listed.Nodup ∧
      ∀ key, key ∈ listed ↔ Listable quiet state key := by
  rcases owing_start steady with ⟨pages, bound, owing⟩
  rw [scanKeys, bound]
  apply scanFrom_spec pages steady (owing.weaken fun _ _ _ => trivial) List.nodup_nil
  intro key member
  cases member

/-! ## Visiting entries -/

variable (codec : KeyCodec κ)

/-- The entry of the map that a key of the server holds, if it belongs to it. -/
def entryAt? (options : RedisOptions) (keyspace : Tree) (serverKey : Bytes) : Option (κ × Bytes) :=
  (ownedKey? codec options serverKey).bind fun key =>
    (keyspace.get? serverKey).map fun value => (key, value)

/-- The entries of a page are those that the keyspace holds. -/
theorem ownedEntries_map (options : RedisOptions) (keyspace : Tree) (keys : List Bytes) :
    ownedEntries codec options keys (keys.map keyspace.get?) =
      keys.filterMap (entryAt? codec options keyspace) := by
  induction keys with
  | nil => rfl
  | cons serverKey rest hypothesis =>
    have first : (do
        let key ← ownedKey? codec options serverKey
        let value ← keyspace.get? serverKey
        return (key, value)) = entryAt? codec options keyspace serverKey := by
      rw [entryAt?]
      cases ownedKey? codec options serverKey <;> cases keyspace.get? serverKey <;> rfl
    rw [ownedEntries] at hypothesis ⊢
    rw [List.map_cons, List.zip_cons_cons, List.filterMap_cons, List.filterMap_cons, hypothesis]
    dsimp only
    rw [first]

/-- Values are fetched without disturbing a scan. -/
theorem fetch_spec {state : State σ} (steady : quiet.steady state.2) (keys : List Bytes) :
    ∃ after, fetch link keys state = (.ok (keys.map (quiet.keyspace state.2).get?), after) ∧
      Stays quiet state after ∧ quiet.keyspace after.2 = quiet.keyspace state.2 ∧
      ∀ cursor pages missing,
        Owing quiet state cursor pages missing → Owing quiet after cursor pages missing := by
  cases keys with
  | nil => exact ⟨state, rfl, Stays.refl steady, rfl, fun _ _ _ owing => owing⟩
  | cons key rest =>
    rcases execute_direct steady (.mget (key :: rest)) (List.cons_ne_nil key rest) with
      ⟨after, answered, stays, same, owing⟩
    refine ⟨after, ?_, stays, same, owing same⟩
    rw [fetch, List.isEmpty_cons, if_neg Bool.false_ne_true, answered]
    rfl

theorem exists_unseen (quiet : link.Quiescent) (state : State σ) (seen : List Bytes) :
    ∃ rest : List Bytes, rest.Nodup ∧
      ∀ key, key ∈ rest ↔ Listable quiet state key ∧ key ∉ seen := by
  refine ⟨((quiet.keyspace state.2).entries.map Prod.fst).filter
    (fun key => Glob.isMatch state.1.options.pattern key && !seen.contains key),
    (quiet.keyspace state.2).nodup_keys.filter _, ?_⟩
  intro key
  rw [List.mem_filter, Listable, Tree.isSome_get?_iff, Bool.and_eq_true, Bool.not_eq_true',
    List.contains_eq_mem, decide_eq_false_iff_not, and_assoc]

/-- The keys of a page and those seen later are together the keys not seen before it. -/
theorem unseen_append {listable : Bytes → Prop} {seen fresh later : List Bytes}
    (freshDistinct : fresh.Nodup) (laterDistinct : later.Nodup)
    (freshMembers : ∀ key ∈ fresh, listable key ∧ key ∉ seen)
    (laterMembers : ∀ key, key ∈ later ↔ listable key ∧ key ∉ seen ++ fresh) :
    (fresh ++ later).Nodup ∧ ∀ key, key ∈ fresh ++ later ↔ listable key ∧ key ∉ seen := by
  constructor
  · refine List.nodup_append.mpr ⟨freshDistinct, laterDistinct, ?_⟩
    intro first old second new same
    rw [same] at old
    exact ((laterMembers second).mp new).2 (List.mem_append_right seen old)
  · intro key
    rw [List.mem_append, laterMembers, List.mem_append, not_or]
    constructor
    · rintro (here | ⟨listableKey, unseen, _⟩)
      · exact freshMembers key here
      · exact ⟨listableKey, unseen⟩
    · rintro ⟨listableKey, unseen⟩
      by_cases here : key ∈ fresh
      · exact .inl here
      · exact .inr ⟨listableKey, unseen, here⟩

/-- Visiting on is a walk over the entries of the keys not seen yet, in some
order. -/
theorem rangeFrom_spec {α : Type} (codec : KeyCodec κ) (visit : Visitor κ Bytes α) (pages : Nat)
    {state : State σ} {cursor : UInt64} {seen : List Bytes} (gathered : α)
    (steady : quiet.steady state.2)
    (owing : Owing quiet state cursor pages (· ∉ seen)) :
    ∃ (listed : List Bytes) (after : State σ),
      rangeFrom link codec visit (pages + 1) cursor seen gathered state =
        ((visit.walk (listed.filterMap
          (entryAt? codec state.1.options (quiet.keyspace state.2))) gathered).1, after) ∧
      Stays quiet state after ∧ quiet.keyspace after.2 = quiet.keyspace state.2 ∧
      listed.Nodup ∧ ∀ key, key ∈ listed ↔ Listable quiet state key ∧ key ∉ seen := by
  induction pages using Nat.strongRecOn generalizing state cursor seen gathered with
  | ind pages hypothesis =>
    rcases scanPage_spec steady owing with
      ⟨next, page, scannedState, scanned, scanStays, scanSame, listable, rest⟩
    rcases fetch_spec scanStays.steady (freshKeys seen page) with
      ⟨after, fetched, fetchStays, fetchSame, stillOwing⟩
    have stays := fetchStays.trans scanStays
    have same := fetchSame.trans scanSame
    have freshListable : ∀ key ∈ freshKeys seen page, Listable quiet state key ∧ key ∉ seen := by
      intro key member
      rcases mem_freshKeys.mp member with ⟨listed, unseen⟩
      exact ⟨listable key listed, unseen⟩
    have distinct := nodup_freshKeys seen page
    rw [rangeFrom, scanned]
    dsimp only
    rw [fetched]
    dsimp only
    rw [stays.options, scanSame, ownedEntries_map]
    rcases walked : visit.walk ((freshKeys seen page).filterMap
      (entryAt? codec state.1.options (quiet.keyspace state.2))) gathered with ⟨reached, goesOn⟩
    cases goesOn with
    | false =>
      -- What is left is not visited, and may come in any order.
      rcases exists_unseen quiet state (seen ++ freshKeys seen page) with
        ⟨others, othersDistinct, othersMembers⟩
      rcases unseen_append distinct othersDistinct freshListable othersMembers with
        ⟨allDistinct, allMembers⟩
      refine ⟨freshKeys seen page ++ others, after, ?_, stays, same, allDistinct, allMembers⟩
      rw [List.filterMap_append, Visitor.walk_append, walked]
    | true =>
      dsimp only
      rcases rest with ⟨last, all⟩ | ⟨more, fewer, count, owingRest⟩
      · refine ⟨freshKeys seen page, after, ?_, stays, same, distinct, ?_⟩
        · rw [if_pos last, walked]
        · intro key
          refine ⟨freshListable key, ?_⟩
          rintro ⟨listableKey, unseen⟩
          exact mem_freshKeys.mpr ⟨all key listableKey unseen, unseen⟩
      · have owingAfter : Owing quiet after next fewer (· ∉ seen ++ freshKeys seen page) :=
          (stillOwing next fewer _ owingRest).weaken fun key _ without =>
            not_mem_append_freshKeys.mp without
        rcases hypothesis fewer (by omega) reached stays.steady owingAfter with
          ⟨later, last, visited, laterStays, laterSame, laterDistinct, laterMembers⟩
        have laterListable : ∀ key, key ∈ later ↔
            Listable quiet state key ∧ key ∉ seen ++ freshKeys seen page := by
          intro key
          rw [laterMembers key, stays.listable_iff same]
        rcases unseen_append distinct laterDistinct freshListable laterListable with
          ⟨allDistinct, allMembers⟩
        refine ⟨freshKeys seen page ++ later, last, ?_, laterStays.trans stays,
          laterSame.trans same, allDistinct, allMembers⟩
        rw [if_neg more, count, visited, stays.options, same, List.filterMap_append,
          Visitor.walk_append, walked]

/-! ## Taking an entry -/

/-- One entry is gone, and nothing else has changed. -/
def Took (quiet : link.Quiescent) (codec : KeyCodec κ) (before : State σ) (entry : κ × Bytes)
    (after : State σ) : Prop :=
  Stays quiet before after ∧ ∃ serverKey,
    entryAt? codec before.1.options (quiet.keyspace before.2) serverKey = some entry ∧
    quiet.keyspace after.2 = (quiet.keyspace before.2).erase serverKey

/-- It does not matter whether the server was looked at before. -/
theorem Took.since {codec : KeyCodec κ} {first second third : State σ} {entry : κ × Bytes}
    (took : Took quiet codec second entry third) (stays : Stays quiet first second)
    (same : quiet.keyspace second.2 = quiet.keyspace first.2) :
    Took quiet codec first entry third := by
  rcases took with ⟨later, serverKey, held, keyspace⟩
  rw [stays.options, same] at held
  rw [same] at keyspace
  exact ⟨later.trans stays, serverKey, held, keyspace⟩

/-- A page is gone through up to the first key that belongs to the map. -/
theorem popFromPage_spec (codec : KeyCodec κ) {page : List Bytes} {state : State σ}
    (steady : quiet.steady state.2)
    (listable : ∀ key ∈ page, Listable quiet state key) :
    (∃ after, popFromPage link codec page state = (.ok none, after) ∧ Stays quiet state after ∧
      quiet.keyspace after.2 = quiet.keyspace state.2 ∧
      (∀ key ∈ page, ownedKey? codec state.1.options key = none) ∧
      ∀ cursor pages missing,
        Owing quiet state cursor pages missing → Owing quiet after cursor pages missing) ∨
    ∃ entry after, popFromPage link codec page state = (.ok (some entry), after) ∧
      Took quiet codec state entry after := by
  induction page with
  | nil =>
    refine .inl ⟨state, rfl, Stays.refl steady, rfl, ?_, fun _ _ _ owing => owing⟩
    intro key member
    cases member
  | cons serverKey rest hypothesis =>
    have listableRest : ∀ key ∈ rest, Listable quiet state key :=
      fun key member => listable key (List.mem_cons_of_mem _ member)
    have here := listable serverKey List.mem_cons_self
    cases owned : ownedKey? codec state.1.options serverKey with
    | none =>
      have skipped : popFromPage link codec (serverKey :: rest) state =
          popFromPage link codec rest state := by
        rw [popFromPage, owned]
      rw [skipped]
      apply (hypothesis listableRest).imp_left
      rintro ⟨after, ended, stays, same, foreign, owing⟩
      refine ⟨after, ended, stays, same, ?_, owing⟩
      intro key member
      rcases List.mem_cons.mp member with rfl | later
      · exact owned
      · exact foreign key later
    | some key =>
      -- Nothing can have taken the value since the page was read.
      rcases Option.isSome_iff_exists.mp here.1 with ⟨value, held⟩
      rcases execute_direct steady (.getdel serverKey) trivial with
        ⟨after, answered, stays, keyspace, _⟩
      rw [RedisCommand.apply, held] at answered keyspace
      refine .inr ⟨(key, value), after, ?_, stays, serverKey, ?_, keyspace⟩
      · rw [popFromPage, owned]
        dsimp only
        rw [answered]
      · rw [entryAt?, owned, held]
        rfl

/-- Nothing is taken only if no key that is there belongs to the map. -/
theorem popFrom_spec (codec : KeyCodec κ) (pages : Nat) {state : State σ} {cursor : UInt64}
    (steady : quiet.steady state.2)
    (owing : Owing quiet state cursor pages fun key =>
      (ownedKey? codec state.1.options key).isSome = true) :
    (∃ after, popFrom link codec (pages + 1) cursor state = (.ok none, after) ∧
      Stays quiet state after ∧ quiet.keyspace after.2 = quiet.keyspace state.2 ∧
      ∀ key, Listable quiet state key → ownedKey? codec state.1.options key = none) ∨
    ∃ entry after, popFrom link codec (pages + 1) cursor state = (.ok (some entry), after) ∧
      Took quiet codec state entry after := by
  induction pages using Nat.strongRecOn generalizing state cursor with
  | ind pages hypothesis =>
    rcases scanPage_spec steady owing with
      ⟨next, page, scannedState, scanned, scanStays, scanSame, listable, rest⟩
    have listableThen : ∀ key ∈ page, Listable quiet scannedState key :=
      fun key member => (scanStays.listable_iff scanSame key).mpr (listable key member)
    rw [popFrom, scanned]
    dsimp only
    rcases popFromPage_spec codec scanStays.steady listableThen with
      ⟨after, ended, popStays, popSame, foreign, stillOwing⟩ | ⟨entry, after, ended, took⟩
    · have stays := popStays.trans scanStays
      have same := popSame.trans scanSame
      rw [scanStays.options] at foreign
      rw [ended]
      dsimp only
      rcases rest with ⟨last, all⟩ | ⟨more, fewer, count, owingRest⟩
      · refine .inl ⟨after, if_pos last, stays, same, ?_⟩
        intro key listableKey
        by_contra owned
        have isOwned := Option.ne_none_iff_isSome.mp owned
        exact owned (foreign key (all key listableKey isOwned))
      · have owingAfter : Owing quiet after next fewer fun key =>
            (ownedKey? codec after.1.options key).isSome = true := by
          apply (stillOwing next fewer _ owingRest).weaken
          intro key _ owned
          rw [stays.options] at owned
          refine ⟨owned, ?_⟩
          intro onPage
          rw [foreign key onPage] at owned
          cases owned
        rw [if_neg more, count]
        apply (hypothesis fewer (by omega) stays.steady owingAfter).imp
        · rintro ⟨last, taken, lastStays, lastSame, none⟩
          refine ⟨last, taken, lastStays.trans stays, lastSame.trans same, ?_⟩
          intro key listableKey
          rw [← stays.options]
          exact none key ((stays.listable_iff same key).mpr listableKey)
        · rintro ⟨entry, last, taken, took⟩
          exact ⟨entry, last, taken, took.since stays same⟩
    · rw [ended]
      exact .inr ⟨entry, after, rfl, took.since scanStays scanSame⟩

/-! ## Writing and removing -/

theorem get_spec {state : State σ} (steady : quiet.steady state.2) (serverKey : Bytes) :
    ∃ after, Stays quiet state after ∧ quiet.keyspace after.2 = quiet.keyspace state.2 ∧
      ((quiet.keyspace state.2).get? serverKey = none ∧
          execute link (.get serverKey) state = (.ok .nil, after) ∨
        ∃ value, (quiet.keyspace state.2).get? serverKey = some value ∧
          execute link (.get serverKey) state = (.ok (.bulk value), after)) := by
  rcases execute_direct steady (.get serverKey) trivial with ⟨after, answered, stays, same, _⟩
  rw [RedisCommand.apply] at answered same
  cases held : (quiet.keyspace state.2).get? serverKey with
  | none =>
    rw [held] at answered same
    exact ⟨after, stays, same, .inl ⟨rfl, answered⟩⟩
  | some value =>
    rw [held] at answered same
    exact ⟨after, stays, same, .inr ⟨value, rfl, answered⟩⟩

/-- Writing is refused only when it is asked to be, under a key that is there. -/
theorem set_spec {state : State σ} (steady : quiet.steady state.2)
    (accepted : quiet.accepts state.1.options.expireMillis) (serverKey value : Bytes)
    (onlyIfAbsent : Bool) :
    ∃ after, set link serverKey value onlyIfAbsent state =
        (.ok !(onlyIfAbsent && ((quiet.keyspace state.2).get? serverKey).isSome), after) ∧
      Stays quiet state after ∧
      quiet.keyspace after.2 =
        if onlyIfAbsent && ((quiet.keyspace state.2).get? serverKey).isSome
        then quiet.keyspace state.2 else (quiet.keyspace state.2).insert serverKey value := by
  rcases execute_direct steady
    (.set serverKey value onlyIfAbsent state.1.options.expireMillis) accepted with
    ⟨after, answered, stays, keyspace, _⟩
  rw [RedisCommand.apply] at answered keyspace
  refine ⟨after, ?_, stays, ?_⟩
  · rw [set, answered]
    cases onlyIfAbsent && ((quiet.keyspace state.2).get? serverKey).isSome <;> rfl
  · rw [keyspace]
    cases onlyIfAbsent && ((quiet.keyspace state.2).get? serverKey).isSome <;> rfl

/-- Batches are the keys, cut up. -/
theorem flatten_batches (fuel : Nat) (keys : List Bytes) (enough : keys.length ≤ fuel) :
    (batches fuel keys).flatten = keys := by
  induction fuel generalizing keys with
  | zero =>
    rw [List.length_eq_zero_iff.mp (Nat.le_zero.mp enough)]
    rfl
  | succ fuel hypothesis =>
    cases keys with
    | nil => rfl
    | cons key rest =>
      have left : ((key :: rest).drop deleteBatch).length ≤ fuel := by
        rw [List.length_drop, List.length_cons, deleteBatch]
        rw [List.length_cons] at enough
        omega
      rw [batches, List.flatten_cons, hypothesis _ left, List.take_append_drop]
      exact List.cons_ne_nil key rest

/-- No batch is empty. -/
theorem ne_nil_of_mem_batches {fuel : Nat} {keys piece : List Bytes}
    (member : piece ∈ batches fuel keys) : piece ≠ [] := by
  induction fuel generalizing keys with
  | zero => cases member
  | succ fuel hypothesis =>
    cases keys with
    | nil => cases member
    | cons key rest =>
      rw [batches] at member
      · rcases List.mem_cons.mp member with rfl | later
        · exact List.cons_ne_nil key _
        · exact hypothesis later
      · exact List.cons_ne_nil key rest

theorem deleteBatches_spec (pieces : List (List Bytes)) (full : ∀ piece ∈ pieces, piece ≠ [])
    {state : State σ} (steady : quiet.steady state.2) :
    ∃ after, deleteBatches link pieces state = (.ok (), after) ∧ Stays quiet state after ∧
      quiet.keyspace after.2 = pieces.flatten.foldl Tree.erase (quiet.keyspace state.2) := by
  induction pieces generalizing state with
  | nil => exact ⟨state, rfl, Stays.refl steady, rfl⟩
  | cons piece rest hypothesis =>
    rcases execute_direct steady (.del piece) (full piece List.mem_cons_self) with
      ⟨after, answered, stays, keyspace, _⟩
    have others : ∀ other ∈ rest, other ≠ [] :=
      fun other member => full other (List.mem_cons_of_mem _ member)
    rcases hypothesis others stays.steady with ⟨last, deleted, lastStays, lastKeyspace⟩
    refine ⟨last, ?_, lastStays.trans stays, ?_⟩
    · rw [deleteBatches, answered]
      exact deleted
    · rw [lastKeyspace, keyspace, RedisCommand.apply, List.flatten_cons, List.foldl_append]

/-- All keys given are removed, however many there are. -/
theorem deleteRaw_spec (keys : List Bytes) {state : State σ} (steady : quiet.steady state.2) :
    ∃ after, deleteRaw link keys state = (.ok (), after) ∧ Stays quiet state after ∧
      quiet.keyspace after.2 = keys.foldl Tree.erase (quiet.keyspace state.2) := by
  rcases deleteBatches_spec (batches keys.length keys) (fun _ => ne_nil_of_mem_batches) steady with
    ⟨after, deleted, stays, keyspace⟩
  rw [flatten_batches keys.length keys (Nat.le_refl _)] at keyspace
  exact ⟨after, deleted, stays, keyspace⟩

end Redis
end TypedStore
