import TypedStore.Proofs.Tree.Entries
import TypedStore.Redis

/-!
# Quiescent servers

A server is quiescent if it answers every command that an engine sends, its
keyspace changes by the commands it is sent and by nothing else, and its scans
are those of the protocol: from cursor zero on, pages of any size follow one
another until the cursor is zero again, and every key that is there and matches
is on one of them at least once.  How the keyspace is cut into pages is left
open, and so is what a cursor means; a key may come several times and a page may
be empty.

Nothing is asked about commands that engines do not send: a list of keys without
keys, which servers refuse, or a write with an expiry that the server does not
accept, such as none at all in milliseconds.  `RedisCommand.IsSent` says which
are left.

`RedisLink.Quiescent` is this as an interface.  `owes` is what a scan still has
to list from a cursor on, within how many further pages; it survives commands
that leave the keyspace as it is, so an engine may look at the keys of a page
before it asks for the next one.  `RedisLink.onePage` shows that the interface
can be met.
-/

namespace TypedStore

/-- The way to answer a scan of a keyspace that is asked no scan. -/
def noScan : UInt64 → Bytes → Nat → RedisReply := fun _ _ _ => .nil

/-- A command other than a scan. -/
def RedisCommand.isDirect : RedisCommand → Bool
  | .scan _ _ _ => false
  | _ => true

/-- Whether an engine may send a command besides its scans: there is a key to look up or to
remove, and a write has an expiry, or none, that is accepted. -/
def RedisCommand.IsSent (accepts : Option UInt64 → Prop) : RedisCommand → Prop
  | .get _ => True
  | .mget keys => keys ≠ []
  | .set _ _ _ expireMillis => accepts expireMillis
  | .del keys => keys ≠ []
  | .getdel _ => True
  | .scan _ _ _ => False

theorem RedisCommand.IsSent.isDirect {accepts : Option UInt64 → Prop} {command : RedisCommand}
    (sent : command.IsSent accepts) : command.isDirect = true := by
  cases command with
  | scan cursor pattern count => exact sent.elim
  | _ => rfl

/-- A server that answers, with nobody else on it and scans that list every key. -/
structure RedisLink.Quiescent {σ : Type} (link : RedisLink σ) where
  /-- States in which the server answers. -/
  steady : σ → Prop
  /-- Expiries that the server accepts with a write. -/
  accepts : Option UInt64 → Prop
  keyspace : σ → Tree
  /-- From this cursor on, a scan lists these keys on its next page and at most
  so many pages after it. -/
  owes : σ → (cursor : UInt64) → (pattern : Bytes) → (count : Nat) → (pages : Nat) →
    List Bytes → Prop
  direct : ∀ (connection : Nat) (command : RedisCommand) (server : σ), steady server →
    command.IsSent accepts →
    ∃ after, link.send connection command server =
        (.reply (command.apply noScan (keyspace server)).1, after) ∧
      steady after ∧ keyspace after = (command.apply noScan (keyspace server)).2 ∧
      (keyspace after = keyspace server → ∀ cursor pattern count pages keys,
        owes server cursor pattern count pages keys → owes after cursor pattern count pages keys)
  scan : ∀ (connection : Nat) (server : σ) (cursor : UInt64) (pattern : Bytes) (count pages : Nat)
    (keys : List Bytes), steady server → owes server cursor pattern count pages keys →
    ∃ next page after, link.send connection (.scan cursor pattern count) server =
        (.reply (.page next page), after) ∧
      steady after ∧ keyspace after = keyspace server ∧
      (∀ key ∈ page, ((keyspace server).get? key).isSome = true ∧
        Glob.isMatch pattern key = true) ∧
      (next = 0 ∧ (∀ key ∈ keys, key ∈ page) ∨
        next ≠ 0 ∧ ∃ fewer left, pages = fewer + 1 ∧ owes after next pattern count fewer left ∧
          ∀ key ∈ keys, key ∈ page ∨ key ∈ left)
  start : ∀ (server : σ) (pattern : Bytes) (count : Nat), steady server →
    ∃ pages keys, link.pageBound server = pages + 1 ∧
      owes server 0 pattern count pages keys ∧
      ∀ key, ((keyspace server).get? key).isSome = true → Glob.isMatch pattern key = true →
        key ∈ keys

/-- The link knows a bound for the number of entries. -/
def RedisLink.Quiescent.Bounded {σ : Type} {link : RedisLink σ} (quiet : link.Quiescent) : Prop :=
  ∀ server, quiet.steady server → (quiet.keyspace server).size ≤ link.entryBound server

theorem RedisCommand.apply_of_isDirect {command : RedisCommand} (direct : command.isDirect = true)
    (first second : UInt64 → Bytes → Nat → RedisReply) (keyspace : Tree) :
    command.apply first keyspace = command.apply second keyspace := by
  cases command <;> first | rfl | cases direct

/-- A server that lists all its keys on one page. -/
def RedisLink.onePage : RedisLink Tree where
  send _ command keyspace :=
    let (reply, keyspace) := command.apply
      (fun _ pattern _ => .page 0 ((keyspace.entries.map Prod.fst).filter (Glob.isMatch pattern)))
      keyspace
    (.reply reply, keyspace)
  pageBound _ := 1
  entryBound keyspace := keyspace.size

/-- It is quiescent in every state. -/
def RedisLink.onePageQuiescent : RedisLink.onePage.Quiescent where
  steady _ := True
  accepts _ := True
  keyspace server := server
  owes server _ pattern _ _ keys :=
    ∀ key ∈ keys, (server.get? key).isSome = true ∧ Glob.isMatch pattern key = true
  direct := by
    intro connection command server _ sent
    have same := RedisCommand.apply_of_isDirect sent.isDirect noScan
      (fun _ pattern _ => .page 0 ((server.entries.map Prod.fst).filter (Glob.isMatch pattern)))
      server
    refine ⟨(command.apply noScan server).2, ?_, trivial, rfl, ?_⟩
    · rw [same]
      rfl
    · intro unchanged cursor pattern count pages keys owed
      rw [unchanged]
      exact owed
  scan := by
    intro connection server cursor pattern count pages keys _ owed
    refine ⟨0, (server.entries.map Prod.fst).filter (Glob.isMatch pattern), server, rfl, trivial, rfl,
      ?_, .inl ⟨rfl, ?_⟩⟩
    · intro key member
      rcases List.mem_filter.mp member with ⟨listed, matched⟩
      exact ⟨Tree.isSome_get?_iff.mpr listed, matched⟩
    · intro key member
      rcases owed key member with ⟨present, matched⟩
      exact List.mem_filter.mpr ⟨Tree.isSome_get?_iff.mp present, matched⟩
  start := by
    intro server pattern count _
    refine ⟨0, (server.entries.map Prod.fst).filter (Glob.isMatch pattern), rfl, ?_, ?_⟩
    · intro key member
      rcases List.mem_filter.mp member with ⟨listed, matched⟩
      exact ⟨Tree.isSome_get?_iff.mpr listed, matched⟩
    · intro key present matched
      exact List.mem_filter.mpr ⟨Tree.isSome_get?_iff.mp present, matched⟩

theorem RedisLink.onePageQuiescent_bounded : RedisLink.onePageQuiescent.Bounded :=
  fun server _ => Nat.le_refl server.size

end TypedStore
