import TypedStore.Proofs.Contract.Mirror
import TypedStore.Proofs.Redis.Walks

/-!
# The rows of a keyspace that belong to a map

A keyspace may hold keys of other programs.  The rows of the map are those whose
key begins with the prefix and goes on with one whole key; all of them match the
pattern of a scan, so a scan finds them.  What a walk reads off the keys that it
lists is, up to the order, what the rows hold.
-/

namespace TypedStore
namespace Redis

variable {κ : Type} (codec : KeyCodec κ)

/-- Whether a key of the server is the prefix and what a key is written as. -/
def SpellsServerKey (options : RedisOptions) (serverKey : Bytes) (key : κ) : Prop :=
  ∃ bytes, serverKey = Bytes.utf8 options.keyPrefix ++ bytes ∧ codec.Spells bytes key

/-- The rows that belong to the map. -/
def ownedRows (options : RedisOptions) (keyspace : Tree) : List (Bytes × Bytes) :=
  keyspace.entries.filter fun row => (ownedKey? codec options row.1).isSome

variable {codec} {options : RedisOptions} {serverKey : Bytes} {key : κ}

theorem biUnique_spellsServerKey : Relator.BiUnique (SpellsServerKey codec options) := by
  constructor
  · rintro first key second ⟨bytes, rfl, spelled⟩ ⟨others, rfl, otherSpelled⟩
    rw [KeyCodec.biUnique_spells.1 spelled otherSpelled]
  · rintro serverKey first second ⟨bytes, rfl, spelled⟩ ⟨others, same, otherSpelled⟩
    rw [List.append_cancel_left same] at spelled
    exact KeyCodec.biUnique_spells.2 spelled otherSpelled

theorem SpellsServerKey.serverKey? (spelled : SpellsServerKey codec options serverKey key) :
    serverKey? codec options key = some serverKey := by
  rcases spelled with ⟨bytes, rfl, spelled⟩
  rw [Redis.serverKey?, spelled.bytes?]
  rfl

theorem SpellsServerKey.ownedKey? (spelled : SpellsServerKey codec options serverKey key) :
    ownedKey? codec options serverKey = some key := by
  rcases spelled with ⟨bytes, rfl, spelled⟩
  rw [Redis.ownedKey?, Bytes.after?_append]
  exact spelled.key?

theorem exists_spellsServerKey (options : RedisOptions) (known : codec.Restores key) :
    ∃ serverKey, SpellsServerKey codec options serverKey key := by
  rcases known with ⟨bytes, spelled⟩
  exact ⟨Bytes.utf8 options.keyPrefix ++ bytes, bytes, rfl, spelled⟩

/-- No key of the server is written for a key that cannot be written. -/
theorem not_spellsServerKey (unspelled : ∀ bytes, ¬codec.Spells bytes key) (serverKey : Bytes) :
    ¬SpellsServerKey codec options serverKey key := by
  rintro ⟨bytes, _, spelled⟩
  exact unspelled bytes spelled

/-- A key of the map matches the pattern of a scan. -/
theorem isMatch_of_ownedKey? (owned : ownedKey? codec options serverKey = some key) :
    Glob.isMatch options.pattern serverKey = true := by
  rw [ownedKey?] at owned
  rcases Option.bind_eq_some_iff.mp owned with ⟨rest, after, _⟩
  rw [RedisOptions.pattern, Glob.isMatch_escape_star]
  exact ⟨rest, Bytes.eq_append_of_after? after⟩

theorem mem_ownedRows {keyspace : Tree} {value : Bytes} :
    (serverKey, value) ∈ ownedRows codec options keyspace ↔
      keyspace.get? serverKey = some value ∧ (ownedKey? codec options serverKey).isSome = true := by
  rw [ownedRows, List.mem_filter, Tree.get?_eq_listing]
  constructor
  · rintro ⟨member, owned⟩
    exact ⟨Listing.find?_of_mem keyspace.nodup_keys member, owned⟩
  · rintro ⟨found, owned⟩
    exact ⟨Listing.mem_of_find? found, owned⟩

theorem nodup_ownedRows (keyspace : Tree) :
    ((ownedRows codec options keyspace).map Prod.fst).Nodup :=
  keyspace.nodup_keys.sublist (List.filter_sublist.map Prod.fst)

/-- A key of the map is found in the keyspace as in the rows of the map. -/
theorem find?_ownedRows (keyspace : Tree) (owned : ownedKey? codec options serverKey = some key) :
    Listing.find? serverKey (ownedRows codec options keyspace) = keyspace.get? serverKey := by
  have isOwned : (ownedKey? codec options serverKey).isSome = true := by
    rw [owned]
    rfl
  cases found : keyspace.get? serverKey with
  | none =>
    apply Listing.find?_eq_none_iff.mpr
    intro member
    rcases List.mem_map.mp member with ⟨⟨listed, value⟩, listedMember, same⟩
    dsimp only at same
    rw [same, mem_ownedRows, found] at listedMember
    cases listedMember.1
  | some value =>
    exact Listing.find?_of_mem (nodup_ownedRows keyspace) (mem_ownedRows.mpr ⟨found, isOwned⟩)

/-! ## Changes of the keyspace -/

theorem ownedRows_erase (keyspace : Tree) (serverKey : Bytes) :
    ownedRows codec options (keyspace.erase serverKey) =
      (ownedRows codec options keyspace).filter fun row => decide (row.1 ≠ serverKey) := by
  rw [ownedRows, ownedRows, Tree.erase, List.filter_filter, List.filter_filter]
  exact List.filter_congr fun row _ => Bool.and_comm _ _

theorem ownedRows_insert_perm (keyspace : Tree)
    (owned : ownedKey? codec options serverKey = some key) (value : Bytes) :
    (ownedRows codec options (keyspace.insert serverKey value)).Perm
      ((ownedRows codec options keyspace).filter (fun row => decide (row.1 ≠ serverKey)) ++
        [(serverKey, value)]) := by
  have order := (keyspace.entries_insert_perm serverKey value).filter
    fun row => (ownedKey? codec options row.1).isSome
  rw [List.filter_append] at order
  have alone : [(serverKey, value)].filter
      (fun row => (ownedKey? codec options row.1).isSome) = [(serverKey, value)] := by
    rw [List.filter_singleton, owned]
    rfl
  rw [alone] at order
  rw [← ownedRows_erase]
  exact order

/-- Removing every key of the map leaves none of its rows. -/
theorem ownedRows_foldl_erase (removed : List Bytes) (keyspace : Tree)
    (all : ∀ row ∈ ownedRows codec options keyspace, row.1 ∈ removed) :
    ownedRows codec options (removed.foldl Tree.erase keyspace) = [] := by
  induction removed generalizing keyspace with
  | nil =>
    apply List.eq_nil_iff_forall_not_mem.mpr
    intro row member
    cases all row member
  | cons serverKey rest hypothesis =>
    apply hypothesis (keyspace.erase serverKey)
    intro row member
    rw [ownedRows_erase, List.mem_filter] at member
    rcases List.mem_cons.mp (all row member.1) with here | later
    · exact absurd here (of_decide_eq_true member.2)
    · exact later

/-! ## What a walk reads -/

/-- The entry that a row of the map holds. -/
def readRow? (options : RedisOptions) (codec : KeyCodec κ) (row : Bytes × Bytes) :
    Option (κ × Bytes) :=
  (ownedKey? codec options row.1).map fun key => (key, row.2)

/-- Reading the keys that a walk lists is reading the rows, up to the order. -/
theorem filterMap_entryAt?_perm {keyspace : Tree} {listed : List Bytes} (distinct : listed.Nodup)
    (members : ∀ key, key ∈ listed ↔
      (keyspace.get? key).isSome = true ∧ Glob.isMatch options.pattern key = true) :
    (listed.filterMap (entryAt? codec options keyspace)).Perm
      ((ownedRows codec options keyspace).filterMap (readRow? options codec)) := by
  have order : listed.Perm ((keyspace.entries.map Prod.fst).filter
      (Glob.isMatch options.pattern)) := by
    apply (List.perm_ext_iff_of_nodup distinct (keyspace.nodup_keys.filter _)).mpr
    intro key
    rw [members, List.mem_filter, Tree.isSome_get?_iff]
  have same : ((keyspace.entries.map Prod.fst).filter (Glob.isMatch options.pattern)).filterMap
      (entryAt? codec options keyspace) =
      (ownedRows codec options keyspace).filterMap (readRow? options codec) := by
    rw [List.filter_map, List.filterMap_map, ownedRows, List.filterMap_filter,
      List.filterMap_filter]
    apply List.filterMap_congr
    rintro ⟨serverKey, value⟩ member
    have found : keyspace.get? serverKey = some value := by
      rw [Tree.get?_eq_listing]
      exact Listing.find?_of_mem keyspace.nodup_keys member
    dsimp only [Function.comp_apply]
    rw [entryAt?, readRow?]
    cases owned : ownedKey? codec options serverKey with
    | none => exact ite_self none
    | some key =>
      rw [if_pos (isMatch_of_ownedKey? owned), found]
      rfl
  rw [← same]
  exact order.filterMap _

/-- The keys of the map that a walk lists are those of the entries it reads. -/
theorem filterMap_ownedKey? {keyspace : Tree} {listed : List Bytes}
    (present : ∀ key ∈ listed, (keyspace.get? key).isSome = true) :
    listed.filterMap (ownedKey? codec options) =
      (listed.filterMap (entryAt? codec options keyspace)).map Prod.fst := by
  rw [List.map_filterMap]
  apply List.filterMap_congr
  intro serverKey member
  rcases Option.isSome_iff_exists.mp (present serverKey member) with ⟨value, found⟩
  rw [entryAt?, found]
  cases ownedKey? codec options serverKey <;> rfl

end Redis
end TypedStore
