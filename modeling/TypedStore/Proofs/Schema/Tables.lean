import TypedStore.Proofs.Listing.Entries
import TypedStore.Proofs.Schema.Recovery
import TypedStore.Table

/-!
# Maps kept by hash

A map that is kept by hash is read from what it was written as with all its entries, in
the order that it draws.  Writing follows that order: what comes out are the same
entries of the wire, each in the place of its key.
-/

namespace TypedStore
namespace TableOrder

/-- The place of an entry on the wire, that of its key. -/
def placeOnWire (order : TableOrder) (entry : Wire × Wire) : Nat :=
  match entry.1.text? with
  | some key => order.place (.text key)
  | none => 0

/-- The entries of a map on the wire in the order of their places. -/
def arrangeWires (order : TableOrder) (entries : List (Wire × Wire)) : List (Wire × Wire) :=
  arrange order.placeOnWire entries

theorem entriesToWire_insert {order : TableOrder} {style : CaseStyle} {key : String}
    {item : Datum} {data : Wire} {entries : List (String × Datum)} {wires : List (Wire × Wire)}
    (first : item.toWire style = .ok data)
    (rest : Datum.entriesToWire style entries = .ok wires) :
    Datum.entriesToWire style
        (insert (fun entry => order.place (.text entry.1)) (key, item) entries) =
      .ok (insert order.placeOnWire (.str key, data) wires) := by
  have put : ∀ {entries : List (String × Datum)} {wires : List (Wire × Wire)}
      {key : String} {item : Datum} {data : Wire}, item.toWire style = .ok data →
      Datum.entriesToWire style entries = .ok wires →
      Datum.entriesToWire style ((key, item) :: entries) = .ok ((.str key, data) :: wires) := by
    intro entries wires key item data first rest
    rw [Datum.entriesToWire, first, rest]
    rfl
  induction entries generalizing wires with
  | nil =>
    cases rest
    exact put first rfl
  | cons entry others hypothesis =>
    rcases entry with ⟨other, held⟩
    rcases Datum.entriesToWire_cons rest with ⟨heldData, laterWires, heldWritten, later, rfl⟩
    rw [insert, insert]
    change Datum.entriesToWire style
        (if order.place (.text key) ≤ order.place (.text other) then _ else _) =
      .ok (if order.place (.text key) ≤ order.place (.text other) then _ else _)
    split
    · exact put first rest
    · exact put heldWritten (hypothesis later)

theorem entriesToWire_arrange (order : TableOrder) {style : CaseStyle} :
    ∀ {entries : List (String × Datum)} {wires : List (Wire × Wire)},
      Datum.entriesToWire style entries = .ok wires →
      Datum.entriesToWire style (order.arrangeEntries entries) = .ok (order.arrangeWires wires)
  | [], _, written => by
    cases written
    rfl
  | (key, item) :: rest, _, written => by
    rcases Datum.entriesToWire_cons written with ⟨data, others, first, later, rfl⟩
    exact entriesToWire_insert first (order.entriesToWire_arrange later)

end TableOrder

namespace TableType

/-- Entries under distinct keys are all kept. -/
theorem lastOfEach_of_distinct {entries : List (String × Datum)}
    (distinct : (entries.map Prod.fst).Nodup) : lastOfEach entries = entries := by
  have general : ∀ later start : List (String × Datum), ((start ++ later).map Prod.fst).Nodup →
      later.foldl (fun kept entry => Listing.put entry.1 entry.2 kept) start = start ++ later := by
    intro later
    induction later with
    | nil =>
      intro start _
      exact (List.append_nil start).symm
    | cons entry rest hypothesis =>
      intro start distinct
      have absent : entry.1 ∉ start.map Prod.fst := by
        rw [List.map_append, List.nodup_append] at distinct
        intro member
        exact distinct.2.2 _ member _ List.mem_cons_self rfl
      rw [List.foldl_cons, Listing.put_of_absent entry.2 absent, hypothesis]
      · rw [List.append_assoc, List.singleton_append]
      · rw [List.append_assoc, List.singleton_append]
        exact distinct
  exact general entries [] distinct

variable {item : Schema} {entries : List (String × Datum)} {wires : List (Wire × Wire)}

/-- What is read are the entries that were written, settled. -/
theorem read_map (order : TableOrder) (static : item.isStatic = true)
    (distinct : (entries.map Prod.fst).Nodup) (fits : Datum.entriesFit entries item = true)
    (written : Datum.entriesToWire .numbered entries = .ok wires) :
    (map item).read order (.map wires) =
      some (.map (order.arrangeEntries (Datum.settledEntries entries))) := by
  have settledDistinct : ((Datum.settledEntries entries).map Prod.fst).Nodup := by
    rw [Datum.keys_settledEntries]
    exact distinct
  change (entriesOfWire? item wires).map _ = _
  rw [entriesOfWire?, Schema.mapM_entriesToWire entries item static fits written,
    Option.map_some, lastOfEach_of_distinct settledDistinct]

theorem toWire_arrangeEntries (order : TableOrder)
    (written : Datum.entriesToWire .numbered entries = .ok wires) :
    (Datum.map (order.arrangeEntries (Datum.settledEntries entries))).toWire .numbered =
      .ok (.map (order.arrangeWires wires)) := by
  rw [← Datum.entriesToWire_settledEntries] at written
  rw [Datum.toWire, order.entriesToWire_arrange written]
  rfl

end TableType
end TypedStore
