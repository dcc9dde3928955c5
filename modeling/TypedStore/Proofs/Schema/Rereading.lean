import Mathlib.Data.List.Forall2
import TypedStore.Proofs.Schema.Recovery
import TypedStore.Proofs.Wire.Counted

/-!
# Data that were read once are read again

`ofWire?` is lenient: a float may come from an integer, a text from a byte string, a
record from a map in any order.  What it makes is written in one form only, and
`steady_ofWire?` says that this form is read as the same datum again.  No schema is
left out: a dynamic part keeps its data raw, and raw data are written as they are.

Nor is the form longer than the format can count, although it need not be the one
that was read.  A record that was a map without most of its fields is written with
all of them, so the number of its fields has to be one that the format can count.

The proof follows the schema.  For each way of putting data together there is one
lemma that says that its reader is steady if the readers of its parts are.
-/

namespace TypedStore

namespace Schema

mutual

/-- Whether the fields of every record in a schema can be counted in four bytes. -/
def isCountable : Schema → Bool
  | .option item => isCountable item
  | .list item => isCountable item
  | .map item => isCountable item
  | .tuple items => itemsCountable items
  | .record _ fields => decide (fields.length < 0x100000000) && fieldsCountable fields
  | .union _ cases => casesCountable cases
  | _ => true

/-- `isCountable` for the components of a tuple. -/
def itemsCountable : List Schema → Bool
  | [] => true
  | item :: rest => isCountable item && itemsCountable rest

/-- `isCountable` for the fields of a record. -/
def fieldsCountable : List (String × Schema) → Bool
  | [] => true
  | (_, item) :: rest => isCountable item && fieldsCountable rest

/-- `isCountable` for the variants of a union. -/
def casesCountable : List (String × Case Schema) → Bool
  | [] => true
  | (_, carried) :: rest => caseCountable carried && casesCountable rest

/-- `isCountable` for what a variant carries. -/
def caseCountable : Case Schema → Bool
  | .unit => true
  | .single body => isCountable body
  | .tuple bodies => itemsCountable bodies
  | .record fields => decide (fields.length < 0x100000000) && fieldsCountable fields

end

/-- Whether what a datum is written as can be counted and is read as that datum. -/
def Rereads (reader : Wire → Option Datum) (datum : Datum) : Prop :=
  ∀ data, datum.toWire .numbered = .ok data →
    reader data = some datum ∧ data.lengthsFit = true

/-- Whether a reader keeps whatever it makes of values that can be counted. -/
def Steady (reader : Wire → Option Datum) : Prop :=
  ∀ value datum, value.lengthsFit = true → reader value = some datum → Rereads reader datum

/-- `Rereads` for what a variant carries, whatever its number and label. -/
def RereadsPayload (reader : PayloadReader) (payload : Payload Datum) : Prop :=
  ∀ wires, Datum.payloadToWire .numbered payload = .ok wires → ∀ index label,
    ∃ body, CaseStyle.numbered.variant index label wires = .array [.ofIndex index, body] ∧
      reader (some body) = some payload ∧ body.lengthsFit = true

/-- `Steady` for what a variant carries. -/
def SteadyPayload (reader : PayloadReader) : Prop :=
  ∀ given payload, (∀ value ∈ given, value.lengthsFit = true) → reader given = some payload →
    RereadsPayload reader payload

open Datum

theorem rereads_of_written {reader : Wire → Option Datum} {datum : Datum} (data : Wire)
    (written : datum.toWire .numbered = .ok data) (read : reader data = some datum)
    (fits : data.lengthsFit = true) : Rereads reader datum := by
  intro other otherWritten
  rw [written] at otherWritten
  cases otherWritten
  exact ⟨read, fits⟩

/-! ## Variants and nil -/

/-- A variant that was read has a number and a payload that its case made. -/
theorem readVariant_spec {cases : List (String × PayloadReader)} {value : Wire} {datum : Datum}
    (read : readVariant cases value = some datum) :
    ∃ number given label reader payload,
      value = .array (.int number :: Option.toList given) ∧
      cases[number.val.toNat]? = some (label, reader) ∧ reader given = some payload ∧
      datum = .variant number.val.toNat label payload := by
  rcases value with _ | _ | _ | _ | _ | _ | _ | (_ | ⟨first, given⟩) | _ | _ <;> try cases read
  cases first with
  | int number =>
    simp only [readVariant, Option.bind_eq_bind, Option.bind_some] at read
    split at read
    · rcases given with _ | ⟨body, _ | ⟨next, more⟩⟩
      · rcases Option.bind_eq_some_iff.mp read with ⟨⟨label, reader⟩, found, later⟩
        rcases Option.bind_eq_some_iff.mp later with ⟨payload, made, same⟩
        cases same
        exact ⟨number, none, label, reader, payload, rfl, found, made, rfl⟩
      · rcases Option.bind_eq_some_iff.mp read with ⟨⟨label, reader⟩, found, later⟩
        rcases Option.bind_eq_some_iff.mp later with ⟨payload, made, same⟩
        cases same
        exact ⟨number, some body, label, reader, payload, rfl, found, made, rfl⟩
      · rcases Option.bind_eq_some_iff.mp read with ⟨⟨label, reader⟩, found, later⟩
        cases later
    · cases read
  | _ => cases read

/-- What is read from a value other than nil is not written as nil. -/
theorem isNil_of_ofWire? {value : Wire} (present : value ≠ .nil) : ∀ (schema : Schema)
    {datum : Datum}, schema.ofWire? value = some datum → datum.isNil = false
  | .option item, datum, read => by
    rw [ofWire?_option present] at read
    rcases Option.map_eq_some_iff.mp read with ⟨inner, innerRead, rfl⟩
    rw [isNil]
    exact isNil_of_ofWire? present item innerRead
  | .dyn, datum, read => by
    cases read
    exact decide_eq_false present
  | .unit, datum, read => by
    cases value with
    | nil => exact absurd rfl present
    | _ => cases read
  | .record name fields, datum, read => by
    rcases Option.map_eq_some_iff.mp read with ⟨items, -, rfl⟩
    rfl
  | .union name cases, datum, read => by
    rcases readVariant_spec read with ⟨number, given, label, reader, payload, -, -, -, rfl⟩
    rfl
  | .text, datum, read => by
    rcases Option.map_eq_some_iff.mp read with ⟨text, -, rfl⟩
    rfl
  | .int kind, datum, read => by
    cases value <;> try cases read
    change intDatum? kind _ = some datum at read
    rw [intDatum?] at read
    split at read <;> cases read
    rfl
  | .guarded name, datum, read => by
    cases value <;> try cases read
    change (if _ then _ else _) = some datum at read
    split at read <;> cases read
    rfl
  | .bool, datum, read | .f32, datum, read | .f64, datum, read => by
    cases value <;> cases read <;> rfl
  | .char, datum, read => by
    cases value <;> try cases read
    rcases Option.map_eq_some_iff.mp read with ⟨character, -, rfl⟩
    rfl
  | .list item, datum, read => by
    cases value <;> try cases read
    rcases Option.map_eq_some_iff.mp read with ⟨items, -, rfl⟩
    rfl
  | .map item, datum, read => by
    cases value <;> try cases read
    rcases Option.map_eq_some_iff.mp read with ⟨entries, -, rfl⟩
    rfl
  | .tuple items, datum, read => by
    cases value <;> try cases read
    rcases Option.map_eq_some_iff.mp read with ⟨items, -, rfl⟩
    rfl

theorem steady_option {item : Schema} (steady : Steady item.ofWire?) :
    Steady (option item).ofWire? := by
  intro value datum fits read
  by_cases present : value = .nil
  · subst present
    cases read
    exact rereads_of_written .nil (by rw [toWire]) rfl rfl
  · rw [ofWire?_option present] at read
    rcases Option.map_eq_some_iff.mp read with ⟨inner, innerRead, rfl⟩
    intro data written
    rw [toWire] at written
    have kept := steady value inner fits innerRead data written
    have other : data ≠ .nil := by
      intro same
      have nil := (toWire_eq_nil_iff .numbered inner written).mp same
      rw [isNil_of_ofWire? present item innerRead] at nil
      cases nil
    rw [ofWire?_option other, kept.1]
    exact ⟨rfl, kept.2⟩

/-! ## Lists -/

theorem mapM_spec {α β : Type} {reader : α → Option β} {values : List α} {made : List β}
    (read : values.mapM reader = some made) :
    made.length = values.length ∧ ∀ item ∈ made, ∃ value ∈ values, reader value = some item := by
  induction values generalizing made with
  | nil =>
    cases read
    simp
  | cons value rest hypothesis =>
    rw [List.mapM_cons] at read
    rcases Option.bind_eq_some_iff.mp read with ⟨first, firstRead, later⟩
    rcases Option.bind_eq_some_iff.mp later with ⟨others, othersRead, same⟩
    cases same
    have parts := hypothesis othersRead
    refine ⟨by simp [parts.1], ?_⟩
    intro item member
    rcases List.mem_cons.mp member with rfl | there
    · exact ⟨value, List.mem_cons_self, firstRead⟩
    · rcases parts.2 item there with ⟨source, listed, same⟩
      exact ⟨source, List.mem_cons_of_mem _ listed, same⟩

theorem mapM_of_rereads {reader : Wire → Option Datum} {items : List Datum} {wires : List Wire}
    (each : ∀ item ∈ items, Rereads reader item)
    (written : itemsToWire .numbered items = .ok wires) :
    wires.mapM reader = some items ∧ Wire.itemsFit wires = true ∧ wires.length = items.length := by
  induction items generalizing wires with
  | nil =>
    cases written
    exact ⟨rfl, rfl, rfl⟩
  | cons item rest hypothesis =>
    rcases itemsToWire_cons written with ⟨first, others, firstWritten, othersWritten, rfl⟩
    have kept := each item List.mem_cons_self first firstWritten
    have parts := hypothesis (fun other member => each other (List.mem_cons_of_mem _ member))
      othersWritten
    refine ⟨?_, ?_, by simp [parts.2.2]⟩
    · rw [List.mapM_cons, kept.1, parts.1]
      rfl
    · rw [Wire.itemsFit, kept.2, parts.2.1]
      rfl

theorem steady_list {item : Schema} (steady : Steady item.ofWire?) :
    Steady (list item).ofWire? := by
  intro value datum fits read
  cases value <;> try cases read
  rename_i values
  rcases Bool.and_eq_true_iff.mp fits with ⟨few, valuesFit⟩
  rw [ofWire?_list] at read
  rcases Option.map_eq_some_iff.mp read with ⟨items, itemsRead, rfl⟩
  rcases mapM_spec itemsRead with ⟨count, sources⟩
  have each : ∀ made ∈ items, Rereads item.ofWire? made := by
    intro made member
    rcases sources made member with ⟨source, listed, sourceRead⟩
    exact steady source made (Wire.itemsFit_iff.mp valuesFit source listed) sourceRead
  intro data written
  rw [toWire] at written
  rcases exists_of_map_eq_ok written with ⟨wires, wiresWritten, rfl⟩
  rcases mapM_of_rereads each wiresWritten with ⟨back, wiresFit, same⟩
  rw [ofWire?_list, back]
  refine ⟨rfl, ?_⟩
  rw [Wire.lengthsFit, wiresFit, same, count]
  simpa using few

/-! ## Maps -/

theorem mem_insertEntry {key : String} {datum : Datum} {entries : List (String × Datum)}
    {entry : String × Datum} (member : entry ∈ insertEntry key datum entries) :
    entry = (key, datum) ∨ entry ∈ entries := by
  induction entries with
  | nil => simpa [insertEntry] using member
  | cons first rest hypothesis =>
    rcases first with ⟨other, item⟩
    rw [insertEntry] at member
    split at member
    · simpa using member
    · split at member
      · rcases List.mem_cons.mp member with same | there
        · exact .inl same
        · exact .inr (List.mem_cons_of_mem _ there)
      · rcases List.mem_cons.mp member with same | there
        · exact .inr (by simp [same])
        · exact (hypothesis there).imp_right (List.mem_cons_of_mem _)

theorem length_insertEntry_le (key : String) (datum : Datum) (entries : List (String × Datum)) :
    (insertEntry key datum entries).length ≤ entries.length + 1 := by
  induction entries with
  | nil => simp [insertEntry]
  | cons first rest hypothesis =>
    rcases first with ⟨other, item⟩
    rw [insertEntry]
    split
    · simp
    · split
      · simp
      · simpa using hypothesis

theorem ascending_insertEntry (key : String) (datum : Datum) {entries : List (String × Datum)}
    (ascending : entries.Pairwise fun first second => first.1 < second.1) :
    (insertEntry key datum entries).Pairwise fun first second => first.1 < second.1 := by
  induction entries with
  | nil => simp [insertEntry]
  | cons first rest hypothesis =>
    rcases first with ⟨other, item⟩
    rcases List.pairwise_cons.mp ascending with ⟨least, inner⟩
    rw [insertEntry]
    split
    · next before =>
      apply List.pairwise_cons.mpr
      refine ⟨?_, ascending⟩
      intro entry member
      rcases List.mem_cons.mp member with rfl | there
      · exact before
      · exact String.lt_trans before (least entry there)
    · next notBefore =>
      split
      · next same =>
        subst same
        exact List.pairwise_cons.mpr ⟨least, inner⟩
      · next different =>
        apply List.pairwise_cons.mpr
        refine ⟨?_, hypothesis inner⟩
        intro entry member
        rcases mem_insertEntry member with rfl | there
        · by_contra after
          exact different (String.le_antisymm (String.not_lt.mp after) (String.not_lt.mp notBefore))
        · exact least entry there

/-- Putting entries in order keeps at most what is there, in ascending order. -/
theorem foldl_insertEntry_spec (pairs start : List (String × Datum))
    (ascending : start.Pairwise fun first second => first.1 < second.1) :
    ∃ sorted, pairs.foldl (fun sorted (key, datum) => insertEntry key datum sorted) start = sorted ∧
      (sorted.Pairwise fun first second => first.1 < second.1) ∧
      sorted.length ≤ start.length + pairs.length ∧
      ∀ entry ∈ sorted, entry ∈ start ∨ entry ∈ pairs := by
  induction pairs generalizing start with
  | nil => exact ⟨start, rfl, ascending, Nat.le_refl _, fun _ => Or.inl⟩
  | cons pair rest hypothesis =>
    rcases pair with ⟨key, datum⟩
    rcases hypothesis (insertEntry key datum start) (ascending_insertEntry key datum ascending)
      with ⟨sorted, made, inOrder, few, sources⟩
    have grown := length_insertEntry_le key datum start
    refine ⟨sorted, made, inOrder, ?_, ?_⟩
    · rw [List.length_cons]
      omega
    · intro entry member
      rcases sources entry member with inserted | later
      · exact (mem_insertEntry inserted).elim (fun same => .inr (by simp [same])) .inl
      · exact .inr (List.mem_cons_of_mem _ later)

theorem mapM_entries_of_rereads {reader : Wire → Option Datum} {entries : List (String × Datum)}
    {wires : List (Wire × Wire)}
    (each : ∀ entry ∈ entries, (Bytes.utf8 entry.1).length < 0x100000000 ∧ Rereads reader entry.2)
    (written : entriesToWire .numbered entries = .ok wires) :
    (wires.mapM fun (key, value) => do
        let key ← textOfWire? key
        let value ← reader value
        return (key, value)) = some entries ∧
      Wire.entriesFit wires = true ∧ wires.length = entries.length := by
  induction entries generalizing wires with
  | nil =>
    cases written
    exact ⟨rfl, rfl, rfl⟩
  | cons entry rest hypothesis =>
    rcases entry with ⟨key, item⟩
    rcases entriesToWire_cons written with ⟨first, others, firstWritten, othersWritten, rfl⟩
    rcases each (key, item) List.mem_cons_self with ⟨short, rereads⟩
    have kept := rereads first firstWritten
    have parts := hypothesis (fun other member => each other (List.mem_cons_of_mem _ member))
      othersWritten
    refine ⟨?_, ?_, by simp [parts.2.2]⟩
    · rw [List.mapM_cons, parts.1]
      dsimp only
      rw [kept.1]
      rfl
    · rw [Wire.entriesFit, kept.2, parts.2.1, Wire.lengthsFit, decide_eq_true short]
      rfl

/-- A text is as long as what it was read from. -/
theorem short_of_textOfWire? {value : Wire} {text : String} (fits : value.lengthsFit = true)
    (read : textOfWire? value = some text) : (Bytes.utf8 text).length < 0x100000000 := by
  cases value with
  | str other =>
    cases read
    exact of_decide_eq_true fits
  | bin bytes =>
    rw [Bytes.utf8_of_text? read]
    exact of_decide_eq_true fits
  | _ => cases read

theorem steady_map {item : Schema} (steady : Steady item.ofWire?) : Steady (map item).ofWire? := by
  intro value datum fits read
  cases value <;> try cases read
  rename_i entries
  rcases Bool.and_eq_true_iff.mp fits with ⟨few, entriesFit⟩
  rw [ofWire?_map] at read
  rcases Option.map_eq_some_iff.mp read with ⟨pairs, pairsRead, rfl⟩
  rcases mapM_spec pairsRead with ⟨count, sources⟩
  rcases foldl_insertEntry_spec pairs [] List.Pairwise.nil with
    ⟨sorted, made, inOrder, fewer, members⟩
  rw [mapDatum, made]
  have each : ∀ entry ∈ sorted,
      (Bytes.utf8 entry.1).length < 0x100000000 ∧ Rereads item.ofWire? entry.2 := by
    rintro ⟨key, inner⟩ member
    rcases members _ member with impossible | listed
    · cases impossible
    · rcases sources _ listed with ⟨⟨keyWire, valueWire⟩, source, entryRead⟩
      have entryFits := Wire.entriesFit_iff.mp entriesFit _ source
      rcases Option.bind_eq_some_iff.mp entryRead with ⟨text, keyRead, later⟩
      rcases Option.bind_eq_some_iff.mp later with ⟨found, valueRead, same⟩
      cases same
      exact ⟨short_of_textOfWire? entryFits.1 keyRead, steady _ _ entryFits.2 valueRead⟩
  intro data written
  rw [toWire] at written
  rcases exists_of_map_eq_ok written with ⟨wires, wiresWritten, rfl⟩
  rcases mapM_entries_of_rereads each wiresWritten with ⟨back, wiresFit, same⟩
  rw [ofWire?_map, back, Option.map_some, mapDatum_of_ascending (decide_eq_true inOrder)]
  refine ⟨rfl, ?_⟩
  have short : wires.length < 0x100000000 := by
    have bound : entries.length < 0x100000000 := of_decide_eq_true few
    rw [List.length_nil] at fewer
    omega
  rw [Wire.lengthsFit, wiresFit, decide_eq_true short]
  rfl

/-! ## Tuples and records -/

theorem readEach_of_rereads {readers : List (Wire → Option Datum)} {items : List Datum}
    {wires : List Wire} (each : List.Forall₂ Rereads readers items)
    (written : itemsToWire .numbered items = .ok wires) :
    readEach readers wires = some items ∧ Wire.itemsFit wires = true ∧
      wires.length = readers.length := by
  induction each generalizing wires with
  | nil =>
    cases written
    exact ⟨rfl, rfl, rfl⟩
  | cons rereads _ hypothesis =>
    rcases itemsToWire_cons written with ⟨first, others, firstWritten, othersWritten, rfl⟩
    have kept := rereads first firstWritten
    have parts := hypothesis othersWritten
    refine ⟨?_, ?_, by simp [parts.2.2]⟩
    · rw [readEach, kept.1, parts.1]
      rfl
    · rw [Wire.itemsFit, kept.2, parts.2.1]
      rfl

theorem rereads_readEach {readers : List (Wire → Option Datum)} {values : List Wire}
    {items : List Datum} (steady : ∀ reader ∈ readers, Steady reader)
    (fits : ∀ value ∈ values, value.lengthsFit = true)
    (read : readEach readers values = some items) :
    List.Forall₂ Rereads readers items ∧ values.length = readers.length := by
  induction readers generalizing values items with
  | nil =>
    cases values with
    | nil =>
      cases read
      exact ⟨.nil, rfl⟩
    | cons _ _ => cases read
  | cons reader readers hypothesis =>
    cases values with
    | nil => cases read
    | cons value rest =>
      rcases Option.bind_eq_some_iff.mp read with ⟨first, firstRead, later⟩
      rcases Option.bind_eq_some_iff.mp later with ⟨others, othersRead, same⟩
      cases same
      have parts := hypothesis
        (fun other member => steady other (List.mem_cons_of_mem _ member))
        (fun other member => fits other (List.mem_cons_of_mem _ member)) othersRead
      refine ⟨.cons ?_ parts.1, by simp [parts.2]⟩
      exact steady reader List.mem_cons_self value first (fits value List.mem_cons_self) firstRead

theorem steady_tuple {items : List Schema} (steady : ∀ reader ∈ readersOf items, Steady reader) :
    Steady (tuple items).ofWire? := by
  intro value datum fits read
  cases value <;> try cases read
  rename_i values
  rcases Bool.and_eq_true_iff.mp fits with ⟨few, valuesFit⟩
  rw [ofWire?_tuple] at read
  rcases Option.map_eq_some_iff.mp read with ⟨made, madeRead, rfl⟩
  rcases rereads_readEach steady (Wire.itemsFit_iff.mp valuesFit) madeRead with ⟨each, count⟩
  intro data written
  rw [toWire] at written
  rcases exists_of_map_eq_ok written with ⟨wires, wiresWritten, rfl⟩
  rcases readEach_of_rereads each wiresWritten with ⟨back, wiresFit, same⟩
  rw [ofWire?_tuple, back]
  refine ⟨rfl, ?_⟩
  rw [Wire.lengthsFit, wiresFit, same, ← count]
  simpa using few

/-- Whether the readers of fields are steady, and keep what stands for a field that
is missing. -/
def SteadyFields (fields : List (Field (Wire → Option Datum))) : Prop :=
  ∀ field ∈ fields, Steady field.read ∧ (field.mayBeMissing = true → Rereads field.read .absent)

/-- Whether what was found is kept by the fields that it was found for. -/
def FoundKept (fields : List (Field (Wire → Option Datum))) (found : List (Nat × Datum)) : Prop :=
  ∀ position datum, found.lookup position = some datum → ∀ field,
    fields[position]? = some field → Rereads field.read datum

theorem foundKept_readFields {fields : List (Field (Wire → Option Datum))}
    (steady : SteadyFields fields) {entries : List (Wire × Wire)} {found all : List (Nat × Datum)}
    (fits : ∀ entry ∈ entries, entry.1.lengthsFit = true ∧ entry.2.lengthsFit = true)
    (kept : FoundKept fields found) (read : readFields fields entries found = some all) :
    FoundKept fields all := by
  induction entries generalizing found with
  | nil =>
    cases read
    exact kept
  | cons entry rest hypothesis =>
    rcases entry with ⟨key, value⟩
    have others := fun other member => fits other (List.mem_cons_of_mem _ member)
    rw [readFields] at read
    rcases Option.bind_eq_some_iff.mp read with ⟨label, -, later⟩
    cases label with
    | unknown => exact hypothesis others kept later
    | known position =>
      rcases Option.bind_eq_some_iff.mp later with ⟨field, here, last⟩
      split at last
      · cases last
      · rcases Option.bind_eq_some_iff.mp last with ⟨datum, valueRead, more⟩
        refine hypothesis others ?_ more
        intro wanted other looked wantedField there
        rw [List.lookup_cons] at looked
        split at looked
        · next same =>
          cases looked
          rw [eq_of_beq same, here] at there
          cases there
          have member := List.mem_of_getElem? here
          exact (steady field member).1 value datum (fits _ List.mem_cons_self).2 valueRead
        · exact kept wanted other looked wantedField there

theorem rereads_gather {found : List (Nat × Datum)} (fields : List (Field (Wire → Option Datum)))
    (position : Nat) {items : List Datum} (steady : SteadyFields fields)
    (kept : ∀ index datum, found.lookup (position + index) = some datum → ∀ field,
      fields[index]? = some field → Rereads field.read datum)
    (gathered : gather found position fields = some items) :
    List.Forall₂ Rereads (fields.map Field.read) items := by
  induction fields generalizing position items with
  | nil =>
    cases gathered
    exact .nil
  | cons field rest hypothesis =>
    have laterSteady : SteadyFields rest :=
      fun other member => steady other (List.mem_cons_of_mem _ member)
    have laterKept : ∀ index datum, found.lookup (position + 1 + index) = some datum →
        ∀ other, rest[index]? = some other → Rereads other.read datum := by
      intro index datum looked other there
      rw [Nat.add_right_comm] at looked
      exact kept (index + 1) datum looked other there
    simp only [gather, Option.bind_eq_bind, Option.bind_some, Option.bind_none] at gathered
    split at gathered
    · next datum looked =>
      rcases Option.bind_eq_some_iff.mp gathered with ⟨others, othersGathered, same⟩
      cases same
      exact .cons (kept 0 datum looked field rfl)
        (hypothesis (position + 1) laterSteady laterKept othersGathered)
    · split at gathered
      · next missing =>
        rcases Option.bind_eq_some_iff.mp gathered with ⟨others, othersGathered, same⟩
        cases same
        exact .cons ((steady field List.mem_cons_self).2 missing)
          (hypothesis (position + 1) laterSteady laterKept othersGathered)
      · cases gathered

theorem rereads_readRecord {fields : List (Field (Wire → Option Datum))}
    (steady : SteadyFields fields) {value : Wire} (fits : value.lengthsFit = true)
    {items : List Datum} (read : readRecord fields value = some items) :
    List.Forall₂ Rereads (fields.map Field.read) items := by
  cases value with
  | array values =>
    have each : ∀ reader ∈ fields.map Field.read, Steady reader := by
      intro reader member
      rcases List.mem_map.mp member with ⟨field, listed, rfl⟩
      exact (steady field listed).1
    exact (rereads_readEach each
      (Wire.itemsFit_iff.mp (Bool.and_eq_true_iff.mp fits).2) read).1
  | map entries =>
    rcases Option.bind_eq_some_iff.mp read with ⟨found, foundRead, gathered⟩
    have entriesFit := Wire.entriesFit_iff.mp (Bool.and_eq_true_iff.mp fits).2
    have start : FoundKept fields [] := fun _ _ looked => by cases looked
    have kept := foundKept_readFields steady entriesFit start foundRead
    apply rereads_gather fields 0 steady _ gathered
    intro index datum looked
    rw [Nat.zero_add] at looked
    exact kept index datum looked
  | _ => cases read

/-- All fields of a record together make an array that is read as that record. -/
theorem readRecord_of_rereads {fields : List (Field (Wire → Option Datum))}
    (few : fields.length < 0x100000000) {items : List Datum}
    (each : List.Forall₂ Rereads (fields.map Field.read) items) {wires : List Wire}
    (written : itemsToWire .numbered items = .ok wires) :
    readRecord fields (.array wires) = some items ∧ (Wire.array wires).lengthsFit = true := by
  rcases readEach_of_rereads each written with ⟨back, wiresFit, same⟩
  refine ⟨back, ?_⟩
  rw [List.length_map] at same
  rw [Wire.lengthsFit, wiresFit, same, decide_eq_true few]
  rfl

theorem length_fieldsOf (fields : List (String × Schema)) :
    (fieldsOf fields).length = fields.length := by
  induction fields with
  | nil => rfl
  | cons field rest hypothesis =>
    rcases field with ⟨label, item⟩
    simp [fieldsOf, hypothesis]

theorem steady_record {name : String} {fields : List (String × Schema)}
    (few : fields.length < 0x100000000) (steady : SteadyFields (fieldsOf fields)) :
    Steady (record name fields).ofWire? := by
  intro value datum fits read
  rw [ofWire?_record] at read
  rcases Option.map_eq_some_iff.mp read with ⟨items, itemsRead, rfl⟩
  intro data written
  rw [toWire] at written
  rcases exists_of_map_eq_ok written with ⟨wires, wiresWritten, rfl⟩
  rw [← length_fieldsOf] at few
  rcases readRecord_of_rereads few (rereads_readRecord steady fits itemsRead) wiresWritten with
    ⟨back, wiresFit⟩
  rw [ofWire?_record, back]
  exact ⟨rfl, wiresFit⟩

/-! ## Unions -/

theorem steady_readUnit : SteadyPayload readUnit := by
  intro given payload _ read wires written index label
  have nothing : payload = .none := by
    rw [readUnit.eq_def] at read
    split at read <;> cases read <;> rfl
  subst nothing
  cases written
  exact ⟨.array [], rfl, rfl, rfl⟩

theorem steady_readSingle {reader : Wire → Option Datum} (steady : Steady reader) :
    SteadyPayload (readSingle reader) := by
  intro given payload fits read
  have made : ∃ value item, value.lengthsFit = true ∧ reader value = some item ∧
      payload = .one item := by
    rw [readSingle.eq_def] at read
    split at read
    · cases read
    · next value =>
      rcases Option.map_eq_some_iff.mp read with ⟨item, itemRead, rfl⟩
      have valueFits := fits _ rfl
      simp only [Wire.lengthsFit, Wire.itemsFit, Bool.and_true, Bool.and_eq_true] at valueFits
      exact ⟨value, item, valueFits.2, itemRead, rfl⟩
    · cases read
    · next value _ _ =>
      rcases Option.map_eq_some_iff.mp read with ⟨item, itemRead, rfl⟩
      exact ⟨value, item, fits _ rfl, itemRead, rfl⟩
  rcases made with ⟨value, item, valueFits, itemRead, rfl⟩
  intro wires written index label
  rcases exists_of_map_eq_ok written with ⟨data, dataWritten, rfl⟩
  have kept := steady value item valueFits itemRead data dataWritten
  refine ⟨.array [data], rfl, ?_, ?_⟩
  · rw [readSingle, kept.1]
    rfl
  · simp [Wire.lengthsFit, Wire.itemsFit, kept.2]

theorem steady_readTuple {readers : List (Wire → Option Datum)}
    (steady : ∀ reader ∈ readers, Steady reader) : SteadyPayload (readTuple readers) := by
  intro given payload fits read
  rw [readTuple.eq_def] at read
  split at read
  · next values =>
    rcases Option.map_eq_some_iff.mp read with ⟨items, itemsRead, rfl⟩
    rcases Bool.and_eq_true_iff.mp (fits _ rfl) with ⟨few, valuesFit⟩
    rcases rereads_readEach steady (Wire.itemsFit_iff.mp valuesFit) itemsRead with ⟨each, count⟩
    intro wires written index label
    rcases exists_of_map_eq_ok written with ⟨data, dataWritten, rfl⟩
    rcases readEach_of_rereads each dataWritten with ⟨back, dataFit, same⟩
    refine ⟨.array data, rfl, ?_, ?_⟩
    · rw [readTuple, back]
      rfl
    · rw [Wire.lengthsFit, dataFit, same, ← count]
      simpa using few
  · cases read

theorem steady_readLabelled {fields : List (String × Schema)} (few : fields.length < 0x100000000)
    (steady : SteadyFields (fieldsOf fields)) : SteadyPayload (readLabelled (fieldsOf fields)) := by
  intro given payload fits read
  rw [readLabelled.eq_def] at read
  split at read
  · next value =>
    rcases Option.map_eq_some_iff.mp read with ⟨items, itemsRead, rfl⟩
    intro wires written index label
    rcases exists_of_map_eq_ok written with ⟨data, dataWritten, rfl⟩
    rw [← length_fieldsOf] at few
    have each := rereads_readRecord steady (fits _ rfl) itemsRead
    rcases readRecord_of_rereads few each dataWritten with ⟨back, dataFit⟩
    refine ⟨.array data, rfl, ?_, dataFit⟩
    rw [readLabelled, back]
    rfl
  · cases read

theorem steady_union {name : String} {cases : List (String × Case Schema)}
    (steady : ∀ (index : Nat) (label : String) (carried : Case Schema),
      cases[index]? = some (label, carried) → SteadyPayload (caseOf carried)) :
    Steady (union name cases).ofWire? := by
  intro value datum fits read
  rw [ofWire?_union] at read
  rcases readVariant_spec read with
    ⟨number, given, label, reader, payload, rfl, found, payloadRead, rfl⟩
  have small : number.val.toNat < 0x10000000000000000 := by
    have bound := number.lt_highest
    omega
  have givenFits : ∀ body ∈ given, body.lengthsFit = true := by
    intro body here
    apply Wire.itemsFit_iff.mp (Bool.and_eq_true_iff.mp fits).2 body
    simp [Option.mem_def.mp here]
  rw [getElem?_casesOf] at found
  rcases Option.map_eq_some_iff.mp found with ⟨⟨_, carried⟩, listed, same⟩
  cases same
  intro data written
  rw [toWire] at written
  rcases exists_of_map_eq_ok written with ⟨wires, wiresWritten, rfl⟩
  rcases steady _ label carried listed given payload givenFits payloadRead wires wiresWritten
    number.val.toNat label with ⟨body, shape, back, bodyFits⟩
  rw [ofWire?_union, shape, readVariant_numbered body listed small, back]
  refine ⟨rfl, ?_⟩
  simp [Wire.lengthsFit, Wire.itemsFit, Wire.ofIndex, bodyFits]

/-! ## Schemas -/

theorem rereads_absent_of_mayBeMissing {schema : Schema} (missing : schema.mayBeMissing = true) :
    Rereads schema.ofWire? .absent := by
  cases schema with
  | option item => exact rereads_of_written .nil (by rw [toWire]) rfl rfl
  | _ => cases missing

theorem steady_text : Steady text.ofWire? := by
  intro value datum fits read
  rcases Option.map_eq_some_iff.mp read with ⟨made, textRead, rfl⟩
  exact rereads_of_written (.str made) (by rw [toWire]) rfl
    (decide_eq_true (short_of_textOfWire? fits textRead))

theorem steady_char : Steady char.ofWire? := by
  intro value datum fits read
  cases value <;> try cases read
  rename_i made
  rw [ofWire?_char] at read
  rcases Option.map_eq_some_iff.mp read with ⟨character, only, rfl⟩
  have whole : character.toString = made := by
    rw [onlyChar?] at only
    split at only
    · next listed =>
      cases only
      rw [← String.toList_inj, listed]
      simp
    · cases only
  rw [← whole] at fits
  refine rereads_of_written (.str character.toString) (by rw [toWire]) ?_ fits
  rw [ofWire?_char, onlyChar?_toString]
  rfl

theorem steady_int (kind : IntKind) : Steady (int kind).ofWire? := by
  intro value datum fits read
  cases value <;> try cases read
  rename_i made
  change intDatum? kind made = some datum at read
  rw [intDatum?] at read
  split at read
  · next holds =>
    cases read
    exact rereads_of_written (.int made) (by rw [toWire]) (if_pos holds) rfl
  · cases read

theorem steady_guarded (name : String) : Steady (guarded name).ofWire? := by
  intro value datum fits read
  cases value <;> try cases read
  rename_i made
  change (if IntKind.i64.holds made.val then some (Datum.guarded made) else none) =
    some datum at read
  split at read
  · next holds =>
    cases read
    intro data written
    rw [toWire] at written
    split at written
    · cases written
    · cases written
      exact ⟨if_pos holds, rfl⟩
  · cases read

mutual

/-- Whatever a schema makes of a value, it makes again of what that is written as. -/
theorem steady_ofWire? : ∀ schema : Schema, schema.isCountable = true → Steady schema.ofWire?
  | .bool, _ | .f32, _ | .f64, _ | .unit, _ => by
    intro value datum fits read
    cases value <;> cases read <;> exact rereads_of_written _ (by rw [toWire]) rfl rfl
  | .int kind, _ => steady_int kind
  | .char, _ => steady_char
  | .text, _ => steady_text
  | .guarded name, _ => steady_guarded name
  | .dyn, _ => by
    intro value datum fits read
    cases read
    exact rereads_of_written value (by rw [toWire, dynToWire]; rfl) rfl fits
  | .option item, countable => steady_option (steady_ofWire? item countable)
  | .list item, countable => steady_list (steady_ofWire? item countable)
  | .map item, countable => steady_map (steady_ofWire? item countable)
  | .tuple items, countable => steady_tuple (steady_readersOf items countable)
  | .record name fields, countable =>
    steady_record (of_decide_eq_true (Bool.and_eq_true_iff.mp countable).1)
      (steady_fieldsOf fields (Bool.and_eq_true_iff.mp countable).2)
  | .union name cases, countable => steady_union (steady_casesOf cases countable)

theorem steady_readersOf : ∀ schemas : List Schema, itemsCountable schemas = true →
    ∀ reader ∈ readersOf schemas, Steady reader
  | [], _ => by simp [readersOf]
  | schema :: rest, countable => by
    rcases Bool.and_eq_true_iff.mp countable with ⟨head, tail⟩
    intro reader member
    rcases List.mem_cons.mp member with rfl | there
    · exact steady_ofWire? schema head
    · exact steady_readersOf rest tail reader there

theorem steady_fieldsOf : ∀ fields : List (String × Schema), fieldsCountable fields = true →
    SteadyFields (fieldsOf fields)
  | [], _ => by simp [fieldsOf, SteadyFields]
  | (label, schema) :: rest, countable => by
    rcases Bool.and_eq_true_iff.mp countable with ⟨head, tail⟩
    intro field member
    rcases List.mem_cons.mp member with rfl | there
    · exact ⟨steady_ofWire? schema head, rereads_absent_of_mayBeMissing⟩
    · exact steady_fieldsOf rest tail field there

theorem steady_casesOf : ∀ cases : List (String × Case Schema), casesCountable cases = true →
    ∀ (index : Nat) (label : String) (carried : Case Schema),
      cases[index]? = some (label, carried) → SteadyPayload (caseOf carried)
  | [], _ => by
    intro index label carried found
    cases found
  | (first, body) :: rest, countable => by
    rcases Bool.and_eq_true_iff.mp countable with ⟨head, tail⟩
    intro index label carried found
    cases index with
    | zero =>
      cases found
      exact steady_caseOf body head
    | succ index => exact steady_casesOf rest tail index label carried found

theorem steady_caseOf : ∀ carried : Case Schema, caseCountable carried = true →
    SteadyPayload (caseOf carried)
  | .unit, _ => steady_readUnit
  | .single body, countable => steady_readSingle (steady_ofWire? body countable)
  | .tuple bodies, countable => steady_readTuple (steady_readersOf bodies countable)
  | .record fields, countable =>
    steady_readLabelled (of_decide_eq_true (Bool.and_eq_true_iff.mp countable).1)
      (steady_fieldsOf fields (Bool.and_eq_true_iff.mp countable).2)

end

end Schema
end TypedStore
