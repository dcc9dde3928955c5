import Mathlib.Data.List.Nodup
import TypedStore.Proofs.Wire.RoundTrip
import TypedStore.Schema.Direct

/-!
# Readers that know where to stop

A reader of data straight from bytes is described by `Consumes`: what it takes, what it
makes of it, and how many levels of nesting it needs to do so.  It takes nothing of what
follows, whatever that is, and with too few levels it makes nothing at all, so the number
of levels is exact.

Readers that run one after another need as many levels as the one that needs most, and a
reader of a collection needs one more than its contents.  From these two facts there is
one lemma for each kind of collection and each kind of variant.

Labels are looked up by their bytes.  Two variants of one union must not share a label, or
the first of them would be read in place of the second.
-/

namespace TypedStore
namespace Schema

/-- Whether a reader that may open enough levels takes exactly `front` and makes
`value` of it, and with fewer levels makes nothing. -/
def Consumes {α : Type} (reader : Nat → Bytes → Option (α × Bytes)) (need : Nat) (front : Bytes)
    (value : α) : Prop :=
  ∀ levels rest, reader levels (front ++ rest) = if need ≤ levels then some (value, rest) else none

section Readers

variable {α β γ : Type} {first : Nat → Bytes → Option (α × Bytes)}
  {second : Nat → Bytes → Option (β × Bytes)} {reader : Nat → Bytes → Option (γ × Bytes)}
  {need later : Nat} {front back : Bytes} {value : α} {other : β}

/-- Without contents there is nothing to take, and no level is needed. -/
theorem consumes_nothing {made : γ}
    (ends : ∀ levels bytes, reader levels bytes = some (made, bytes)) :
    Consumes reader 0 [] made := by
  intro levels rest
  rw [ends, if_pos (Nat.zero_le levels), List.nil_append]

/-- What is read by its head alone needs no level. -/
theorem consumes_byHead {test : Wire.Head → Option Datum} (head : Wire.Head) {datum : Datum}
    (begins : ∀ rest, Wire.readHead (front ++ rest) = some (head, rest))
    (made : test head = some datum) : Consumes (fun _ => readByHead test) 0 front datum := by
  intro levels rest
  simp [readByHead, begins, made]

/-- One reader after another. -/
theorem Consumes.both (takes : Consumes first need front value)
    (thenTakes : Consumes second later back other) (join : α → β → γ)
    (joined : ∀ levels bytes, reader levels bytes =
      (first levels bytes).bind fun left =>
        (second levels left.2).bind fun right => some (join left.1 right.1, right.2)) :
    Consumes reader (max need later) (front ++ back) (join value other) := by
  intro levels rest
  rw [joined, List.append_assoc, takes]
  by_cases enough : need ≤ levels
  · rw [if_pos enough, Option.bind_some, thenTakes]
    by_cases enoughLater : later ≤ levels
    · rw [if_pos enoughLater, if_pos (Nat.max_le.mpr ⟨enough, enoughLater⟩), Option.bind_some]
    · rw [if_neg enoughLater, if_neg fun all => enoughLater (Nat.max_le.mp all).2, Option.bind_none]
  · rw [if_neg enough, if_neg fun all => enough (Nat.max_le.mp all).1, Option.bind_none]

/-- A reader whose result is made into something else. -/
theorem Consumes.map (takes : Consumes first need front value) (make : α → γ)
    (mapped : ∀ levels bytes, reader levels bytes =
      (first levels bytes).map fun found => (make found.1, found.2)) :
    Consumes reader need front (make value) := by
  intro levels rest
  rw [mapped, takes]
  split <;> rfl

/-- A reader of a collection opens one level for its contents. -/
theorem Consumes.opened {head : Wire.Head} {header : Bytes}
    (takes : Consumes first need front value)
    (begins : ∀ rest, Wire.readHead (header ++ rest) = some (head, rest)) (make : α → γ)
    (closed : ∀ bytes rest, Wire.readHead bytes = some (head, rest) → reader 0 bytes = none)
    (opens : ∀ levels bytes rest, Wire.readHead bytes = some (head, rest) →
      reader (levels + 1) bytes = (first levels rest).map fun found => (make found.1, found.2)) :
    Consumes reader (need + 1) (header ++ front) (make value) := by
  intro levels rest
  rw [List.append_assoc]
  cases levels with
  | zero => rw [closed _ _ (begins _), if_neg (Nat.not_succ_le_zero need)]
  | succ levels =>
    rw [opens _ _ _ (begins _), takes]
    simp only [Nat.add_le_add_iff_right]
    split <;> rfl

end Readers

/-! ## The head of an option -/

/-- What is not nil does not begin like nil. -/
theorem exists_readHead_write {data : Wire} (fits : data.lengthsFit = true) (present : data ≠ .nil)
    (rest : Bytes) : ∃ head after, Wire.readHead (data.write ++ rest) = some (head, after) ∧
      head ≠ .nil := by
  cases data with
  | nil => exact absurd rfl present
  | bool value => exact ⟨.bool value, rest, by cases value <;> rfl, by simp⟩
  | int value => exact ⟨_, rest, Wire.readHead_writeInt value rest, by simp⟩
  | f32 bits => exact ⟨_, rest, Wire.readHead_f32 bits rest, by simp⟩
  | f64 bits => exact ⟨_, rest, Wire.readHead_f64 bits rest, by simp⟩
  | str text =>
    refine ⟨.str (Bytes.utf8 text), rest, ?_, by simp⟩
    rw [Wire.write, Wire.writeText, List.append_assoc]
    exact Wire.readHead_textHeader _ _ (of_decide_eq_true fits)
  | bin bytes =>
    refine ⟨.bin bytes, rest, ?_, by simp⟩
    rw [Wire.write, List.append_assoc]
    exact Wire.readHead_binHeader _ _ (of_decide_eq_true fits)
  | array items =>
    refine ⟨.array items.length, Wire.writeItems items ++ rest, ?_, by simp⟩
    rw [Wire.write, List.append_assoc]
    exact Wire.readHead_arrayHeader _ _ (of_decide_eq_true (Bool.and_eq_true_iff.mp fits).1)
  | map entries =>
    refine ⟨.map entries.length, Wire.writeEntries entries ++ rest, ?_, by simp⟩
    rw [Wire.write, List.append_assoc]
    exact Wire.readHead_mapHeader _ _ (of_decide_eq_true (Bool.and_eq_true_iff.mp fits).1)
  | ext type data =>
    refine ⟨.ext type data, rest, ?_, by simp⟩
    rw [Wire.write, List.append_assoc]
    exact Wire.readHead_extHeader type data rest (of_decide_eq_true fits)

theorem readDirect_option {item : Schema} {levels : Nat} {bytes after : Bytes} {head : Wire.Head}
    (begins : Wire.readHead bytes = some (head, after)) (present : head ≠ .nil) :
    readDirect (.option item) levels bytes =
      (readDirect item levels bytes).map fun found => (.present found.1, found.2) := by
  rw [readDirect]
  dsimp only
  rw [begins]
  cases head with
  | nil => exact absurd rfl present
  | _ =>
    change (readDirect item levels bytes).bind _ = _
    cases readDirect item levels bytes <;> rfl

/-! ## Components -/

theorem length_componentsOf (schemas : List Schema) (levels : Nat) :
    (componentsOf schemas levels).length = schemas.length := by
  induction schemas with
  | nil => rfl
  | cons schema rest hypothesis => simp [componentsOf, hypothesis]

theorem read_directFieldsOf (fields : List (String × Schema)) (levels : Nat) :
    (directFieldsOf fields levels).map Field.read = componentsOf (fields.map Prod.snd) levels := by
  induction fields with
  | nil => rfl
  | cons field rest hypothesis =>
    rcases field with ⟨label, item⟩
    simp [directFieldsOf, componentsOf, hypothesis]

theorem label_directCasesOf (cases : List (String × Case Schema)) (levels : Nat) :
    (directCasesOf cases levels).map CaseReader.label = cases.map Prod.fst := by
  induction cases with
  | nil => rfl
  | cons first rest hypothesis =>
    rcases first with ⟨label, carried⟩
    have same : (directCaseOf label carried levels).label = label := by cases carried <;> rfl
    simp [directCasesOf, same, hypothesis]

theorem getElem?_directCasesOf (cases : List (String × Case Schema)) (levels index : Nat) :
    (directCasesOf cases levels)[index]? =
      cases[index]?.map fun (label, carried) => directCaseOf label carried levels := by
  induction cases generalizing index with
  | nil => simp [directCasesOf]
  | cons first rest hypothesis =>
    rcases first with ⟨label, carried⟩
    cases index with
    | zero => simp [directCasesOf]
    | succ index => simp [directCasesOf, hypothesis]

/-! ## Labels -/

/-- A label that is used once stands for its own place. -/
theorem labelOfBytes_utf8 {labels : List String} {index : Nat} {label : String}
    (distinct : labels.Nodup) (found : labels[index]? = some label) :
    labelOfBytes labels (Bytes.utf8 label) = .known index := by
  rcases List.getElem?_eq_some_iff.mp found with ⟨inside, here⟩
  have place : (labels.map Bytes.utf8).idxOf? (Bytes.utf8 label) = some index := by
    apply List.idxOf?_eq_some_iff.mpr
    refine ⟨by simpa using inside, by simp [here], ?_⟩
    intro earlier before same
    have equal : labels[earlier] = labels[index] := by
      apply Bytes.utf8_injective
      rw [here, ← same, List.getElem_map]
    exact absurd (distinct.getElem_inj_iff.mp equal) (Nat.ne_of_lt before)
  rw [labelOfBytes, place]

theorem readLabel_writeText {labels : List String} {index : Nat} {label : String}
    (distinct : labels.Nodup) (found : labels[index]? = some label)
    (short : (Bytes.utf8 label).length < 0x100000000) (rest : Bytes) :
    readLabel labels (Wire.writeText label ++ rest) = some (.known index, rest) := by
  rw [readLabel, Wire.writeText, List.append_assoc, Wire.readHead_textHeader _ _ short]
  simp [labelOfBytes_utf8 distinct found]

/-- How the key of a map is read. -/
def readKey (bytes : Bytes) : Option (String × Bytes) := do
  match ← Wire.readHead bytes with
  | (.str value, rest) => return (← Bytes.text? value, rest)
  | (.bin value, rest) => return (← Bytes.text? value, rest)
  | _ => none

theorem consumes_readKey {key : String} (short : (Bytes.utf8 key).length < 0x100000000) :
    Consumes (fun _ => readKey) 0 (Wire.writeText key) key := by
  intro levels rest
  change readKey (Wire.writeText key ++ rest) = _
  rw [readKey, Wire.writeText, List.append_assoc, Wire.readHead_textHeader _ _ short]
  simp [Bytes.text?_utf8]

/-! ## Collections -/

section Collections

variable {need : Nat} {front : Bytes}

theorem consumes_list {item : Schema} {length : Nat} {values : List Datum}
    (takes : Consumes (fun levels => Wire.readTimes (readDirect item levels) length) need front
      values) (few : length < 0x100000000) :
    Consumes (readDirect (.list item)) (need + 1) (Wire.arrayHeader length ++ front)
      (.list values) := by
  apply takes.opened (fun rest => Wire.readHead_arrayHeader length rest few) Datum.list
  · intro bytes rest begins
    rw [readDirect, readListDirect, begins]
    rfl
  · intro levels bytes rest begins
    rw [readDirect, readListDirect, begins]
    change (Wire.readTimes (readDirect item levels) length rest).bind _ = _
    cases Wire.readTimes (readDirect item levels) length rest <;> rfl

theorem consumes_map {item : Schema} {length : Nat} {entries : List (String × Datum)}
    (takes : Consumes (fun levels => Wire.readTimes (Wire.readPair readKey
      (readDirect item levels)) length) need front entries) (few : length < 0x100000000) :
    Consumes (readDirect (.map item)) (need + 1) (Wire.mapHeader length ++ front)
      (mapDatum entries) := by
  apply takes.opened (fun rest => Wire.readHead_mapHeader length rest few) mapDatum
  · intro bytes rest begins
    rw [readDirect, readMapDirect, begins]
    rfl
  · intro levels bytes rest begins
    rw [readDirect, readMapDirect, begins]
    change (Wire.readTimes (Wire.readPair readKey (readDirect item levels)) length rest).bind _ = _
    cases Wire.readTimes (Wire.readPair readKey (readDirect item levels)) length rest <;> rfl

theorem consumes_tuple {schemas : List Schema} {values : List Datum}
    (takes : Consumes (fun levels => readInOrder (componentsOf schemas levels)) need front values)
    (few : schemas.length < 0x100000000) :
    Consumes (fun levels => readTupleDirect levels (componentsOf schemas)) (need + 1)
      (Wire.arrayHeader schemas.length ++ front) values := by
  apply takes.opened (fun rest => Wire.readHead_arrayHeader schemas.length rest few) id
  · intro bytes rest begins
    rw [readTupleDirect, begins]
    rfl
  · intro levels bytes rest begins
    rw [readTupleDirect, begins]
    change readComponents (componentsOf schemas levels) (.array schemas.length) rest = _
    rw [readComponents, if_pos (length_componentsOf schemas levels).symm]
    exact Option.map_id'.symm

theorem consumes_record {fields : List (String × Schema)} {values : List Datum}
    (takes : Consumes (fun levels => readInOrder (componentsOf (fields.map Prod.snd) levels)) need
      front values) (few : (fields.map Prod.snd).length < 0x100000000) :
    Consumes (fun levels => readRecordDirect levels (directFieldsOf fields)) (need + 1)
      (Wire.arrayHeader (fields.map Prod.snd).length ++ front) values := by
  apply takes.opened (fun rest => Wire.readHead_arrayHeader _ rest few) id
  · intro bytes rest begins
    rw [readRecordDirect, begins]
    rfl
  · intro levels bytes rest begins
    rw [readRecordDirect, begins]
    change readComponents ((directFieldsOf fields levels).map Field.read)
      (.array (fields.map Prod.snd).length) rest = _
    rw [read_directFieldsOf, readComponents, if_pos (length_componentsOf _ levels).symm]
    exact Option.map_id'.symm

end Collections

/-! ## Unions -/

section Unions

variable {name : String} {cases : List (String × Case Schema)} {index : Nat} {label : String}
  {carried : Case Schema} (distinct : (cases.map Prod.fst).Nodup)
  (found : cases[index]? = some (label, carried))
  (short : (Bytes.utf8 label).length < 0x100000000)
include distinct found short

theorem readLabel_directCasesOf (levels : Nat) (rest : Bytes) :
    readLabel ((directCasesOf cases levels).map CaseReader.label)
      (Wire.writeText label ++ rest) = some (.known index, rest) := by
  rw [label_directCasesOf]
  apply readLabel_writeText distinct _ short
  rw [List.getElem?_map, found]
  rfl

/-- A variant that carries nothing is its bare label. -/
theorem consumes_label (bare : carried = .unit) :
    Consumes (readDirect (.union name cases)) 0 (Wire.writeText label)
      (.variant index label .none) := by
  intro levels rest
  have begins : Wire.readHead (Wire.writeText label ++ rest) =
      some (.str (Bytes.utf8 label), rest) := by
    rw [Wire.writeText, List.append_assoc, Wire.readHead_textHeader _ _ short]
  have known := readLabel_directCasesOf distinct found short levels rest
  have reader := getElem?_directCasesOf cases levels index
  rw [found, Option.map_some, bare] at reader
  rw [readDirect, readUnionDirect]
  simp [begins, known, reader, directCaseOf]

/-- Any other variant is an entry of its label and what it carries. -/
theorem consumes_labelled {need : Nat} {front : Bytes} {payload : Payload Datum}
    (takes : Consumes (fun levels => (directCaseOf label carried levels).read) need front payload) :
    Consumes (readDirect (.union name cases)) need
      (Wire.mapHeader 1 ++ (Wire.writeText label ++ front)) (.variant index label payload) := by
  intro levels rest
  have begins : Wire.readHead (Wire.mapHeader 1 ++ (Wire.writeText label ++ front) ++ rest) =
      some (.map 1, Wire.writeText label ++ (front ++ rest)) := by
    rw [List.append_assoc, List.append_assoc, Wire.readHead_mapHeader 1 _ (by decide)]
  have known := readLabel_directCasesOf distinct found short levels (front ++ rest)
  have reader := getElem?_directCasesOf cases levels index
  rw [found, Option.map_some] at reader
  have same : (directCaseOf label carried levels).label = label := by cases carried <;> rfl
  have read := takes levels rest
  dsimp only at read
  rw [readDirect, readUnionDirect]
  simp only [begins, known, reader, read, same, Option.bind_eq_bind, Option.bind_some, if_true]
  split <;> rfl

end Unions

end Schema
end TypedStore
