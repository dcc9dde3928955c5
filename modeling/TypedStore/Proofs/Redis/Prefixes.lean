import TypedStore.Proofs.Outcome
import TypedStore.Proofs.Redis.Isolation
import TypedStore.Proofs.Wire.Heads

/-!
# Prefixes that keep maps apart

A key of the server concerns two maps only if one prefix begins with the other
and the rest of it, with a key of the longer map behind it, is one whole key of
the shorter.  The rest begins with a character, and its first byte decides.  For
ASCII it is a whole small integer, for U+0080 to U+00FF a truth value, and from
U+0800 on a small negative integer: a key that begins with one of these ends with
it, and nothing is left for the longer map.

The characters from U+0100 to U+07FF begin with bytes that announce more to
come.  Such a prefix can clash, and `clashing_prefixes` shows one that does.
-/

namespace TypedStore

/-! ## Characters at the front of bytes -/

namespace Bytes

theorem eq_of_utf8EncodeChar_append {first second : Char} {rest other : Bytes}
    (same : String.utf8EncodeChar first ++ rest = String.utf8EncodeChar second ++ other) :
    first = second := by
  have decoded : ∀ (character : Char) (rest : Bytes),
      (String.utf8EncodeChar character ++ rest).toByteArray.utf8DecodeChar? 0 = some character := by
    intro character rest
    rw [List.toByteArray_append]
    exact ByteArray.utf8DecodeChar?_utf8EncodeChar_append
  have both := decoded first rest
  rw [same, decoded second other] at both
  exact (Option.some.inj both).symm

/-- If the bytes of characters begin with those of others, so do the characters. -/
theorem exists_characters {start whole : List Char} {rest : Bytes}
    (same : start.flatMap String.utf8EncodeChar ++ rest = whole.flatMap String.utf8EncodeChar) :
    ∃ more, whole = start ++ more ∧ rest = more.flatMap String.utf8EncodeChar := by
  induction start generalizing whole with
  | nil => exact ⟨whole, rfl, same⟩
  | cons first start hypothesis =>
    rw [List.flatMap_cons, List.append_assoc] at same
    cases whole with
    | nil =>
      have empty := List.append_eq_nil_iff.mp same
      exact absurd empty.1 String.utf8EncodeChar_ne_nil
    | cons second whole =>
      rw [List.flatMap_cons] at same
      have here := eq_of_utf8EncodeChar_append same
      subst here
      rcases hypothesis (List.append_cancel_left same) with ⟨more, later, left⟩
      exact ⟨more, congrArg (first :: ·) later, left⟩

theorem utf8_eq_flatMap (text : String) :
    utf8 text = text.toList.flatMap String.utf8EncodeChar := by
  rw [← utf8_ofList, String.ofList_toList]

/-- If the bytes of a text begin with those of another, so does the text. -/
theorem exists_text {start whole : String} {rest : Bytes} (same : utf8 start ++ rest = utf8 whole) :
    ∃ more, whole.toList = start.toList ++ more ∧ rest = more.flatMap String.utf8EncodeChar := by
  rw [utf8_eq_flatMap, utf8_eq_flatMap] at same
  exact exists_characters same

/-- Whether a byte is a whole value, or no value at all. -/
def IsShort (marker : UInt8) : Prop :=
  marker.toNat < 0x80 ∨ 0xc0 ≤ marker.toNat ∧ marker.toNat < 0xc4 ∨ 0xe0 ≤ marker.toNat

/-- Whether the first byte of a character announces that more belongs to the value. -/
def Announces (character : Char) : Prop :=
  0x100 ≤ character.toNat ∧ character.toNat < 0x800

theorem exists_short {character : Char} (plain : ¬Announces character) :
    ∃ marker rest, String.utf8EncodeChar character = marker :: rest ∧ IsShort marker := by
  have value : character.toNat = character.val.toNat := rfl
  rw [Announces, value] at plain
  have limit := character.val.toNat_lt
  rw [String.utf8EncodeChar]
  split
  · refine ⟨_, _, rfl, .inl ?_⟩
    rw [UInt8.toNat_ofNat']
    omega
  · split
    · refine ⟨_, _, rfl, .inr (.inl ?_)⟩
      rw [UInt8.toNat_ofNat']
      omega
    · split
      · refine ⟨_, _, rfl, .inr (.inr ?_)⟩
        rw [UInt8.toNat_ofNat']
        omega
      · refine ⟨_, _, rfl, .inr (.inr ?_)⟩
        rw [UInt8.toNat_ofNat']
        omega

end Bytes

/-! ## Keys that begin with a short form -/

namespace Wire

/-- A short form is nil, a truth value or an integer, with nothing behind it. -/
theorem readHead_short {marker : UInt8} (short : Bytes.IsShort marker) (rest : Bytes) :
    readHead (marker :: rest) = none ∨ readHead (marker :: rest) = some (.nil, rest) ∨
      (∃ value, readHead (marker :: rest) = some (.bool value, rest)) ∨
      ∃ signed value, readHead (marker :: rest) = some (.int signed value, rest) := by
  rw [readHead_cons]
  rcases short with small | ⟨low, high⟩ | negative
  · rw [if_pos small]
    exact .inr (.inr (.inr ⟨_, _, rfl⟩))
  · rw [if_neg (by omega), if_neg (by omega), if_neg (by omega), if_neg (by omega),
      if_pos (by omega)]
    have known : marker = 0xc0 ∨ marker = 0xc1 ∨ marker = 0xc2 ∨ marker = 0xc3 := by
      rw [← UInt8.toNat_inj, ← UInt8.toNat_inj, ← UInt8.toNat_inj, ← UInt8.toNat_inj]
      change marker.toNat = 0xc0 ∨ marker.toNat = 0xc1 ∨ marker.toNat = 0xc2 ∨ marker.toNat = 0xc3
      omega
    rcases known with rfl | rfl | rfl | rfl
    · exact .inr (.inl rfl)
    · exact .inl rfl
    · exact .inr (.inr (.inl ⟨false, rfl⟩))
    · exact .inr (.inr (.inl ⟨true, rfl⟩))
  · rw [if_neg (by omega), if_neg (by omega), if_neg (by omega), if_neg (by omega),
      if_neg (by omega)]
    exact .inr (.inr (.inr ⟨_, _, rfl⟩))

theorem rest_of_readHead_short {marker : UInt8} (short : Bytes.IsShort marker) {rest after : Bytes}
    {head : Head} (found : readHead (marker :: rest) = some (head, after)) : after = rest := by
  rcases readHead_short short rest with begun | begun | ⟨value, begun⟩ | ⟨signed, value, begun⟩ <;>
  · rw [begun] at found
    cases found <;> rfl

theorem read_short {marker : UInt8} (short : Bytes.IsShort marker) {rest after : Bytes}
    {levels : Nat} {value : Wire} (found : read levels (marker :: rest) = some (value, after)) :
    after = rest := by
  rw [read] at found
  rcases readHead_short short rest with begun | begun | ⟨value, begun⟩ | ⟨signed, value, begun⟩ <;>
  · rw [begun] at found
    cases found <;> rfl

/-- Whether bytes begin with a byte that is no short form. -/
def BeginsLong (bytes : Bytes) : Prop :=
  ∃ marker rest, bytes = marker :: rest ∧ ¬Bytes.IsShort marker

theorem BeginsLong.append {bytes : Bytes} (begins : BeginsLong bytes) (rest : Bytes) :
    BeginsLong (bytes ++ rest) := by
  rcases begins with ⟨marker, more, rfl, long⟩
  exact ⟨marker, more ++ rest, rfl, long⟩

theorem beginsLong_numbered {marker : UInt8} (width value : Nat)
    (long : 0xc4 ≤ marker.toNat ∧ marker.toNat < 0xe0) :
    BeginsLong (numbered marker width value) := by
  refine ⟨marker, _, rfl, ?_⟩
  rw [Bytes.IsShort]
  omega

theorem beginsLong_single {start length : Nat} (small : start + length < 0xc0)
    (large : 0x80 ≤ start) :
    BeginsLong [UInt8.ofNat (start + length)] := by
  refine ⟨_, _, rfl, ?_⟩
  rw [Bytes.IsShort, UInt8.toNat_ofNat']
  omega

theorem beginsLong_textHeader (length : Nat) : BeginsLong (textHeader length) := by
  unfold textHeader
  split
  · exact beginsLong_single (by omega) (by omega)
  · repeat' split
    all_goals exact beginsLong_numbered _ _ (by decide)

theorem beginsLong_binHeader (length : Nat) : BeginsLong (binHeader length) := by
  unfold binHeader
  repeat' split
  all_goals exact beginsLong_numbered _ _ (by decide)

theorem beginsLong_arrayHeader (length : Nat) : BeginsLong (arrayHeader length) := by
  unfold arrayHeader
  split
  · exact beginsLong_single (by omega) (by omega)
  · split
    all_goals exact beginsLong_numbered _ _ (by decide)

theorem beginsLong_mapHeader (length : Nat) : BeginsLong (mapHeader length) := by
  unfold mapHeader
  split
  · exact beginsLong_single (by omega) (by omega)
  · split
    all_goals exact beginsLong_numbered _ _ (by decide)

theorem beginsLong_extHeader (length : Nat) : BeginsLong (extHeader length) := by
  have marked : ∀ marker : UInt8, 0xc4 ≤ marker.toNat ∧ marker.toNat < 0xe0 → BeginsLong [marker] :=
    fun marker long => beginsLong_numbered 0 0 long
  unfold extHeader
  repeat' split
  all_goals first | exact marked _ (by decide) | exact beginsLong_numbered _ _ (by decide)

/-- A value is written as one byte or begins with a byte that is no short form. -/
theorem write_cases (value : Wire) : BeginsLong value.write ∨ ∃ marker, value.write = [marker] := by
  cases value with
  | nil => exact .inr ⟨_, rfl⟩
  | bool value => exact .inr ⟨_, rfl⟩
  | int value =>
    rw [write, writeInt]
    repeat' split
    all_goals first
      | exact .inr ⟨_, rfl⟩
      | exact .inl (beginsLong_numbered _ _ (by decide))
  | f32 bits => exact .inl (beginsLong_numbered _ _ (by decide))
  | f64 bits => exact .inl (beginsLong_numbered _ _ (by decide))
  | str text => exact .inl ((beginsLong_textHeader _).append _)
  | bin bytes => exact .inl ((beginsLong_binHeader _).append _)
  | array items => exact .inl ((beginsLong_arrayHeader _).append _)
  | map entries => exact .inl ((beginsLong_mapHeader _).append _)
  | ext type data => exact .inl ((beginsLong_extHeader _).append _)

end Wire

namespace Schema

variable {marker : UInt8} (short : Bytes.IsShort marker) {rest after : Bytes}
include short

theorem readByHead_short {test : Wire.Head → Option Datum} {datum : Datum}
    (found : readByHead test (marker :: rest) = some (datum, after)) : after = rest := by
  rcases Option.bind_eq_some_iff.mp found with ⟨⟨head, left⟩, begun, made⟩
  rcases Option.bind_eq_some_iff.mp made with ⟨_, _, same⟩
  cases same
  exact Wire.rest_of_readHead_short short begun

omit short in
theorem readLabel_short (short : Bytes.IsShort marker) {labels : List String} {label : Label}
    (found : readLabel labels (marker :: rest) = some (label, after)) : after = rest := by
  rw [readLabel] at found
  rcases Wire.readHead_short short rest with
    begun | begun | ⟨value, begun⟩ | ⟨signed, value, begun⟩
  · rw [begun] at found
    cases found
  · rw [begun] at found
    cases found
  · rw [begun] at found
    cases found
  · rw [begun] at found
    cases signed <;> cases found
    rfl

/-- A reader that takes no short form takes nothing that begins with one. -/
theorem bind_readHead_short {α : Type} {next : Wire.Head × Bytes → Option α}
    (nil : next (.nil, rest) = none) (bool : ∀ value, next (.bool value, rest) = none)
    (int : ∀ signed value, next (.int signed value, rest) = none) :
    (Wire.readHead (marker :: rest)).bind next = none := by
  rcases Wire.readHead_short short rest with
    begun | begun | ⟨value, begun⟩ | ⟨signed, value, begun⟩
  · rw [begun, Option.bind_none]
  · rw [begun, Option.bind_some, nil]
  · rw [begun, Option.bind_some, bool]
  · rw [begun, Option.bind_some, int]

theorem readListDirect_short (levels : Nat) (inner : Nat → DirectReader)
    (fromByte : UInt8 → Option Datum) :
    readListDirect levels inner fromByte (marker :: rest) = none :=
  bind_readHead_short short rfl (fun _ => rfl) fun _ _ => rfl

theorem readMapDirect_short (levels : Nat) (inner : Nat → DirectReader) :
    readMapDirect levels inner (marker :: rest) = none :=
  bind_readHead_short short rfl (fun _ => rfl) fun _ _ => rfl

theorem readTupleDirect_short (levels : Nat) (componentsAt : Nat → List Component) :
    readTupleDirect levels componentsAt (marker :: rest) = none :=
  bind_readHead_short short rfl (fun _ => rfl) fun _ _ => rfl

theorem readRecordDirect_short (levels : Nat) (fieldsAt : Nat → List (Field Component)) :
    readRecordDirect levels fieldsAt (marker :: rest) = none :=
  bind_readHead_short short rfl (fun _ => rfl) fun _ _ => rfl

theorem readUnionDirect_short {cases : List CaseReader} {datum : Datum}
    (found : readUnionDirect cases (marker :: rest) = some (datum, after)) : after = rest := by
  rw [readUnionDirect] at found
  rcases Option.bind_eq_some_iff.mp found with ⟨⟨head, left⟩, begun, made⟩
  -- Whatever the head, only a bare label can be read.
  rcases Wire.readHead_short short rest with
    same | same | ⟨value, same⟩ | ⟨signed, value, same⟩ <;>
  · rw [same] at begun
    cases begun <;>
    · rcases Option.bind_eq_some_iff.mp made with ⟨⟨label, left⟩, labelled, carried⟩
      have whole := readLabel_short short labelled
      cases label with
      | unknown => cases carried
      | known position =>
        rcases Option.bind_eq_some_iff.mp carried with ⟨found, _, last⟩
        split at last
        · cases last
          exact whole
        · cases last

/-- A datum read from a short form is read from that form alone. -/
theorem readDirect_short : (schema : Schema) → (levels : Nat) → {datum : Datum} →
    readDirect schema levels (marker :: rest) = some (datum, after) → after = rest
  | .option item, levels, datum, found => by
    rw [readDirect] at found
    rcases Option.bind_eq_some_iff.mp found with ⟨⟨head, left⟩, begun, made⟩
    rcases Wire.readHead_short short rest with
      same | same | ⟨value, same⟩ | ⟨signed, value, same⟩
    · rw [same] at begun
      cases begun
    · rw [same] at begun
      cases begun
      cases made
      rfl
    · rw [same] at begun
      cases begun
      rcases Option.bind_eq_some_iff.mp made with ⟨⟨inner, left⟩, read, last⟩
      cases last
      exact readDirect_short item levels read
    · rw [same] at begun
      cases begun
      rcases Option.bind_eq_some_iff.mp made with ⟨⟨inner, left⟩, read, last⟩
      cases last
      exact readDirect_short item levels read
  | .list item, levels, datum, found => by
    rw [readDirect, readListDirect_short short] at found
    cases found
  | .map item, levels, datum, found => by
    rw [readDirect, readMapDirect_short short] at found
    cases found
  | .tuple items, levels, datum, found => by
    rw [readDirect] at found
    rcases Option.map_eq_some_iff.mp found with ⟨_, read, _⟩
    rw [readTupleDirect_short short] at read
    cases read
  | .record name fields, levels, datum, found => by
    rw [readDirect] at found
    rcases Option.map_eq_some_iff.mp found with ⟨_, read, _⟩
    rw [readRecordDirect_short short] at read
    cases read
  | .union name cases, levels, datum, found => by
    rw [readDirect] at found
    exact readUnionDirect_short short found
  | .dyn, levels, datum, found => by
    rw [readDirect] at found
    rcases Option.map_eq_some_iff.mp found with ⟨⟨data, left⟩, read, same⟩
    cases same
    exact Wire.read_short short read
  | .bool, levels, datum, found => readByHead_short short found
  | .int kind, levels, datum, found => readByHead_short short found
  | .f32, levels, datum, found => readByHead_short short found
  | .f64, levels, datum, found => readByHead_short short found
  | .char, levels, datum, found => readByHead_short short found
  | .text, levels, datum, found => readByHead_short short found
  | .unit, levels, datum, found => readByHead_short short found
  | .guarded name, levels, datum, found => readByHead_short short found

end Schema

/-! ## Prefixes -/

namespace Redis

/-- Whether bytes may be a key of some schema: there are some, and a short form at
the front is all of them. -/
def MayBeKey (bytes : Bytes) : Prop :=
  bytes ≠ [] ∧ ∀ marker rest, bytes = marker :: rest → Bytes.IsShort marker → rest = []

theorem mayBeKey_of_decodeKey {schema : Schema} {bytes : Bytes} {key : Datum}
    (read : decodeKey schema bytes = .ok key) : MayBeKey bytes := by
  refine ⟨?_, ?_⟩
  · rintro rfl
    cases read
  · rintro marker rest rfl short
    unfold decodeKey at read
    split at read
    · cases read
    · cases found : schema.readDirect Wire.maxDepth (marker :: rest) with
      | none =>
        rw [found] at read
        cases read
      | some parts =>
        rcases parts with ⟨datum, left⟩
        have whole := Schema.readDirect_short short schema _ found
        rw [found] at read
        cases left with
        | nil => exact whole.symm
        | cons _ _ => cases read

theorem mayBeKey_of_encodeKey {bytes : Bytes} {key : Datum}
    (written : encodeKey key = .ok bytes) : MayBeKey bytes := by
  rw [encodeKey] at written
  split at written
  · next data _ =>
    cases written
    rcases Wire.write_cases data with ⟨first, more, begins, long⟩ | ⟨only, same⟩
    · rw [begins]
      refine ⟨List.cons_ne_nil first more, ?_⟩
      rintro marker rest same short
      cases same
      exact absurd short long
    · rw [same]
      refine ⟨List.cons_ne_nil only [], ?_⟩
      rintro marker rest same _
      cases same
      rfl
  · cases written

/-- What concerns a map is its prefix with what may be a key behind it. -/
theorem Reaches.exists_mayBeKey {schema : Schema} {options : RedisOptions} {serverKey : Bytes}
    (reached : Reaches schema.keyCodec options serverKey) :
    ∃ bytes, serverKey = Bytes.utf8 options.keyPrefix ++ bytes ∧ MayBeKey bytes := by
  rcases reached with ⟨key, spelled⟩ | owned
  · rcases Option.map_eq_some_iff.mp spelled with ⟨bytes, written, rfl⟩
    exact ⟨bytes, rfl, mayBeKey_of_encodeKey (eq_ok_of_toOption written)⟩
  · rcases Option.isSome_iff_exists.mp owned with ⟨key, found⟩
    rcases Option.bind_eq_some_iff.mp found with ⟨bytes, after, read⟩
    exact ⟨bytes, Bytes.eq_append_of_after? after, mayBeKey_of_decodeKey (eq_ok_of_toOption read)⟩

/-- Whether the second prefix goes on after the first with a character whose bytes
may begin a longer key. -/
def MayClash (first second : String) : Prop :=
  ∃ character rest, second.toList = first.toList ++ character :: rest ∧ Bytes.Announces character

theorem not_both_of_append {first second : String} {shorter longer more : Bytes}
    (different : first ≠ second) (plain : ¬MayClash first second)
    (same : Bytes.utf8 second = Bytes.utf8 first ++ more) (split : shorter = more ++ longer) :
    ¬(MayBeKey shorter ∧ MayBeKey longer) := by
  rintro ⟨⟨_, whole⟩, notEmpty, _⟩
  rcases Bytes.exists_text same.symm with ⟨characters, continued, rfl⟩
  cases characters with
  | nil =>
    rw [List.append_nil, String.toList_inj] at continued
    exact different continued.symm
  | cons character rest =>
    have unclashing : ¬Bytes.Announces character := fun long =>
      plain ⟨character, rest, continued, long⟩
    rcases Bytes.exists_short unclashing with ⟨marker, left, spelled, short⟩
    rw [List.flatMap_cons, spelled] at split
    have nothing := whole marker _ split short
    exact notEmpty (List.append_eq_nil_iff.mp nothing).2

/-- Prefixes that do not clash keep the keys of any two schemas apart. -/
theorem apart_of_prefixes (firstSchema secondSchema : Schema) {first second : RedisOptions}
    (different : first.keyPrefix ≠ second.keyPrefix)
    (plain : ¬MayClash first.keyPrefix second.keyPrefix)
    (plainBack : ¬MayClash second.keyPrefix first.keyPrefix) :
    Apart firstSchema.keyCodec secondSchema.keyCodec first second := by
  rintro serverKey ⟨firstReached, secondReached⟩
  rcases firstReached.exists_mayBeKey with ⟨shorter, rfl, firstKey⟩
  rcases secondReached.exists_mayBeKey with ⟨longer, same, secondKey⟩
  rcases List.append_eq_append_iff.mp same with ⟨more, prefixes, keys⟩ | ⟨more, prefixes, keys⟩
  · exact not_both_of_append different plain prefixes keys ⟨firstKey, secondKey⟩
  · exact not_both_of_append different.symm plainBack prefixes keys ⟨secondKey, firstKey⟩

/-- Maps of any two schemas whose prefixes differ and do not clash have in every run
what each of them may have alone. -/
theorem maps_isolated (firstSchema secondSchema : Schema) {first second : Redis}
    (firstOpened : first.closed = false) (secondOpened : second.closed = false)
    (different : first.options.keyPrefix ≠ second.options.keyPrefix)
    (plain : ¬MayClash first.options.keyPrefix second.options.keyPrefix)
    (plainBack : ¬MayClash second.options.keyPrefix first.options.keyPrefix) :
    Isolated firstSchema.keyCodec secondSchema.keyCodec first second :=
  (isolated_iff_apart _ _ firstOpened secondOpened).mpr
    (apart_of_prefixes firstSchema secondSchema different plain plainBack)

/-- A prefix that goes on after another with an ASCII letter keeps maps apart. -/
theorem nested_prefixes_isolated :
    Isolated (Schema.int .i64).keyCodec Schema.text.keyCodec
      (connected { keyPrefix := "a" }) (connected { keyPrefix := "ab" }) := by
  have short : "a".toList = ['a'] := by decide
  have long : "ab".toList = ['a', 'b'] := by decide
  refine @maps_isolated (.int .i64) .text (connected { keyPrefix := "a" })
    (connected { keyPrefix := "ab" }) rfl rfl (by decide) ?_ ?_
  · rintro ⟨character, rest, continued, announced, _⟩
    change "ab".toList = "a".toList ++ character :: rest at continued
    rw [short, long] at continued
    cases continued
    exact absurd announced (by decide)
  · rintro ⟨character, rest, continued, _⟩
    change "a".toList = "ab".toList ++ character :: rest at continued
    rw [short, long] at continued
    cases continued

/-- The empty prefix and that of one letter with a longer form clash: a key of the
second map is counted by the first. -/
theorem clashing_prefixes :
    ("" : String) ≠ "р" ∧
      ¬Isolated (Schema.int .i64).keyCodec (Schema.int .i64).keyCodec
        (connected { keyPrefix := "" }) (connected { keyPrefix := "р" }) ∧
      (len RedisLink.onePage (Schema.int .i64).keyCodec (connected { keyPrefix := "" },
        (store RedisLink.onePage (Schema.int .i64).keyCodec (.int (.ofByte 5)) [1]
          (connected { keyPrefix := "р" }, Tree.empty)).2)).1 = 1 := by
  refine ⟨by decide, ?_, by decide +kernel⟩
  rw [isolated_iff_apart _ _ rfl rfl]
  intro apart
  refine apart [0xd1, 0x80, 5] ⟨.inr ?_, .inr ?_⟩
  · decide +kernel
  · decide +kernel

end Redis

end TypedStore
