import TypedStore.Bytes
import TypedStore.Redis.Glob

/-!
# Escaped texts match themselves

The pattern of a scan is an escaped text and a star.  Cut into pieces it is one
literal for each byte of the text and one piece for anything: a character that
has a meaning in patterns is a single byte and comes with its backslash, and
the bytes of all other characters have no meaning, those beyond ASCII because
they are at least 128.
-/

namespace TypedStore

theorem Bytes.utf8_ofList (characters : List Char) :
    Bytes.utf8 (String.ofList characters) = characters.flatMap String.utf8EncodeChar := by
  have bytes : (String.ofList characters).toByteArray = characters.utf8Encode :=
    String.toByteArray_ofList
  change (String.ofList characters).toByteArray.data.toList = _
  rw [bytes, List.utf8Encode, List.data_toByteArray]

namespace Glob

/-- Whether a byte stands for itself outside a class. -/
def IsPlain (byte : UInt8) : Prop :=
  byte ≠ byteOf '*' ∧ byte ≠ byteOf '?' ∧ byte ≠ byteOf '[' ∧ byte ≠ byteOf '\\'

theorem pieces_plain {byte : UInt8} (plain : IsPlain byte) (rest : Bytes) :
    pieces none (byte :: rest) = .literal byte :: pieces none rest := by
  rcases plain with ⟨notStar, notMark, notBracket, notSlash⟩
  cases rest with
  | nil =>
    have empty : pieces none [] = [] := by rw [pieces]
    rw [empty, pieces, if_neg notStar, if_neg notMark, if_neg notBracket]
  | cons second rest =>
    rw [pieces, if_neg notStar, if_neg notMark, if_neg notBracket, if_neg notSlash]

theorem pieces_escaped (second : UInt8) (rest : Bytes) :
    pieces none (byteOf '\\' :: second :: rest) = .literal second :: pieces none rest := by
  have notStar : byteOf '\\' ≠ byteOf '*' := by decide
  have notMark : byteOf '\\' ≠ byteOf '?' := by decide
  have notBracket : byteOf '\\' ≠ byteOf '[' := by decide
  rw [pieces, if_neg notStar, if_neg notMark, if_neg notBracket, if_pos rfl]

theorem pieces_plain_append (bytes rest : Bytes) (plain : ∀ byte ∈ bytes, IsPlain byte) :
    pieces none (bytes ++ rest) = bytes.map .literal ++ pieces none rest := by
  induction bytes with
  | nil => rfl
  | cons byte bytes hypothesis =>
    rw [List.cons_append, pieces_plain (plain byte List.mem_cons_self),
      hypothesis fun other member => plain other (List.mem_cons_of_mem _ member)]
    rfl

/-- A byte of a character is beyond ASCII or the character itself. -/
theorem utf8EncodeChar_cases (character : Char) :
    (∀ byte ∈ String.utf8EncodeChar character, 128 ≤ byte.toNat) ∨
      character.toNat < 128 ∧ String.utf8EncodeChar character = [UInt8.ofNat character.toNat] := by
  have beyond : ∀ part base : Nat, 128 ≤ base → part + base < 256 →
      128 ≤ (UInt8.ofNat (part + base)).toNat := by
    intro part base large small
    rw [UInt8.toNat_ofNat']
    omega
  rw [String.utf8EncodeChar]
  by_cases ascii : character.val.toNat ≤ 0x7f
  · rw [if_pos ascii]
    refine .inr ⟨?_, rfl⟩
    exact Nat.lt_succ_of_le ascii
  · refine .inl ?_
    rw [if_neg ascii]
    intro byte member
    split at member
    · simp only [List.mem_cons, List.not_mem_nil, or_false] at member
      rcases member with rfl | rfl
      · exact beyond _ _ (by omega) (by omega)
      · exact beyond _ _ (by omega) (by omega)
    · split at member
      · simp only [List.mem_cons, List.not_mem_nil, or_false] at member
        rcases member with rfl | rfl | rfl
        · exact beyond _ _ (by omega) (by omega)
        · exact beyond _ _ (by omega) (by omega)
        · exact beyond _ _ (by omega) (by omega)
      · simp only [List.mem_cons, List.not_mem_nil, or_false] at member
        rcases member with rfl | rfl | rfl | rfl
        · exact beyond _ _ (by omega) (by omega)
        · exact beyond _ _ (by omega) (by omega)
        · exact beyond _ _ (by omega) (by omega)
        · exact beyond _ _ (by omega) (by omega)

theorem byteOf_eq_iff {first second : Char} (firstAscii : first.toNat < 128)
    (secondAscii : second.toNat < 128) : byteOf first = byteOf second ↔ first = second := by
  constructor
  · intro same
    have numbers := congrArg UInt8.toNat same
    rw [byteOf, byteOf, UInt8.toNat_ofNat', UInt8.toNat_ofNat'] at numbers
    apply Char.toNat_inj.mp
    omega
  · intro same
    rw [same]

/-- The bytes of a character without a meaning have none either. -/
theorem isPlain_of_mem {character : Char} (ordinary : isSpecial character = false) {byte : UInt8}
    (member : byte ∈ String.utf8EncodeChar character) : IsPlain byte := by
  rcases utf8EncodeChar_cases character with beyond | ⟨ascii, single⟩
  · have large := beyond byte member
    refine ⟨?_, ?_, ?_, ?_⟩ <;>
    · rintro rfl
      exact absurd large (by decide)
  · rw [single, List.mem_singleton] at member
    have same : byte = byteOf character := member
    simp only [isSpecial, Bool.or_eq_false_iff, beq_eq_false_iff_ne] at ordinary
    rcases ordinary with ⟨⟨⟨⟨notStar, notMark⟩, notBracket⟩, _⟩, notSlash⟩
    rw [same]
    refine ⟨?_, ?_, ?_, ?_⟩
    · exact fun equal => notStar ((byteOf_eq_iff ascii (by decide)).mp equal)
    · exact fun equal => notMark ((byteOf_eq_iff ascii (by decide)).mp equal)
    · exact fun equal => notBracket ((byteOf_eq_iff ascii (by decide)).mp equal)
    · exact fun equal => notSlash ((byteOf_eq_iff ascii (by decide)).mp equal)

theorem utf8EncodeChar_of_isSpecial {character : Char} (special : isSpecial character = true) :
    String.utf8EncodeChar character = [byteOf character] := by
  simp only [isSpecial, Bool.or_eq_true, beq_iff_eq] at special
  rcases special with (((rfl | rfl) | rfl) | rfl) | rfl <;> rfl

/-- An escaped text is cut into one literal for each byte of the text. -/
theorem pieces_escape (characters : List Char) (rest : Bytes) :
    pieces none ((characters.flatMap fun character =>
        if isSpecial character then ['\\', character] else [character]).flatMap
          String.utf8EncodeChar ++ rest) =
      (characters.flatMap String.utf8EncodeChar).map .literal ++ pieces none rest := by
  induction characters with
  | nil => rfl
  | cons character characters hypothesis =>
    rw [List.flatMap_cons, List.flatMap_append, List.append_assoc, List.flatMap_cons,
      List.map_append, List.append_assoc, ← hypothesis]
    cases special : isSpecial character with
    | true =>
      have slash : String.utf8EncodeChar '\\' = [byteOf '\\'] := rfl
      rw [if_pos rfl, List.flatMap_cons, List.flatMap_cons, List.flatMap_nil, List.append_nil,
        slash, utf8EncodeChar_of_isSpecial special]
      exact pieces_escaped _ _
    | false =>
      rw [if_neg Bool.false_ne_true, List.flatMap_cons, List.flatMap_nil, List.append_nil]
      exact pieces_plain_append _ _ fun byte member => isPlain_of_mem special member

theorem someEnd_isEmpty (bytes : Bytes) : someEnd (matchesPieces []) bytes = true := by
  induction bytes with
  | nil => rfl
  | cons byte rest hypothesis => rw [someEnd, hypothesis, Bool.or_true]

theorem matchesPieces_literals (start bytes : Bytes) :
    matchesPieces (start.map .literal ++ [.any]) bytes = true ↔ ∃ rest, bytes = start ++ rest := by
  induction start generalizing bytes with
  | nil => exact iff_of_true (someEnd_isEmpty bytes) ⟨bytes, rfl⟩
  | cons byte start hypothesis =>
    cases bytes with
    | nil =>
      apply iff_of_false
      · intro matched
        cases matched
      · rintro ⟨rest, same⟩
        cases same
    | cons first rest =>
      change ((byte == first) && matchesPieces (start.map .literal ++ [.any]) rest) = true ↔ _
      rw [Bool.and_eq_true, beq_iff_eq, hypothesis]
      constructor
      · rintro ⟨rfl, left, rfl⟩
        exact ⟨left, rfl⟩
      · rintro ⟨left, same⟩
        cases same
        exact ⟨rfl, left, rfl⟩

/-- The pattern of an escaped text and a star matches what begins with the text. -/
theorem isMatch_escape_star (text : String) (bytes : Bytes) :
    isMatch (Bytes.utf8 (escape text ++ "*")) bytes = true ↔
      ∃ rest, bytes = Bytes.utf8 text ++ rest := by
  have pattern : Bytes.utf8 (escape text ++ "*") =
      (text.toList.flatMap fun character =>
        if isSpecial character then ['\\', character] else [character]).flatMap
          String.utf8EncodeChar ++ [byteOf '*'] := by
    have joined : escape text ++ "*" = String.ofList ((text.toList.flatMap fun character =>
        if isSpecial character then ['\\', character] else [character]) ++ ['*']) := by
      rw [String.ofList_append]
      rfl
    rw [joined, Bytes.utf8_ofList, List.flatMap_append]
    rfl
  have star : pieces none [byteOf '*'] = [.any] := by rw [pieces, if_pos rfl]
  have itself : Bytes.utf8 text = text.toList.flatMap String.utf8EncodeChar := by
    rw [← Bytes.utf8_ofList, String.ofList_toList]
  rw [isMatch, parse, pattern, pieces_escape, star, itself]
  exact matchesPieces_literals _ _

end Glob
end TypedStore
