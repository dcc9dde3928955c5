import TypedStore.Proofs.Redis.Glob
import TypedStore.Redis.Options

/-!
# What a pattern describes

A matcher cuts a pattern into pieces and then tries them one after another, and for a star it
tries every end of the bytes.  `Describes` gives the meaning of a pattern without any of this,
by one rule for each thing that a pattern may begin with.  What stands between the brackets of
a class is read by `ClassText`, which says how far the class reaches.

`isMatch_iff_describes` says that the matcher goes by these rules, whatever the pattern and the
bytes.  The pattern of a scan describes what begins with the prefix of the map, and nothing
else: no character of the prefix is left with a meaning, and none is escaped away.
-/

namespace TypedStore
namespace Glob

/-- The text of a class from behind its opening, the ranges that it lists, and the pattern that
follows the class.  A class that is never closed ends with the pattern. -/
inductive ClassText : Bytes → List (UInt8 × UInt8) → Bytes → Prop where
  | unclosed : ClassText [] [] []
  | closed (pattern : Bytes) : ClassText (byteOf ']' :: pattern) [] pattern
  | escaped {text pattern : Bytes} {ranges : List (UInt8 × UInt8)} (byte : UInt8)
    (others : ClassText text ranges pattern) :
    ClassText (byteOf '\\' :: byte :: text) ((byte, byte) :: ranges) pattern
  | range {text pattern : Bytes} {ranges : List (UInt8 × UInt8)} {first : UInt8} (last : UInt8)
    (unescaped : first ≠ byteOf '\\') (goesOn : first ≠ byteOf ']')
    (others : ClassText text ranges pattern) :
    ClassText (first :: byteOf '-' :: last :: text) (rangeOf first last :: ranges) pattern
  /-- A backslash stands for itself if nothing follows it, and so does a minus that has no byte
  on one of its sides. -/
  | single {text pattern : Bytes} {ranges : List (UInt8 × UInt8)} {byte : UInt8}
    (unescaped : byte = byteOf '\\' → text = []) (goesOn : byte ≠ byteOf ']')
    (noRange : ∀ last rest, text ≠ byteOf '-' :: last :: rest)
    (others : ClassText text ranges pattern) :
    ClassText (byte :: text) ((byte, byte) :: ranges) pattern

/-- Whether bytes are among those that a pattern describes. -/
inductive Describes : Bytes → Bytes → Prop where
  | empty : Describes [] []
  | any {pattern bytes : Bytes} (skipped : Bytes) (rest : Describes pattern bytes) :
    Describes (byteOf '*' :: pattern) (skipped ++ bytes)
  | one {pattern bytes : Bytes} (byte : UInt8) (rest : Describes pattern bytes) :
    Describes (byteOf '?' :: pattern) (byte :: bytes)
  | among {text pattern bytes : Bytes} {ranges : List (UInt8 × UInt8)} {byte : UInt8}
    (positive : text.head? ≠ some (byteOf '^')) (inside : ClassText text ranges pattern)
    (listed : ∃ range ∈ ranges, range.1 ≤ byte ∧ byte ≤ range.2)
    (rest : Describes pattern bytes) : Describes (byteOf '[' :: text) (byte :: bytes)
  | outside {text pattern bytes : Bytes} {ranges : List (UInt8 × UInt8)} {byte : UInt8}
    (inside : ClassText text ranges pattern)
    (unlisted : ¬∃ range ∈ ranges, range.1 ≤ byte ∧ byte ≤ range.2)
    (rest : Describes pattern bytes) :
    Describes (byteOf '[' :: byteOf '^' :: text) (byte :: bytes)
  | escaped {pattern bytes : Bytes} (byte : UInt8) (rest : Describes pattern bytes) :
    Describes (byteOf '\\' :: byte :: pattern) (byte :: bytes)
  | literal {pattern bytes : Bytes} {byte : UInt8} (plain : IsPlain byte)
    (rest : Describes pattern bytes) : Describes (byte :: pattern) (byte :: bytes)
  /-- A backslash at the end of a pattern stands for itself. -/
  | backslash : Describes [byteOf '\\'] [byteOf '\\']

/-! ## How a class is cut out of a pattern -/

theorem pieces_none_nil : pieces none [] = [] := by rw [pieces]

theorem pieces_some_nil (negated : Bool) (ranges : List (UInt8 × UInt8)) :
    pieces (some (negated, ranges)) [] = [.among negated ranges] := by rw [pieces]

theorem pieces_single {byte : UInt8} {text : Bytes} (unescaped : byte = byteOf '\\' → text = [])
    (goesOn : byte ≠ byteOf ']') (noRange : ∀ last rest, text ≠ byteOf '-' :: last :: rest)
    (negated : Bool) (before : List (UInt8 × UInt8)) :
    pieces (some (negated, before)) (byte :: text) =
      pieces (some (negated, (byte, byte) :: before)) text := by
  match text with
  | [] => rw [pieces_some_nil, pieces, if_neg goesOn]
  | [second] =>
    have notSlash : byte ≠ byteOf '\\' := fun slash => by cases unescaped slash
    conv => lhs; rw [pieces, if_neg notSlash, if_neg goesOn]
  | second :: last :: rest =>
    have notSlash : byte ≠ byteOf '\\' := fun slash => by cases unescaped slash
    have notMinus : second ≠ byteOf '-' := by
      rintro rfl
      exact noRange last rest rfl
    conv => lhs; rw [pieces, if_neg notSlash, if_neg goesOn]
    exact if_neg notMinus

/-- A class is one piece, whose ranges are listed backwards. -/
theorem ClassText.pieces_eq {text pattern : Bytes} {ranges : List (UInt8 × UInt8)}
    (inside : ClassText text ranges pattern) (negated : Bool) (before : List (UInt8 × UInt8)) :
    pieces (some (negated, before)) text =
      .among negated (ranges.reverse ++ before) :: pieces none pattern := by
  induction inside generalizing before with
  | unclosed =>
    rw [pieces_some_nil, pieces_none_nil]
    rfl
  | closed pattern =>
    cases pattern with
    | nil =>
      rw [pieces_none_nil, pieces, if_pos rfl]
      rfl
    | cons second rest =>
      have notSlash : byteOf ']' ≠ byteOf '\\' := by decide
      conv => lhs; rw [pieces.eq_def]
      exact (if_neg notSlash).trans (if_pos rfl)
  | escaped byte _ hypothesis =>
    rw [pieces.eq_def, List.reverse_cons, List.append_assoc]
    exact (if_pos rfl).trans (hypothesis _)
  | range last unescaped goesOn _ hypothesis =>
    rw [pieces.eq_def, List.reverse_cons, List.append_assoc]
    refine (if_neg unescaped).trans ((if_neg goesOn).trans ?_)
    exact (if_pos rfl).trans (hypothesis _)
  | single unescaped goesOn noRange _ hypothesis =>
    rw [pieces_single unescaped goesOn noRange, hypothesis, List.reverse_cons, List.append_assoc]
    rfl

/-- Whatever stands behind an opening bracket is the text of a class. -/
theorem exists_classText (text : Bytes) :
    ∃ ranges pattern, ClassText text ranges pattern ∧ pattern.length ≤ text.length := by
  match text with
  | [] => exact ⟨[], [], .unclosed, Nat.le_refl _⟩
  | byte :: text =>
    by_cases ends : byte = byteOf ']'
    · rw [ends]
      exact ⟨[], text, .closed text, Nat.le_succ _⟩
    · by_cases slash : byte = byteOf '\\' ∧ text ≠ []
      · rcases slash with ⟨rfl, follows⟩
        cases text with
        | nil => exact absurd rfl follows
        | cons second rest =>
          rcases exists_classText rest with ⟨ranges, pattern, others, shorter⟩
          exact ⟨_, pattern, .escaped second others,
            Nat.le_trans shorter (Nat.le_add_right _ 2)⟩
      · have unescaped : byte = byteOf '\\' → text = [] :=
          fun same => Classical.byContradiction fun follows => slash ⟨same, follows⟩
        by_cases isRange : ∃ last rest, text = byteOf '-' :: last :: rest
        · rcases isRange with ⟨last, rest, rfl⟩
          rcases exists_classText rest with ⟨ranges, pattern, others, shorter⟩
          have notSlash : byte ≠ byteOf '\\' := fun same => by cases unescaped same
          exact ⟨_, pattern, .range last notSlash ends others,
            Nat.le_trans shorter (Nat.le_add_right _ 3)⟩
        · rcases exists_classText text with ⟨ranges, pattern, others, shorter⟩
          have noRange : ∀ last rest, text ≠ byteOf '-' :: last :: rest :=
            fun last rest same => isRange ⟨last, rest, same⟩
          exact ⟨_, pattern, .single unescaped ends noRange others,
            Nat.le_trans shorter (Nat.le_succ _)⟩
termination_by text.length

theorem pieces_star (pattern : Bytes) :
    pieces none (byteOf '*' :: pattern) = .any :: pieces none pattern := by
  cases pattern with
  | nil => rw [pieces_none_nil, pieces, if_pos rfl]
  | cons second rest => rw [pieces, if_pos rfl]

theorem pieces_mark (pattern : Bytes) :
    pieces none (byteOf '?' :: pattern) = .one :: pieces none pattern := by
  have notStar : byteOf '?' ≠ byteOf '*' := by decide
  cases pattern with
  | nil => rw [pieces_none_nil, pieces, if_neg notStar, if_pos rfl]
  | cons second rest => rw [pieces, if_neg notStar, if_pos rfl]

theorem pieces_backslash : pieces none [byteOf '\\'] = [.literal (byteOf '\\')] := by
  have notStar : byteOf '\\' ≠ byteOf '*' := by decide
  have notMark : byteOf '\\' ≠ byteOf '?' := by decide
  have notBracket : byteOf '\\' ≠ byteOf '[' := by decide
  rw [pieces, if_neg notStar, if_neg notMark, if_neg notBracket]

theorem ClassText.pieces_positive {text pattern : Bytes} {ranges : List (UInt8 × UInt8)}
    (inside : ClassText text ranges pattern) (positive : text.head? ≠ some (byteOf '^')) :
    pieces none (byteOf '[' :: text) = .among false ranges.reverse :: pieces none pattern := by
  have notStar : byteOf '[' ≠ byteOf '*' := by decide
  have notMark : byteOf '[' ≠ byteOf '?' := by decide
  have cut := inside.pieces_eq false []
  rw [List.append_nil] at cut
  cases text with
  | nil =>
    rw [pieces_some_nil] at cut
    rw [pieces, if_neg notStar, if_neg notMark, if_pos rfl, cut]
  | cons second rest =>
    have notCaret : second ≠ byteOf '^' := fun same => positive (congrArg some same)
    rw [pieces, if_neg notStar, if_neg notMark, if_pos rfl, if_neg notCaret, cut]

theorem ClassText.pieces_negated {text pattern : Bytes} {ranges : List (UInt8 × UInt8)}
    (inside : ClassText text ranges pattern) :
    pieces none (byteOf '[' :: byteOf '^' :: text) =
      .among true ranges.reverse :: pieces none pattern := by
  have notStar : byteOf '[' ≠ byteOf '*' := by decide
  have notMark : byteOf '[' ≠ byteOf '?' := by decide
  have cut := inside.pieces_eq true []
  rw [List.append_nil] at cut
  rw [pieces, if_neg notStar, if_neg notMark, if_pos rfl, if_pos rfl, cut]

/-! ## How pieces are matched -/

theorem someEnd_iff {test : Bytes → Bool} {bytes : Bytes} :
    someEnd test bytes = true ↔ ∃ skipped rest, bytes = skipped ++ rest ∧ test rest = true := by
  induction bytes with
  | nil =>
    constructor
    · exact fun found => ⟨[], [], rfl, found⟩
    · rintro ⟨skipped, rest, same, found⟩
      rw [(List.append_eq_nil_iff.mp same.symm).2] at found
      exact found
  | cons byte bytes hypothesis =>
    rw [someEnd, Bool.or_eq_true, hypothesis]
    constructor
    · rintro (here | ⟨skipped, rest, rfl, found⟩)
      · exact ⟨[], byte :: bytes, rfl, here⟩
      · exact ⟨byte :: skipped, rest, rfl, found⟩
    · rintro ⟨skipped, rest, same, found⟩
      cases skipped with
      | nil =>
        rw [List.nil_append] at same
        rw [← same] at found
        exact .inl found
      | cons first skipped =>
        rw [List.cons_append, List.cons.injEq] at same
        exact .inr ⟨skipped, rest, same.2, found⟩

theorem matchesPieces_cons {piece : Piece} (single : piece ≠ .any) (rest : List Piece)
    (bytes : Bytes) : matchesPieces (piece :: rest) bytes = true ↔
      ∃ byte later, bytes = byte :: later ∧ piece.accepts byte = true ∧
        matchesPieces rest later = true := by
  cases bytes with
  | nil =>
    refine iff_of_false ?_ fun ⟨byte, later, same, _⟩ => by cases same
    cases piece with
    | any => exact absurd rfl single
    | _ => exact Bool.false_ne_true
  | cons byte later =>
    have stepped : matchesPieces (piece :: rest) (byte :: later) =
        (piece.accepts byte && matchesPieces rest later) := by
      cases piece with
      | any => exact absurd rfl single
      | _ => rfl
    rw [stepped, Bool.and_eq_true]
    constructor
    · exact fun both => ⟨byte, later, rfl, both⟩
    · rintro ⟨other, rest, same, both⟩
      cases same
      exact both

theorem accepts_among {negated : Bool} {ranges : List (UInt8 × UInt8)} {byte : UInt8} :
    (Piece.among negated ranges.reverse).accepts byte = true ↔
      ((∃ range ∈ ranges, range.1 ≤ byte ∧ byte ≤ range.2) ↔ negated = false) := by
  have listed : (ranges.any fun range => range.1 ≤ byte && byte ≤ range.2) = true ↔
      ∃ range ∈ ranges, range.1 ≤ byte ∧ byte ≤ range.2 := by
    simp only [List.any_eq_true, Bool.and_eq_true, decide_eq_true_eq]
  change ((ranges.reverse.any fun range => range.1 ≤ byte && byte ≤ range.2) != negated) = true ↔ _
  rw [List.any_reverse, ← listed]
  cases ranges.any fun range => range.1 ≤ byte && byte ≤ range.2 <;> cases negated <;> decide

/-! ## The rules and the matcher -/

/-- What a pattern describes is matched.  The induction is on the rules. -/
theorem Describes.isMatch {pattern bytes : Bytes} (described : Describes pattern bytes) :
    isMatch pattern bytes = true := by
  change matchesPieces (pieces none pattern) bytes = true
  induction described with
  | empty =>
    rw [pieces]
    rfl
  | any skipped _ hypothesis =>
    rw [pieces_star]
    exact someEnd_iff.mpr ⟨skipped, _, rfl, hypothesis⟩
  | one byte _ hypothesis =>
    rw [pieces_mark]
    exact (matchesPieces_cons Piece.noConfusion _ _).mpr ⟨byte, _, rfl, rfl, hypothesis⟩
  | among positive inside listed _ hypothesis =>
    rw [inside.pieces_positive positive]
    refine (matchesPieces_cons Piece.noConfusion _ _).mpr ⟨_, _, rfl, ?_, hypothesis⟩
    exact accepts_among.mpr (iff_of_true listed rfl)
  | outside inside unlisted _ hypothesis =>
    rw [inside.pieces_negated]
    refine (matchesPieces_cons Piece.noConfusion _ _).mpr ⟨_, _, rfl, ?_, hypothesis⟩
    exact accepts_among.mpr (iff_of_false unlisted Bool.noConfusion)
  | escaped byte _ hypothesis =>
    rw [pieces_escaped]
    exact (matchesPieces_cons Piece.noConfusion _ _).mpr ⟨byte, _, rfl, beq_self_eq_true byte,
      hypothesis⟩
  | literal plain _ hypothesis =>
    rw [pieces_plain plain]
    exact (matchesPieces_cons Piece.noConfusion _ _).mpr ⟨_, _, rfl, beq_self_eq_true _,
      hypothesis⟩
  | backslash =>
    rw [pieces_backslash]
    rfl

/-- What is matched is described.  The induction is on the length of the pattern, since a class
takes a part of it whose length only `exists_classText` knows. -/
theorem describes_of_isMatch {pattern bytes : Bytes} (matched : isMatch pattern bytes = true) :
    Describes pattern bytes := by
  change matchesPieces (pieces none pattern) bytes = true at matched
  induction size : pattern.length using Nat.strongRecOn generalizing pattern bytes with
  | ind size hypothesis =>
  cases pattern with
  | nil =>
    rw [pieces_none_nil] at matched
    rw [List.isEmpty_iff.mp matched]
    exact .empty
  | cons byte pattern =>
    have shorter : ∀ {after later : Bytes}, after.length ≤ pattern.length →
        matchesPieces (pieces none after) later = true → Describes after later := by
      intro after later bound found
      exact hypothesis after.length (size ▸ Nat.lt_succ_of_le bound) found rfl
    by_cases star : byte = byteOf '*'
    · rw [star, pieces_star] at matched
      rcases someEnd_iff.mp matched with ⟨skipped, rest, rfl, found⟩
      rw [star]
      exact .any skipped (shorter (Nat.le_refl _) found)
    by_cases mark : byte = byteOf '?'
    · rw [mark, pieces_mark] at matched
      rcases (matchesPieces_cons Piece.noConfusion _ _).mp matched with
        ⟨first, rest, rfl, _, found⟩
      rw [mark]
      exact .one first (shorter (Nat.le_refl _) found)
    by_cases bracket : byte = byteOf '['
    · rw [bracket] at matched ⊢
      by_cases negated : ∃ text, pattern = byteOf '^' :: text
      · rcases negated with ⟨text, rfl⟩
        rcases exists_classText text with ⟨ranges, after, inside, bound⟩
        rw [inside.pieces_negated] at matched
        rcases (matchesPieces_cons Piece.noConfusion _ _).mp matched with
          ⟨first, rest, rfl, accepted, found⟩
        refine .outside inside ?_ (shorter (Nat.le_succ_of_le bound) found)
        exact fun listed => Bool.noConfusion ((accepts_among.mp accepted).mp listed)
      · rcases exists_classText pattern with ⟨ranges, after, inside, bound⟩
        have positive : pattern.head? ≠ some (byteOf '^') := by
          intro caret
          rcases List.head?_eq_some_iff.mp caret with ⟨text, same⟩
          exact negated ⟨text, same⟩
        rw [inside.pieces_positive positive] at matched
        rcases (matchesPieces_cons Piece.noConfusion _ _).mp matched with
          ⟨first, rest, rfl, accepted, found⟩
        exact .among positive inside ((accepts_among.mp accepted).mpr rfl) (shorter bound found)
    by_cases slash : byte = byteOf '\\'
    · rw [slash] at matched ⊢
      cases pattern with
      | nil =>
        rw [pieces_backslash] at matched
        rcases (matchesPieces_cons Piece.noConfusion _ _).mp matched with
          ⟨first, rest, rfl, same, found⟩
        rw [List.isEmpty_iff.mp found, ← eq_of_beq same]
        exact .backslash
      | cons second rest =>
        rw [pieces_escaped] at matched
        rcases (matchesPieces_cons Piece.noConfusion _ _).mp matched with
          ⟨first, left, rfl, same, found⟩
        rw [← eq_of_beq same]
        exact .escaped second (shorter (Nat.le_succ _) found)
    · have plain : IsPlain byte := ⟨star, mark, bracket, slash⟩
      rw [pieces_plain plain] at matched
      rcases (matchesPieces_cons Piece.noConfusion _ _).mp matched with
        ⟨first, rest, rfl, same, found⟩
      rw [← eq_of_beq same]
      exact .literal plain (shorter (Nat.le_refl _) found)

/-- The matcher finds exactly what a pattern describes. -/
theorem isMatch_iff_describes {pattern bytes : Bytes} :
    isMatch pattern bytes = true ↔ Describes pattern bytes :=
  ⟨describes_of_isMatch, Describes.isMatch⟩

/-- The pattern of a scan matches a key of the server exactly when the key begins with the bytes
of the prefix, whatever characters the prefix has.  Matching is by the rules of the pattern
language, and the rules describe the same keys. -/
theorem scan_matches_iff_isPrefix (options : RedisOptions) (serverKey : Bytes) :
    (isMatch options.pattern serverKey = true ↔
        Bytes.utf8 options.keyPrefix <+: serverKey) ∧
      (Describes options.pattern serverKey ↔ Bytes.utf8 options.keyPrefix <+: serverKey) ∧
      ∀ pattern bytes, isMatch pattern bytes = true ↔ Describes pattern bytes := by
  have begins : isMatch options.pattern serverKey = true ↔
      Bytes.utf8 options.keyPrefix <+: serverKey := by
    rw [RedisOptions.pattern, isMatch_escape_star]
    exact exists_congr fun rest => eq_comm
  exact ⟨begins, isMatch_iff_describes.symm.trans begins, fun _ _ => isMatch_iff_describes⟩

end Glob
end TypedStore
