import Mathlib.Data.List.Basic
import TypedStore.Number.Integer
import TypedStore.Text.Blank

/-!
# Reading integers that were written

A number that is written in decimal digits is read as itself when it is within
the bounds of the reader, and refused otherwise.  The text of a number has no
white space, so nothing is lost when the ends of a text are cut.
-/

namespace TypedStore

/-! ## White space around a text -/

/-- Nothing is cut off a text without white space. -/
theorem Text.trim_of_forall {text : String}
    (solid : ∀ character ∈ text.toList, Text.isBlank character = false) :
    Text.trim text = text := by
  have whole : text.toList.dropWhile Text.isBlank = text.toList := by
    cases characters : text.toList with
    | nil => rfl
    | cons first rest =>
      rw [characters] at solid
      exact List.dropWhile_cons_of_neg (by simp [solid first List.mem_cons_self])
  have wholeBack : text.toList.reverse.dropWhile Text.isBlank = text.toList.reverse := by
    cases characters : text.toList.reverse with
    | nil => rfl
    | cons last rest =>
      have member : last ∈ text.toList := by
        rw [← List.mem_reverse, characters]
        exact List.mem_cons_self
      exact List.dropWhile_cons_of_neg (by simp [solid last member])
  rw [Text.trim, whole, wholeBack, List.reverse_reverse, String.ofList_toList]

theorem Text.isBlank_of_isDigit {character : Char} (digit : character.isDigit = true) :
    Text.isBlank character = false := by
  rw [Char.isDigit, Bool.and_eq_true, decide_eq_true_eq, decide_eq_true_eq] at digit
  have low : 48 ≤ character.toNat := UInt32.le_iff_toNat_le.mp digit.1
  have high : character.toNat ≤ 57 := UInt32.le_iff_toNat_le.mp digit.2
  simp only [isBlank, blankBoundaries, within, Bool.or_eq_false_iff, Bool.and_eq_false_iff,
    decide_eq_false_iff_not, and_true]
  omega

namespace Number

/-! ## Digits -/

theorem isDigit_of_mem_toDigits {digit : Char} {number : Nat}
    (member : digit ∈ Nat.toDigits 10 number) : digit.isDigit = true :=
  Nat.isDigit_of_mem_toDigits (by decide) (by decide) member

/-- Reading goes on from any value with the digits that follow. -/
theorem foldl_digits {digits : List Char} (all : ∀ digit ∈ digits, digit.isDigit = true)
    (start : Nat) :
    digits.foldl (fun value digit => do
        let value ← value
        if digit.isDigit then some (value * 10 + (digit.toNat - '0'.toNat)) else none)
      (some start) = some (Nat.ofDigitChars 10 digits start) := by
  induction digits generalizing start with
  | nil => rfl
  | cons first rest hypothesis =>
    have later := hypothesis (fun digit member => all digit (List.mem_cons_of_mem _ member))
      (10 * start + (first.toNat - '0'.toNat))
    rw [List.foldl_cons, Nat.ofDigitChars_cons, ← later, Nat.mul_comm 10 start]
    simp only [Option.bind_eq_bind, Option.bind_some, all first List.mem_cons_self, if_true]

theorem digitsValue?_toDigits (number : Nat) :
    digitsValue? (Nat.toDigits 10 number) = some number := by
  have some : (Nat.toDigits 10 number).isEmpty = false :=
    List.isEmpty_eq_false_iff.mpr Nat.toDigits_ne_nil
  rw [digitsValue?, some, foldl_digits (fun _ member => isDigit_of_mem_toDigits member),
    Nat.ofDigitChars_ten_toDigits]
  rfl

/-- The digits of a number do not begin with a sign. -/
theorem exists_toDigits_eq_cons (number : Nat) :
    ∃ first rest, Nat.toDigits 10 number = first :: rest ∧ first ≠ '+' ∧ first ≠ '-' := by
  cases digits : Nat.toDigits 10 number with
  | nil => exact absurd digits Nat.toDigits_ne_nil
  | cons first rest =>
    have member : first ∈ Nat.toDigits 10 number := by
      rw [digits]
      exact List.mem_cons_self
    have digit := isDigit_of_mem_toDigits member
    refine ⟨first, rest, rfl, ?_, ?_⟩ <;> rintro rfl <;> cases digit

/-! ## Unsigned numbers -/

theorem toList_toString (number : Nat) : (toString number).toList = Nat.toDigits 10 number :=
  Nat.toList_repr

theorem trim_toString (number : Nat) : Text.trim (toString number) = toString number := by
  apply Text.trim_of_forall
  intro character member
  rw [toList_toString] at member
  exact Text.isBlank_of_isDigit (isDigit_of_mem_toDigits member)

theorem readNat?_toString (highest number : Nat) :
    readNat? highest (toString number) = if number ≤ highest then some number else none := by
  rcases exists_toDigits_eq_cons number with ⟨first, rest, digits, plus, minus⟩
  have value := digitsValue?_toDigits number
  rw [digits] at value
  rw [readNat?, toList_toString, digits]
  split
  · next same => exact absurd (List.cons.inj same).1 plus
  · rw [value]
    rfl

/-- A number of one word is read as itself, a greater one is refused. -/
theorem readWord?_toString (number : Nat) :
    readWord? (toString number) =
      if number < UInt64.size then some (UInt64.ofNat number) else none := by
  have bound : number ≤ 0xffffffffffffffff ↔ number < UInt64.size := Nat.lt_succ_iff.symm
  rw [readWord?, readNat?_toString]
  by_cases small : number < UInt64.size
  · rw [if_pos small, if_pos (bound.mpr small)]
    rfl
  · rw [if_neg small, if_neg (mt bound.mp small)]
    rfl

theorem readWord?_toString_toNat (word : UInt64) :
    readWord? (toString word.toNat) = some word := by
  rw [readWord?_toString, if_pos word.toNat_lt, UInt64.ofNat_toNat]

/-! ## Signed numbers -/

theorem toList_toString_int (number : Int) :
    (toString number).toList =
      if number < 0 then '-' :: Nat.toDigits 10 number.natAbs
      else Nat.toDigits 10 number.natAbs := by
  cases number with
  | ofNat magnitude => exact toList_toString magnitude
  | negSucc magnitude =>
    have text : toString (Int.negSucc magnitude) = "-" ++ toString (magnitude + 1) := rfl
    rw [if_pos (Int.negSucc_lt_zero magnitude), text, String.toList_append, toList_toString]
    rfl

theorem trim_toString_int (number : Int) : Text.trim (toString number) = toString number := by
  apply Text.trim_of_forall
  intro character member
  have digit : character ∈ Nat.toDigits 10 number.natAbs → Text.isBlank character = false :=
    fun listed => Text.isBlank_of_isDigit (isDigit_of_mem_toDigits listed)
  rw [toList_toString_int] at member
  split at member
  · rcases List.mem_cons.mp member with rfl | listed
    · decide
    · exact digit listed
  · exact digit member

theorem readInt?_toString {lowest highest number : Int} (low : lowest ≤ number)
    (high : number ≤ highest) : readInt? lowest highest (toString number) = some number := by
  have value := digitsValue?_toDigits number.natAbs
  have accepted : ∀ found : Int, found = number →
      (if lowest ≤ found ∧ found ≤ highest then some found else none) = some number := by
    rintro found rfl
    exact if_pos ⟨low, high⟩
  rw [readInt?, toList_toString_int]
  by_cases negative : number < 0
  · have same : -(number.natAbs : Int) = number := by omega
    rw [if_pos negative]
    simp only [value]
    exact accepted _ same
  · have same : (number.natAbs : Int) = number := by omega
    rcases exists_toDigits_eq_cons number.natAbs with ⟨first, rest, digits, plus, minus⟩
    rw [if_neg negative, digits]
    rw [digits] at value
    split
    · next sign => exact absurd (List.cons.inj sign).1 minus
    · next sign => exact absurd (List.cons.inj sign).1 plus
    · rw [value]
      exact accepted _ same

/-- Every signed number of one word is read as itself. -/
theorem readSigned?_toString (number : Int64) :
    readSigned? (toString number.toInt) = some number := by
  have low : -0x8000000000000000 ≤ number.toInt := number.le_toInt
  have high : number.toInt ≤ 0x7fffffffffffffff := Int.le_of_lt_add_one number.toInt_lt
  rw [readSigned?, readInt?_toString low high, Option.map_some, Int64.ofInt_toInt]

end Number
end TypedStore
