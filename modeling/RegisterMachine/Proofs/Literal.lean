/-
Integer literals.

A literal is an optional single sign followed by one or more ASCII digits, and its
exact value is that of a signed 32-bit word.  Reading accepts exactly the literals.
-/

import Mathlib.Algebra.Group.Int.Defs
import RegisterMachine.Text.Numeral

namespace RegisterMachine
namespace Text

/-! ### The form of a literal -/

def IsDigits (digits : List Char) : Prop :=
  digits ≠ [] ∧ ∀ c ∈ digits, c.isDigit = true

def decimal (digits : List Char) : Nat :=
  Nat.ofDigitChars 10 digits 0

/-- The words are the integers from `-2 ^ 31` up to `2 ^ 31 - 1`. -/
inductive IsLiteral : List Char → Int32 → Prop where
  | unsigned {digits : List Char} {word : Int32} (written : IsDigits digits)
      (exact : word.toInt = decimal digits) : IsLiteral digits word
  | plus {digits : List Char} {word : Int32} (written : IsDigits digits)
      (exact : word.toInt = decimal digits) : IsLiteral ('+' :: digits) word
  | minus {digits : List Char} {word : Int32} (written : IsDigits digits)
      (exact : word.toInt = -(decimal digits : Int)) :
      IsLiteral ('-' :: digits) word

/-! ### Reading digits -/

theorem le_ofDigitChars (digits : List Char) (value : Nat) :
    value ≤ Nat.ofDigitChars 10 digits value := by
  induction digits generalizing value with
  | nil => simp
  | cons c rest ih =>
      rw [Nat.ofDigitChars_cons]
      have larger := ih (10 * value + (c.toNat - '0'.toNat))
      omega

/-- The partial numbers are within the bound when the whole number is. -/
theorem readDigits_eq_ok_iff (bound : Nat) (overflow : NumeralFault)
    (digits : List Char) (value result : Nat) (within : value ≤ bound) :
    readDigits bound overflow value digits = .ok result ↔
      (∀ c ∈ digits, c.isDigit = true) ∧
        Nat.ofDigitChars 10 digits value = result ∧ result ≤ bound := by
  induction digits generalizing value with
  | nil =>
      simp only [readDigits, Except.ok.injEq, List.not_mem_nil,
        Nat.ofDigitChars_nil]
      constructor
      · intro equality
        subst equality
        exact ⟨fun _ impossible => impossible.elim, rfl, within⟩
      · intro accepted
        exact accepted.2.1
  | cons c rest ih =>
      rw [readDigits, Nat.ofDigitChars_cons]
      by_cases digit : c.isDigit = true
      · by_cases nextWithin : 10 * value + digitValue c ≤ bound
        · simp only [digit, nextWithin, if_true]
          rw [ih _ nextWithin]
          simp [digit, digitValue]
        · simp only [digit, nextWithin, if_true, if_false]
          constructor
          · intro impossible
            contradiction
          · intro parts
            obtain ⟨_, equality, resultWithin⟩ := parts
            have larger := le_ofDigitChars rest (10 * value + digitValue c)
            rw [digitValue, equality] at larger
            exact absurd (Nat.le_trans larger resultWithin) nextWithin
      · simp [digit]

theorem readMagnitude_eq_ok_iff (bound : Nat) (overflow : NumeralFault)
    (digits : List Char) (result : Nat) :
    readMagnitude bound overflow digits = .ok result ↔
      IsDigits digits ∧ decimal digits = result ∧ result ≤ bound := by
  cases digits with
  | nil => simp [readMagnitude, IsDigits]
  | cons c rest =>
      simp only [readMagnitude, List.isEmpty_cons, Bool.false_eq_true, if_false]
      rw [readDigits_eq_ok_iff bound overflow (c :: rest) 0 result
        (Nat.zero_le bound)]
      simp [IsDigits, decimal]

/-! ### Reading literals -/

theorem ofInt_eq_iff_of_range {value : Int} (low : -2 ^ 31 ≤ value)
    (high : value < 2 ^ 31) (word : Int32) :
    Int32.ofInt value = word ↔ word.toInt = value := by
  constructor
  · intro equality
    subst equality
    exact Int32.toInt_ofInt_of_le low high
  · intro equality
    rw [← equality]
    exact Int32.ofInt_toInt word

theorem map_readMagnitude_eq_ok_iff (bound : Nat) (overflow : NumeralFault)
    (digits : List Char) (toWord : Nat → Int32) (word : Int32) :
    (readMagnitude bound overflow digits).map toWord = .ok word ↔
      IsDigits digits ∧ decimal digits ≤ bound ∧
        toWord (decimal digits) = word := by
  have readable := readMagnitude_eq_ok_iff bound overflow digits
  cases outcome : readMagnitude bound overflow digits with
  | error fault =>
      simp only [Except.map, reduceCtorEq, false_iff]
      intro parts
      obtain ⟨written, within, _⟩ := parts
      have accepted := (readable (decimal digits)).mpr ⟨written, rfl, within⟩
      rw [outcome] at accepted
      contradiction
  | ok magnitude =>
      obtain ⟨written, equality, within⟩ := (readable magnitude).mp outcome
      subst equality
      simp [Except.map, written, within]

theorem readPositive_eq_ok_iff (digits : List Char) (word : Int32) :
    ((readMagnitude wordMax .tooLarge digits).map
        fun magnitude : Nat => Int32.ofInt (magnitude : Int)) = .ok word ↔
      IsDigits digits ∧ word.toInt = decimal digits := by
  rw [map_readMagnitude_eq_ok_iff]
  constructor
  · intro parts
    obtain ⟨written, within, equality⟩ := parts
    refine ⟨written, (ofInt_eq_iff_of_range ?_ ?_ word).mp equality⟩
    · omega
    · unfold wordMax at within
      omega
  · intro parts
    obtain ⟨written, exact⟩ := parts
    have high := word.toInt_lt
    rw [exact] at high
    refine ⟨written, ?_, (ofInt_eq_iff_of_range ?_ high word).mpr exact⟩
    · unfold wordMax
      omega
    · omega

theorem readNegative_eq_ok_iff (digits : List Char) (word : Int32) :
    ((readMagnitude wordMinMagnitude .tooSmall digits).map
        fun magnitude : Nat => Int32.ofInt (-(magnitude : Int))) = .ok word ↔
      IsDigits digits ∧ word.toInt = -(decimal digits : Int) := by
  rw [map_readMagnitude_eq_ok_iff]
  constructor
  · intro parts
    obtain ⟨written, within, equality⟩ := parts
    refine ⟨written, (ofInt_eq_iff_of_range ?_ ?_ word).mp equality⟩
    · unfold wordMinMagnitude at within
      omega
    · omega
  · intro parts
    obtain ⟨written, exact⟩ := parts
    have low := word.le_toInt
    rw [exact] at low
    refine ⟨written, ?_, (ofInt_eq_iff_of_range low ?_ word).mpr exact⟩
    · unfold wordMinMagnitude
      omega
    · omega

theorem IsDigits.head_ne {digits : List Char} (written : IsDigits digits)
    {sign : Char} (noDigit : sign.isDigit = false) (rest : List Char) :
    digits ≠ sign :: rest := by
  intro equality
  have digit := written.2 sign (by rw [equality]; exact List.mem_cons_self)
  rw [noDigit] at digit
  contradiction

theorem readWord_eq_ok_iff (text : List Char) (word : Int32) :
    readWord text = .ok word ↔ IsLiteral text word := by
  unfold readWord
  split
  · constructor
    · intro impossible
      contradiction
    · intro literal
      cases literal with
      | unsigned written _ => exact absurd rfl written.1
  · next digits =>
      rw [readNegative_eq_ok_iff]
      constructor
      · intro parts
        obtain ⟨written, exact⟩ := parts
        exact .minus written exact
      · intro literal
        cases literal with
        | unsigned written _ => exact absurd rfl (written.head_ne (by decide) _)
        | minus written exact => exact ⟨written, exact⟩
  · next digits =>
      rw [readPositive_eq_ok_iff]
      constructor
      · intro parts
        obtain ⟨written, exact⟩ := parts
        exact .plus written exact
      · intro literal
        cases literal with
        | unsigned written _ => exact absurd rfl (written.head_ne (by decide) _)
        | plus written exact => exact ⟨written, exact⟩
  · next notEmpty notMinus notPlus =>
      rw [readPositive_eq_ok_iff]
      constructor
      · intro parts
        obtain ⟨written, exact⟩ := parts
        exact .unsigned written exact
      · intro literal
        cases literal with
        | unsigned written exact => exact ⟨written, exact⟩
        | plus _ _ => exact absurd rfl (notPlus _)
        | minus _ _ => exact absurd rfl (notMinus _)

/-! ### Writing literals -/

theorem isDigits_toDigits (value : Nat) : IsDigits (Nat.toDigits 10 value) :=
  ⟨Nat.toDigits_ne_nil,
    fun _ member => Nat.isDigit_of_mem_toDigits (by decide) (by decide) member⟩

theorem isLiteral_writeWord (word : Int32) :
    IsLiteral (writeWord word).toList word := by
  unfold writeWord
  split
  · next magnitude exact =>
      rw [writeNat, String.toList_ofList]
      refine .unsigned (isDigits_toDigits magnitude) ?_
      rw [exact, decimal, Nat.ofDigitChars_ten_toDigits]
      rfl
  · next below exact =>
      have written : ("-" ++ writeNat (below + 1)).toList =
          '-' :: Nat.toDigits 10 (below + 1) := by
        simp [writeNat]
      rw [written]
      refine .minus (isDigits_toDigits (below + 1)) ?_
      rw [exact, decimal, Nat.ofDigitChars_ten_toDigits]
      rfl

end Text
end RegisterMachine
