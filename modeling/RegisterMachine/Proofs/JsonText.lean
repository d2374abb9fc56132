/-
JSON texts.

The grammar of JSON values is stated on characters, without reading from left to
right.  The readers of strings and of numbers take exactly what the grammar gives
them, in front of anything that cannot go on with it.
-/

import Mathlib.Algebra.Group.Nat.Defs
import Mathlib.Data.List.Basic
import RegisterMachine.Json.Layout
import RegisterMachine.Json.Token
import RegisterMachine.Proofs.Literal

namespace RegisterMachine
namespace Json

open Text (IsDigits decimal)

/-! ### Strings -/

def HexDigit (c : Char) (value : Nat) : Prop :=
  "0123456789abcdef".toList[value]? = some c ∨
    "0123456789ABCDEF".toList[value]? = some c

def escapes : List (Char × Char) :=
  [('"', '"'), ('\\', '\\'), ('/', '/'), ('b', '\x08'), ('f', '\x0c'),
    ('n', '\n'), ('r', '\r'), ('t', '\t')]

inductive StringBody : List Char → List Piece → Prop where
  | nil : StringBody [] []
  | plain {c : Char} {rest : List Char} {pieces : List Piece}
      (notQuote : c ≠ '"') (notEscape : c ≠ '\\') (printable : 0x20 ≤ c.toNat)
      (others : StringBody rest pieces) :
      StringBody (c :: rest) (.char c :: pieces)
  | escape {letter meant : Char} {rest : List Char} {pieces : List Piece}
      (known : (letter, meant) ∈ escapes) (others : StringBody rest pieces) :
      StringBody ('\\' :: letter :: rest) (.char meant :: pieces)
  | codeUnit {a b c d : Char} {first second third fourth : Nat}
      {rest : List Char} {pieces : List Piece} (highest : HexDigit a first)
      (higher : HexDigit b second) (lower : HexDigit c third)
      (lowest : HexDigit d fourth) (others : StringBody rest pieces) :
      StringBody ('\\' :: 'u' :: a :: b :: c :: d :: rest)
        (.codeUnit (4096 * first + 256 * second + 16 * third + fourth) :: pieces)

/-- Units of a surrogate pair spell one character together, and none on their own. -/
inductive Spells : List Piece → List Char → Prop where
  | nil : Spells [] []
  | char {c : Char} {pieces : List Piece} {text : List Char}
      (others : Spells pieces text) : Spells (.char c :: pieces) (c :: text)
  | codeUnit {value : Nat} {pieces : List Piece} {text : List Char}
      (single : value < 0xD800 ∨ 0xDFFF < value) (others : Spells pieces text) :
      Spells (.codeUnit value :: pieces) (Char.ofNat value :: text)
  | pair {high low : Nat} {pieces : List Piece} {text : List Char}
      (isHigh : 0xD800 ≤ high ∧ high ≤ 0xDBFF)
      (isLow : 0xDC00 ≤ low ∧ low ≤ 0xDFFF) (others : Spells pieces text) :
      Spells (.codeUnit high :: .codeUnit low :: pieces)
        (Char.ofNat (0x10000 + (high - 0xD800) * 0x400 + (low - 0xDC00)) :: text)

/-! ### Numbers -/

def IsWhole (digits : List Char) : Prop :=
  digits = ['0'] ∨ IsDigits digits ∧ digits.head? ≠ some '0'

inductive IsFraction : List Char → Prop where
  | absent : IsFraction []
  | present {digits : List Char} (written : IsDigits digits) :
      IsFraction ('.' :: digits)

inductive IsExponent : List Char → Prop where
  | absent : IsExponent []
  | present {mark : Char} {sign digits : List Char} (marked : mark = 'e' ∨ mark = 'E')
      (signed : sign = [] ∨ sign = ['+'] ∨ sign = ['-'])
      (written : IsDigits digits) : IsExponent (mark :: (sign ++ digits))

inductive IsNumber : List Char → Prop where
  | mk {sign whole fraction exponent : List Char} (signed : sign = [] ∨ sign = ['-'])
      (isWhole : IsWhole whole) (isFraction : IsFraction fraction)
      (isExponent : IsExponent exponent) :
      IsNumber (sign ++ (whole ++ (fraction ++ exponent)))

/-- An unsigned integer of at most sixty-four bits. -/
def IsCount (text : List Char) : Prop :=
  IsWhole text ∧ decimal text < 2 ^ 64

/-! ### Values -/

def keywords : List (List Char) :=
  [['t', 'r', 'u', 'e'], ['f', 'a', 'l', 's', 'e'], ['n', 'u', 'l', 'l']]

def IsGap (gap : List Char) : Prop :=
  ∀ c ∈ gap, c = ' ' ∨ c = '\t' ∨ c = '\n' ∨ c = '\r'

structure Layout.IsSpaced (layout : Layout) : Prop where
  lineBreak (depth : Nat) : IsGap (layout.lineBreak depth).toList
  afterColon : IsGap layout.afterColon.toList

def Padded (text padded : List Char) : Prop :=
  ∃ before after, IsGap before ∧ IsGap after ∧ padded = before ++ (text ++ after)

/-- The parts of a text: a value, with its count if it is one; the items of an
array; the members of an object, each with the pieces of its key and the count
of its value. -/
inductive Form where
  | value (count : Option Nat)
  | items
  | members (entries : List (List Piece × Option Nat))

inductive Written : Form → List Char → Prop where
  | text {body : List Char} {pieces : List Piece}
      (spelled : StringBody body pieces) :
      Written (.value none) ('"' :: (body ++ ['"']))
  | count {digits : List Char} (plain : IsCount digits) :
      Written (.value (some (decimal digits))) digits
  | number {text : List Char} (isNumber : IsNumber text) (other : ¬IsCount text) :
      Written (.value none) text
  | keyword {word : List Char} (known : word ∈ keywords) :
      Written (.value none) word
  | emptyArray {gap : List Char} (space : IsGap gap) :
      Written (.value none) ('[' :: (gap ++ [']']))
  | array {inner : List Char} (items : Written .items inner) :
      Written (.value none) ('[' :: (inner ++ [']']))
  | emptyObject {gap : List Char} (space : IsGap gap) :
      Written (.value none) ('\x7b' :: (gap ++ ['\x7d']))
  | object {inner : List Char} {entries : List (List Piece × Option Nat)}
      (members : Written (.members entries) inner) :
      Written (.value none) ('\x7b' :: (inner ++ ['\x7d']))
  | lastItem {text item : List Char} {count : Option Nat}
      (value : Written (.value count) text) (padded : Padded text item) :
      Written .items item
  | item {text item rest : List Char} {count : Option Nat}
      (value : Written (.value count) text) (padded : Padded text item)
      (others : Written .items rest) : Written .items (item ++ ',' :: rest)
  | lastMember {body key text item : List Char} {pieces : List Piece}
      {count : Option Nat} (spelled : StringBody body pieces)
      (keyPadded : Padded ('"' :: (body ++ ['"'])) key)
      (value : Written (.value count) text) (padded : Padded text item) :
      Written (.members [(pieces, count)]) (key ++ ':' :: item)
  | member {body key text item rest : List Char} {pieces : List Piece}
      {count : Option Nat} {entries : List (List Piece × Option Nat)}
      (spelled : StringBody body pieces)
      (keyPadded : Padded ('"' :: (body ++ ['"'])) key)
      (value : Written (.value count) text) (padded : Padded text item)
      (others : Written (.members entries) rest) :
      Written (.members ((pieces, count) :: entries))
        (key ++ ':' :: (item ++ ',' :: rest))

/-! ### Space -/

theorem isGap_nil : IsGap [] := by
  simp [IsGap]

theorem IsGap.isSpace {gap : List Char} (space : IsGap gap) {c : Char}
    (member : c ∈ gap) : isSpace c = true := by
  rcases space c member with rfl | rfl | rfl | rfl <;> rfl

theorem isSpaced_compact : Layout.compact.IsSpaced :=
  ⟨fun _ => isGap_nil, isGap_nil⟩

theorem isSpaced_indented : Layout.indented.IsSpaced := by
  constructor
  · intro depth c member
    simp only [Layout.indented, String.toList_append, String.toList_ofList,
      List.mem_append, List.mem_replicate] at member
    rcases member with feed | blank
    · exact .inr (.inr (.inl (List.mem_singleton.mp feed)))
    · exact .inl blank.2
  · intro c member
    exact .inl (List.mem_singleton.mp member)

/-! ### Reading strings -/

theorem hexValue?_of_hexDigit {c : Char} {value : Nat}
    (digit : HexDigit c value) : hexValue? c = some value := by
  have table : ∀ below < 16,
      ∀ letters ∈ ["0123456789abcdef", "0123456789ABCDEF"],
        letters.toList[below]?.bind hexValue? = some below := by
    decide
  rcases digit with found | found
  · have below := (List.getElem?_eq_some_iff.mp found).1
    have read := table value below _ (List.mem_cons_self)
    rw [found] at read
    exact read
  · have below := (List.getElem?_eq_some_iff.mp found).1
    have read := table value below _
      (List.mem_cons_of_mem _ (List.mem_singleton_self _))
    rw [found] at read
    exact read

theorem escaped?_of_mem {letter meant : Char}
    (known : (letter, meant) ∈ escapes) :
    escaped? letter = some meant ∧ letter ≠ 'u' := by
  have table : ∀ entry ∈ escapes,
      escaped? entry.1 = some entry.2 ∧ entry.1 ≠ 'u' := by
    decide
  exact table _ known

theorem readString_of_stringBody {body : List Char} {pieces : List Piece}
    (spelled : StringBody body pieces) (found : List Piece) (rest : List Char) :
    readString found (body ++ '"' :: rest) =
      some (found.reverse ++ pieces, rest) := by
  induction spelled generalizing found with
  | nil => simp [readString]
  | plain notQuote notEscape printable others ih =>
      rw [List.cons_append, readString]
      · rw [if_neg (Nat.not_lt_of_le printable), ih]
        simp
      · exact notQuote
      · intro _ _ _ _ _ same _
        exact notEscape same
      · intro _ _ same _
        exact notEscape same
  | escape known others ih =>
      obtain ⟨stands, notUnit⟩ := escaped?_of_mem known
      rw [List.cons_append, List.cons_append, readString]
      · simp [stands, ih]
      · intro _ _ _ _ _ same _
        exact notUnit same
  | codeUnit highest higher lower lowest others ih =>
      simp only [List.cons_append, readString, codeUnit?,
        hexValue?_of_hexDigit highest, hexValue?_of_hexDigit higher,
        hexValue?_of_hexDigit lower, hexValue?_of_hexDigit lowest]
      simp [ih]
      omega

theorem spell_of_spells {pieces : List Piece} {text : List Char}
    (spells : Spells pieces text) (found : List Char) :
    spell found pieces = some (found.reverse ++ text) := by
  induction spells generalizing found with
  | nil => simp [spell]
  | char others ih =>
      rw [spell, ih]
      simp
  | @codeUnit value pieces text single others ih =>
      have notHigh : isHighSurrogate value = false := by
        simp [isHighSurrogate]
        omega
      have notLow : isLowSurrogate value = false := by
        simp [isLowSurrogate]
        omega
      have rest : spell (Char.ofNat value :: found) pieces =
          some (found.reverse ++ Char.ofNat value :: text) := by
        rw [ih]
        simp
      -- the reader looks one piece ahead, for the other half of a pair
      cases pieces with
      | nil => simpa [spell, notHigh, notLow] using rest
      | cons next later =>
          cases next <;> simpa [spell, notHigh, notLow] using rest
  | @pair high low pieces text isHigh isLow others ih =>
      have first : isHighSurrogate high = true := by
        simpa [isHighSurrogate] using isHigh
      have second : isLowSurrogate low = true := by
        simpa [isLowSurrogate] using isLow
      rw [spell, if_pos first, if_pos second, ih, pairedChar]
      simp

/-! ### Reading numbers -/

theorem IsWhole.isDigits {digits : List Char} (isWhole : IsWhole digits) :
    IsDigits digits := by
  rcases isWhole with zero | other
  · rw [zero]
    simp [IsDigits]
  · exact other.1

/-- What cannot go on with a number. -/
def Stops (rest : List Char) : Prop :=
  ∀ c ∈ rest.head?, c.isDigit = false ∧ c ≠ '.' ∧ c ≠ 'e' ∧ c ≠ 'E'

theorem someDigits_append {digits rest : List Char} (written : IsDigits digits)
    (ends : ∀ c ∈ rest.head?, c.isDigit = false) :
    someDigits (digits ++ rest) = some (digits, rest) := by
  have none : rest.takeWhile Char.isDigit = [] ∧
      rest.dropWhile Char.isDigit = rest := by
    cases rest with
    | nil => exact ⟨rfl, rfl⟩
    | cons c later =>
        have noDigit := ends c rfl
        simp [noDigit]
  rw [someDigits, List.takeWhile_append_of_pos written.2,
    List.dropWhile_append_of_pos written.2, none.1, none.2, List.append_nil,
    if_neg (by simpa using written.1)]

theorem wholePart_append {whole rest : List Char} (isWhole : IsWhole whole)
    (ends : ∀ c ∈ rest.head?, c.isDigit = false) :
    wholePart (whole ++ rest) = some (whole, rest) := by
  rcases isWhole with zero | ⟨written, other⟩
  · rw [zero]
    rfl
  · cases whole with
    | nil => exact absurd rfl written.1
    | cons c later =>
        rw [List.head?_cons, ne_eq, Option.some.injEq] at other
        rw [List.cons_append, wholePart]
        · exact someDigits_append written ends
        · intro _ same
          exact other (List.cons.inj same).1

theorem fractionPart_append {fraction rest : List Char}
    (isFraction : IsFraction fraction)
    (ends : ∀ c ∈ rest.head?, c.isDigit = false ∧ c ≠ '.') :
    fractionPart (fraction ++ rest) = some (!fraction.isEmpty, rest) := by
  cases isFraction with
  | absent =>
      cases rest with
      | nil => rfl
      | cons c later =>
          rw [List.nil_append, fractionPart]
          · rfl
          · intro _ same
            exact (ends c rfl).2 (List.cons.inj same).1
  | present written =>
      have digits := someDigits_append written fun c first => (ends c first).1
      simp [fractionPart, digits]

theorem dropSign_append {sign digits : List Char}
    (signed : sign = [] ∨ sign = ['+'] ∨ sign = ['-'])
    (written : IsDigits digits) (rest : List Char) :
    dropSign (sign ++ digits ++ rest) = digits ++ rest := by
  rcases signed with rfl | rfl | rfl
  · cases digits with
    | nil => exact absurd rfl written.1
    | cons c later =>
        have digit : c.isDigit = true := written.2 c List.mem_cons_self
        rw [List.nil_append, List.cons_append, dropSign]
        · intro _ same
          rw [(List.cons.inj same).1] at digit
          contradiction
        · intro _ same
          rw [(List.cons.inj same).1] at digit
          contradiction
  · rfl
  · rfl

theorem exponentPart_append {exponent rest : List Char}
    (isExponent : IsExponent exponent) (stops : Stops rest) :
    exponentPart (exponent ++ rest) = some (!exponent.isEmpty, rest) := by
  cases isExponent with
  | absent =>
      cases rest with
      | nil => rfl
      | cons c later =>
          obtain ⟨_, _, notSmall, notCapital⟩ := stops c rfl
          rw [List.nil_append, exponentPart]
          · rfl
          · intro _ same
            exact notSmall (List.cons.inj same).1
          · intro _ same
            exact notCapital (List.cons.inj same).1
  | @present mark sign digits marked signed written =>
      have digitsRead :=
        someDigits_append written fun c first => (stops c first).1
      have unsigned := dropSign_append signed written rest
      rcases marked with rfl | rfl
      · simp only [List.cons_append, exponentPart, unsigned, digitsRead]
        rfl
      · simp only [List.cons_append, exponentPart, unsigned, digitsRead]
        rfl

def unsignedCount (whole fraction exponent : List Char) : Option Nat :=
  if !fraction.isEmpty || !exponent.isEmpty then none
  else (Text.readMagnitude Text.countMax .tooLarge whole).toOption

theorem head?_fraction_append {fraction rest : List Char}
    (isFraction : IsFraction fraction)
    (ends : ∀ c ∈ rest.head?, c.isDigit = false) :
    ∀ c ∈ (fraction ++ rest).head?, c.isDigit = false := by
  cases isFraction with
  | absent => exact ends
  | present _ =>
      intro c first
      cases first
      decide

theorem head?_exponent_append {exponent rest : List Char}
    (isExponent : IsExponent exponent) (stops : Stops rest) :
    ∀ c ∈ (exponent ++ rest).head?, c.isDigit = false ∧ c ≠ '.' := by
  cases isExponent with
  | absent =>
      intro c first
      exact ⟨(stops c first).1, (stops c first).2.1⟩
  | present marked _ _ =>
      intro c first
      cases first
      rcases marked with rfl | rfl <;> decide

theorem unsignedNumber_append {whole fraction exponent rest : List Char}
    (isWhole : IsWhole whole) (isFraction : IsFraction fraction)
    (isExponent : IsExponent exponent) (stops : Stops rest) :
    unsignedNumber (whole ++ (fraction ++ (exponent ++ rest))) =
      some (unsignedCount whole fraction exponent, rest) := by
  have afterFraction := head?_exponent_append isExponent stops
  have afterWhole := head?_fraction_append isFraction
    fun c first => (afterFraction c first).1
  simp only [unsignedNumber, wholePart_append isWhole afterWhole,
    fractionPart_append isFraction afterFraction,
    exponentPart_append isExponent stops, unsignedCount, Option.bind_eq_bind,
    Option.bind_some]
  split <;> rfl

theorem toOption_readMagnitude_eq_some_iff (digits : List Char) (count : Nat) :
    (Text.readMagnitude Text.countMax .tooLarge digits).toOption = some count ↔
      IsDigits digits ∧ decimal digits = count ∧ count < 2 ^ 64 := by
  have readable := Text.readMagnitude_eq_ok_iff Text.countMax .tooLarge digits count
  have bound : count ≤ Text.countMax ↔ count < 2 ^ 64 := by
    unfold Text.countMax
    omega
  rw [bound] at readable
  rw [← readable]
  cases Text.readMagnitude Text.countMax .tooLarge digits with
  | error fault => simp [Except.toOption]
  | ok value => simp [Except.toOption]

theorem unsignedCount_eq_some_iff {whole fraction exponent : List Char}
    (isWhole : IsWhole whole) (isFraction : IsFraction fraction)
    (isExponent : IsExponent exponent) (count : Nat) :
    unsignedCount whole fraction exponent = some count ↔
      IsCount (whole ++ (fraction ++ exponent)) ∧
        decimal (whole ++ (fraction ++ exponent)) = count := by
  have excluded {c : Char} (noDigit : c.isDigit = false)
      (member : c ∈ fraction ++ exponent) :
      ¬IsCount (whole ++ (fraction ++ exponent)) := by
    intro isCount
    have digit := isCount.1.isDigits.2 c (List.mem_append_right _ member)
    rw [noDigit] at digit
    contradiction
  cases isFraction with
  | present _ =>
      have noCount := @excluded '.' (by decide) (by simp)
      simp only [unsignedCount, noCount, List.isEmpty_cons, Bool.not_false,
        Bool.true_or, if_true, reduceCtorEq, false_and]
  | absent =>
      cases isExponent with
      | @present mark _ _ marked _ _ =>
          have noDigit : mark.isDigit = false := by
            rcases marked with rfl | rfl <;> decide
          have noCount := @excluded mark noDigit (by simp)
          simp only [unsignedCount, noCount, List.isEmpty_cons, Bool.not_false,
            Bool.or_true, if_true, reduceCtorEq, false_and]
      | absent =>
          simp only [unsignedCount, List.isEmpty_nil, Bool.not_true, Bool.or_self,
            Bool.false_eq_true, if_false, List.append_nil]
          rw [toOption_readMagnitude_eq_some_iff]
          constructor
          · intro parts
            obtain ⟨_, rfl, small⟩ := parts
            exact ⟨⟨isWhole, small⟩, rfl⟩
          · intro parts
            obtain ⟨isCount, rfl⟩ := parts
            exact ⟨isWhole.isDigits, rfl, isCount.2⟩

end Json
end RegisterMachine
