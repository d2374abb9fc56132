/-
Tokens of a JSON document.

A string token carries its text when its escapes spell characters; a number token
carries its value when it is written as a plain count.
-/

import RegisterMachine.Text.Numeral

namespace RegisterMachine
namespace Json

/-- The text of a string is missing when an escape is half of a surrogate pair; the
count of a number is missing when it is no plain count of sixty-four bits. -/
inductive Token where
  | openObject
  | closeObject
  | openArray
  | closeArray
  | comma
  | colon
  | text (content : Option String)
  | number (count : Option Nat)
  | keyword
deriving DecidableEq

def isSpace (c : Char) : Bool :=
  c == ' ' || c == '\t' || c == '\n' || c == '\r'

/-! ### Strings -/

/-- A piece of a string: a character, or a 16-bit unit given by an escape. -/
inductive Piece where
  | char (c : Char)
  | codeUnit (value : Nat)
deriving DecidableEq

def hexValue? (c : Char) : Option Nat :=
  if c.isDigit then some (c.toNat - '0'.toNat)
  else if 'a' ≤ c && c ≤ 'f' then some (c.toNat - 'a'.toNat + 10)
  else if 'A' ≤ c && c ≤ 'F' then some (c.toNat - 'A'.toNat + 10)
  else none

def codeUnit? (a b c d : Char) : Option Nat := do
  let first ← hexValue? a
  let second ← hexValue? b
  let third ← hexValue? c
  let fourth ← hexValue? d
  pure (((first * 16 + second) * 16 + third) * 16 + fourth)

def escaped? : Char → Option Char
  | '"' => some '"'
  | '\\' => some '\\'
  | '/' => some '/'
  | 'b' => some '\x08'
  | 'f' => some '\x0c'
  | 'n' => some '\n'
  | 'r' => some '\r'
  | 't' => some '\t'
  | _ => none

/-- Reads up to the closing quote; the pieces found stand in reverse. -/
def readString : (found : List Piece) → List Char → Option (List Piece × List Char)
  | _, [] => none
  | found, '"' :: rest => some (found.reverse, rest)
  | found, '\\' :: 'u' :: a :: b :: c :: d :: rest =>
      match codeUnit? a b c d with
      | some value => readString (.codeUnit value :: found) rest
      | none => none
  | found, '\\' :: c :: rest =>
      match escaped? c with
      | some meant => readString (.char meant :: found) rest
      | none => none
  | found, c :: rest =>
      if c.toNat < 0x20 then none else readString (.char c :: found) rest

def isHighSurrogate (value : Nat) : Bool :=
  0xD800 ≤ value && value ≤ 0xDBFF

def isLowSurrogate (value : Nat) : Bool :=
  0xDC00 ≤ value && value ≤ 0xDFFF

def pairedChar (high low : Nat) : Char :=
  Char.ofNat (0x10000 + (high - 0xD800) * 0x400 + (low - 0xDC00))

/-- The units of a surrogate pair must follow each other. -/
def spell : (found : List Char) → List Piece → Option (List Char)
  | found, [] => some found.reverse
  | found, .char c :: rest => spell (c :: found) rest
  | found, .codeUnit high :: .codeUnit low :: rest =>
      if isHighSurrogate high then
        if isLowSurrogate low then spell (pairedChar high low :: found) rest
        else none
      else if isLowSurrogate high then none
      else spell (Char.ofNat high :: found) (.codeUnit low :: rest)
  | found, .codeUnit value :: rest =>
      if isHighSurrogate value || isLowSurrogate value then none
      else spell (Char.ofNat value :: found) rest

/-! ### Numbers -/

def someDigits (text : List Char) : Option (List Char × List Char) :=
  let digits := text.takeWhile Char.isDigit
  if digits.isEmpty then none else some (digits, text.dropWhile Char.isDigit)

def wholePart : List Char → Option (List Char × List Char)
  | '0' :: rest => some (['0'], rest)
  | text => someDigits text

/-- The flag tells whether there was a point. -/
def fractionPart : List Char → Option (Bool × List Char)
  | '.' :: rest => (someDigits rest).map fun split => (true, split.2)
  | text => some (false, text)

def dropSign : List Char → List Char
  | '+' :: rest => rest
  | '-' :: rest => rest
  | text => text

def exponentPart : List Char → Option (Bool × List Char)
  | 'e' :: rest => (someDigits (dropSign rest)).map fun split => (true, split.2)
  | 'E' :: rest => (someDigits (dropSign rest)).map fun split => (true, split.2)
  | text => some (false, text)

def unsignedNumber (text : List Char) : Option (Option Nat × List Char) := do
  let (digits, afterWhole) ← wholePart text
  let (hasFraction, afterFraction) ← fractionPart afterWhole
  let (hasExponent, rest) ← exponentPart afterFraction
  if hasFraction || hasExponent then pure (none, rest)
  else pure ((Text.readMagnitude Text.countMax .tooLarge digits).toOption, rest)

/-! ### Documents -/

/-- What follows a keyword, when the text begins with it. -/
def afterKeyword (keyword text : List Char) : Option (Token × List Char) :=
  if keyword.isPrefixOf text then some (.keyword, text.drop keyword.length)
  else none

def nextToken (first : Char) (rest : List Char) : Option (Token × List Char) :=
  match first with
  | '\x7b' => some (.openObject, rest)
  | '\x7d' => some (.closeObject, rest)
  | '[' => some (.openArray, rest)
  | ']' => some (.closeArray, rest)
  | ',' => some (.comma, rest)
  | ':' => some (.colon, rest)
  | '"' =>
      (readString [] rest).map fun (pieces, left) =>
        (.text ((spell [] pieces).map String.ofList), left)
  | '-' => (unsignedNumber rest).map fun (_, left) => (.number none, left)
  | 't' => afterKeyword ['r', 'u', 'e'] rest
  | 'f' => afterKeyword ['a', 'l', 's', 'e'] rest
  | 'n' => afterKeyword ['u', 'l', 'l'] rest
  | _ =>
      (unsignedNumber (first :: rest)).map fun (count, left) =>
        (.number count, left)

/-! ### What follows a token is shorter -/

theorem length_readString {found pieces : List Piece} {text left : List Char}
    (success : readString found text = some (pieces, left)) :
    left.length < text.length := by
  fun_induction readString found text with
  | case1 => simp at success
  | case2 found rest =>
      simp only [Option.some.injEq, Prod.mk.injEq] at success
      simp [← success.2]
  | case3 found a b c d rest value hexadecimal ih =>
      have shorter := ih success
      simp only [List.length_cons]
      omega
  | case4 => simp at success
  | case5 found c rest notUnit meant known ih =>
      have shorter := ih success
      simp only [List.length_cons]
      omega
  | case6 => simp at success
  | case7 => simp at success
  | case8 found c rest _ _ _ printable ih =>
      have shorter := ih success
      simp only [List.length_cons]
      omega

theorem length_someDigits {text digits left : List Char}
    (success : someDigits text = some (digits, left)) :
    left.length < text.length := by
  cases text with
  | nil => simp [someDigits] at success
  | cons c rest =>
      by_cases digit : c.isDigit = true
      · simp only [someDigits, List.takeWhile_cons, digit, if_true,
          List.isEmpty_cons, Bool.false_eq_true, if_false, Option.some.injEq,
          Prod.mk.injEq, List.dropWhile_cons] at success
        rw [← success.2]
        exact Nat.lt_succ_of_le (List.dropWhile_suffix Char.isDigit).length_le
      · simp [someDigits, digit] at success

theorem length_wholePart {text digits left : List Char}
    (success : wholePart text = some (digits, left)) :
    left.length < text.length := by
  unfold wholePart at success
  split at success
  · simp only [Option.some.injEq, Prod.mk.injEq] at success
    simp [← success.2]
  · exact length_someDigits success

theorem length_fractionPart {text left : List Char} {present : Bool}
    (success : fractionPart text = some (present, left)) :
    left.length ≤ text.length := by
  unfold fractionPart at success
  split at success
  · rename_i rest
    obtain ⟨⟨digits, after⟩, found, same⟩ := Option.map_eq_some_iff.1 success
    have shorter := length_someDigits found
    simp only [Prod.mk.injEq] at same
    rw [← same.2, List.length_cons]
    omega
  · simp only [Option.some.injEq, Prod.mk.injEq] at success
    exact Nat.le_of_eq (congrArg List.length success.2.symm)

theorem length_dropSign (text : List Char) :
    (dropSign text).length ≤ text.length := by
  unfold dropSign
  split <;> simp

theorem length_exponentPart {text left : List Char} {present : Bool}
    (success : exponentPart text = some (present, left)) :
    left.length ≤ text.length := by
  unfold exponentPart at success
  split at success
  · rename_i rest
    obtain ⟨⟨digits, after⟩, found, same⟩ := Option.map_eq_some_iff.1 success
    have shorter := length_someDigits found
    have unsigned := length_dropSign rest
    simp only [Prod.mk.injEq] at same
    rw [← same.2, List.length_cons]
    omega
  · rename_i rest
    obtain ⟨⟨digits, after⟩, found, same⟩ := Option.map_eq_some_iff.1 success
    have shorter := length_someDigits found
    have unsigned := length_dropSign rest
    simp only [Prod.mk.injEq] at same
    rw [← same.2, List.length_cons]
    omega
  · simp only [Option.some.injEq, Prod.mk.injEq] at success
    exact Nat.le_of_eq (congrArg List.length success.2.symm)

theorem length_unsignedNumber {text left : List Char} {count : Option Nat}
    (success : unsignedNumber text = some (count, left)) :
    left.length < text.length := by
  simp only [unsignedNumber, Option.bind_eq_bind, Option.bind_eq_some_iff] at success
  obtain ⟨⟨digits, afterWhole⟩, whole, ⟨hasFraction, afterFraction⟩, fraction,
    ⟨hasExponent, rest⟩, exponent, finish⟩ := success
  have first := length_wholePart whole
  have second : afterFraction.length ≤ afterWhole.length :=
    length_fractionPart fraction
  have third : rest.length ≤ afterFraction.length := length_exponentPart exponent
  have same : rest = left := by
    split at finish
    · exact congrArg Prod.snd (Option.some.inj finish)
    · exact congrArg Prod.snd (Option.some.inj finish)
  subst same
  omega

theorem length_nextToken {first : Char} {rest left : List Char} {token : Token}
    (success : nextToken first rest = some (token, left)) :
    left.length ≤ rest.length := by
  have ofKeyword : ∀ keyword : List Char,
      afterKeyword keyword rest = some (token, left) →
        left.length ≤ rest.length := by
    intro keyword found
    unfold afterKeyword at found
    split at found
    · simp only [Option.some.injEq, Prod.mk.injEq] at found
      simp [← found.2]
    · simp at found
  unfold nextToken at success
  split at success
  case h_7 =>
    obtain ⟨⟨pieces, after⟩, found, same⟩ := Option.map_eq_some_iff.1 success
    simp only [Prod.mk.injEq] at same
    have shorter := length_readString found
    rw [← same.2]
    omega
  case h_8 =>
    obtain ⟨⟨count, after⟩, found, same⟩ := Option.map_eq_some_iff.1 success
    simp only [Prod.mk.injEq] at same
    have shorter := length_unsignedNumber found
    rw [← same.2]
    omega
  case h_9 => exact ofKeyword _ success
  case h_10 => exact ofKeyword _ success
  case h_11 => exact ofKeyword _ success
  case h_12 =>
    obtain ⟨⟨count, after⟩, found, same⟩ := Option.map_eq_some_iff.1 success
    simp only [Prod.mk.injEq] at same
    have shorter := length_unsignedNumber found
    rw [List.length_cons] at shorter
    rw [← same.2]
    omega
  all_goals
    simp only [Option.some.injEq, Prod.mk.injEq] at success
    exact Nat.le_of_eq (congrArg List.length success.2.symm)

/-- The tokens found already stand in reverse. -/
def tokensOnto : (found : List Token) → List Char → Option (List Token)
  | found, [] => some found.reverse
  | found, c :: rest =>
      if isSpace c then tokensOnto found rest
      else
        match _found : nextToken c rest with
        | none => none
        | some (token, left) => tokensOnto (token :: found) left
termination_by _ text => text.length
decreasing_by
  · exact Nat.lt_succ_self _
  · exact Nat.lt_succ_of_le (length_nextToken _found)

def tokens? (text : List Char) : Option (List Token) :=
  tokensOnto [] text

end Json
end RegisterMachine
