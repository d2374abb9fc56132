/-
Texts in the order of their bytes.

The encoding of a character is a lead byte, greater for longer encodings, and then
digits to the base 64, so texts compare byte by byte exactly as they compare
character by character.
-/

import RegisterMachine.Text.Line

namespace RegisterMachine
namespace Text

def bytes (text : String) : List UInt8 :=
  text.toUTF8.data.toList

theorem bytes_eq_flatMap (text : String) :
    bytes text = text.toList.flatMap String.utf8EncodeChar := by
  rw [bytes, String.toUTF8_eq_toByteArray, ← String.utf8Encode_toList,
    List.utf8Encode, List.toList_data_toByteArray]

/-! ### The encoding of a character -/

theorem cons_ofNat_lt {left right : Nat} (less : left < right)
    (small : right < 256) (rest other : List UInt8) :
    UInt8.ofNat left :: rest < UInt8.ofNat right :: other := by
  rw [List.cons_lt_cons_iff]
  left
  rw [UInt8.lt_iff_toNat_lt, UInt8.toNat_ofNat_of_lt' (Nat.lt_trans less small),
    UInt8.toNat_ofNat_of_lt' small]
  exact less

/-- The lesser number has the lesser bytes, whatever follows them. -/
def RisingBelow (bound : Nat) (write : Nat → List UInt8) : Prop :=
  ∀ left right : Nat, left < right → right < bound →
    ∀ rest other, write left ++ rest < write right ++ other

theorem risingBelow_lead (size base : Nat) (fits : size + base ≤ 256) :
    RisingBelow size fun value => [UInt8.ofNat (value % size + base)] := by
  intro left right less below rest other
  apply cons_ofNat_lt
  · rw [Nat.mod_eq_of_lt below, Nat.mod_eq_of_lt (Nat.lt_trans less below)]
    omega
  · rw [Nat.mod_eq_of_lt below]
    omega

/-- A further digit decides between numbers that agree without it. -/
theorem RisingBelow.digit {bound : Nat} {write : Nat → List UInt8}
    (rising : RisingBelow bound write) :
    RisingBelow (bound * 64) fun value =>
      write (value / 64) ++ [UInt8.ofNat (value % 64 + 128)] := by
  intro left right less below rest other
  rw [List.append_assoc, List.append_assoc]
  rcases Nat.lt_or_ge (left / 64) (right / 64) with higher | same
  · exact rising _ _ higher (Nat.div_lt_of_lt_mul (by omega)) _ _
  · have agree : left / 64 = right / 64 := by omega
    rw [agree]
    apply List.append_left_lt
    exact cons_ofNat_lt (by omega) (by omega) _ _

theorem RisingBelow.orElse {limit bound : Nat} {write writeAbove : Nat → List UInt8}
    (rising : RisingBelow (limit + 1) write)
    (risingAbove : RisingBelow bound writeAbove)
    (apart : ∀ left right : Nat, left ≤ limit → limit < right → right < bound →
      ∀ rest other, write left ++ rest < writeAbove right ++ other) :
    RisingBelow bound fun value =>
      if value ≤ limit then write value else writeAbove value := by
  intro left right less below rest other
  dsimp only
  by_cases high : right ≤ limit
  · rw [if_pos high, if_pos (by omega)]
    exact rising left right less (by omega) rest other
  · rw [if_neg high]
    by_cases low : left ≤ limit
    · rw [if_pos low]
      exact apart left right low (by omega) below rest other
    · rw [if_neg low]
      exact risingAbove left right less below rest other

def encoding (value : Nat) : List UInt8 :=
  if value ≤ 127 then [UInt8.ofNat value]
  else if value ≤ 2047 then
    [UInt8.ofNat (value / 64 % 32 + 192), UInt8.ofNat (value % 64 + 128)]
  else if value ≤ 65535 then
    [UInt8.ofNat (value / 4096 % 16 + 224), UInt8.ofNat (value / 64 % 64 + 128),
      UInt8.ofNat (value % 64 + 128)]
  else
    [UInt8.ofNat (value / 262144 % 8 + 240), UInt8.ofNat (value / 4096 % 64 + 128),
      UInt8.ofNat (value / 64 % 64 + 128), UInt8.ofNat (value % 64 + 128)]

theorem utf8EncodeChar_eq_encoding (c : Char) :
    String.utf8EncodeChar c = encoding c.toNat :=
  rfl

theorem risingBelow_encoding : RisingBelow 1114112 encoding := by
  have two := (risingBelow_lead 32 192 (by omega)).digit
  have three := (risingBelow_lead 16 224 (by omega)).digit.digit
  have four := (risingBelow_lead 8 240 (by omega)).digit.digit.digit
  simp only [Nat.div_div_eq_div_mul, Nat.reduceMul] at two three four
  apply RisingBelow.orElse
  · intro left right less below rest other
    exact cons_ofNat_lt less (by omega) rest other
  · apply RisingBelow.orElse two
    · apply RisingBelow.orElse three
      · intro left right less below
        exact four left right less (by omega)
      · intro left right _ _ _ rest other
        exact cons_ofNat_lt (by omega) (by omega) _ _
    · intro left right _ _ _ rest other
      split <;> exact cons_ofNat_lt (by omega) (by omega) _ _
  · intro left right _ _ _ rest other
    split
    · exact cons_ofNat_lt (by omega) (by omega) _ _
    · split <;> exact cons_ofNat_lt (by omega) (by omega) _ _

theorem utf8EncodeChar_append_lt {left right : Char} (less : left < right)
    (rest other : List UInt8) :
    String.utf8EncodeChar left ++ rest < String.utf8EncodeChar right ++ other := by
  have below : right.toNat < 1114112 := by
    rcases right.valid with low | high
    · exact Nat.lt_trans low (by omega)
    · exact high.2
  rw [utf8EncodeChar_eq_encoding, utf8EncodeChar_eq_encoding]
  exact risingBelow_encoding _ _ less below rest other

/-! ### Texts -/

theorem flatMap_utf8EncodeChar_lt {left right : List Char} (less : left < right) :
    left.flatMap String.utf8EncodeChar < right.flatMap String.utf8EncodeChar := by
  induction left generalizing right with
  | nil =>
      cases right with
      | nil => exact absurd less (List.lt_irrefl [])
      | cons c rest =>
          rw [List.flatMap_nil, List.flatMap_cons]
          cases encoded : String.utf8EncodeChar c with
          | nil => exact absurd encoded String.utf8EncodeChar_ne_nil
          | cons byte others => exact List.nil_lt_cons _ _
  | cons c rest ih =>
      cases right with
      | nil => exact absurd less (List.not_lt_nil _)
      | cons d others =>
          rw [List.flatMap_cons, List.flatMap_cons]
          rcases List.cons_lt_cons_iff.mp less with lesser | same
          · exact utf8EncodeChar_append_lt lesser _ _
          · rw [same.1]
            exact List.append_left_lt (ih same.2)

/-- The order of the bytes is the order of the characters. -/
theorem bytes_lt_iff (left right : String) :
    bytes left < bytes right ↔ left.toList < right.toList := by
  rw [bytes_eq_flatMap, bytes_eq_flatMap]
  constructor
  · intro less
    by_cases lesser : left.toList < right.toList
    · exact lesser
    · rcases List.le_iff_lt_or_eq.mp (List.not_lt.mp lesser) with greater | same
      · exact absurd less (List.lt_asymm (flatMap_utf8EncodeChar_lt greater))
      · rw [same] at less
        exact absurd less (List.lt_irrefl _)
  · exact flatMap_utf8EncodeChar_lt

end Text
end RegisterMachine
