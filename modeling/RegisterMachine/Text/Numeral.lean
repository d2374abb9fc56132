/- Decimal numerals.  Reading stops at the first character that cannot be accepted,
so the place of the fault decides which of two faults is reported. -/

namespace RegisterMachine
namespace Text

inductive NumeralFault where
  | empty
  | invalidDigit
  | tooLarge
  | tooSmall
deriving DecidableEq

def NumeralFault.message : NumeralFault → String
  | .empty => "cannot parse integer from empty string"
  | .invalidDigit => "invalid digit found in string"
  | .tooLarge => "number too large to fit in target type"
  | .tooSmall => "number too small to fit in target type"

def digitValue (c : Char) : Nat :=
  c.toNat - '0'.toNat

/-- The first character that does not fit decides the outcome. -/
def readDigits (bound : Nat) (overflow : NumeralFault) :
    Nat → List Char → Except NumeralFault Nat
  | value, [] => .ok value
  | value, c :: rest =>
      if c.isDigit then
        let next := 10 * value + digitValue c
        if next ≤ bound then readDigits bound overflow next rest
        else .error overflow
      else .error .invalidDigit

def readMagnitude (bound : Nat) (overflow : NumeralFault)
    (digits : List Char) : Except NumeralFault Nat :=
  if digits.isEmpty then .error .invalidDigit
  else readDigits bound overflow 0 digits

def wordMax : Nat := 2147483647

def wordMinMagnitude : Nat := 2147483648

def countMax : Nat := 18446744073709551615

/-- Reads a signed 32-bit word: an optional single sign, then digits. -/
def readWord : List Char → Except NumeralFault Int32
  | [] => .error .empty
  | '-' :: digits =>
      (readMagnitude wordMinMagnitude .tooSmall digits).map
        fun magnitude : Nat => Int32.ofInt (-(magnitude : Int))
  | '+' :: digits =>
      (readMagnitude wordMax .tooLarge digits).map
        fun magnitude : Nat => Int32.ofInt (magnitude : Int)
  | digits =>
      (readMagnitude wordMax .tooLarge digits).map
        fun magnitude : Nat => Int32.ofInt (magnitude : Int)

/-- Reads an unsigned 64-bit count: an optional plus sign, then digits. -/
def readCount : List Char → Except NumeralFault Nat
  | [] => .error .empty
  | '+' :: digits => readMagnitude countMax .tooLarge digits
  | digits => readMagnitude countMax .tooLarge digits

def writeNat (value : Nat) : String :=
  String.ofList (Nat.toDigits 10 value)

def writeWord (value : Int32) : String :=
  match value.toInt with
  | .ofNat magnitude => writeNat magnitude
  | .negSucc below => "-" ++ writeNat (below + 1)

/-- Moves a text to the right end of a field of the given width. -/
def alignRight (width : Nat) (text : String) : String :=
  String.ofList (List.replicate (width - text.length) ' ') ++ text

end Text
end RegisterMachine
