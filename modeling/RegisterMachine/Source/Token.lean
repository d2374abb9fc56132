/-
Tokens of a source line.

A number sign ends the line for the reader.  What is left is split at blanks, and
each colon is a token of its own.
-/

import RegisterMachine.Fault
import RegisterMachine.Text.Blank

namespace RegisterMachine
namespace Source

structure Token where
  text : String
  place : Place
deriving DecidableEq

def isWordChar (c : Char) : Bool :=
  !(Text.isBlank c || c == ':')

def uncommented (line : List Char) : List Char :=
  line.takeWhile (· != '#')

/-- `column` is that of the first character left; tokens found stand in reverse. -/
def scanOnto (line : Nat) :
    (found : List Token) → (column : Nat) → List Char → List Token
  | found, _, [] => found.reverse
  | found, column, c :: rest =>
      if Text.isBlank c then scanOnto line found (column + 1) rest
      else if c == ':' then
        scanOnto line (⟨":", ⟨line, column⟩⟩ :: found) (column + 1) rest
      else
        let word := c :: rest.takeWhile isWordChar
        scanOnto line (⟨String.ofList word, ⟨line, column⟩⟩ :: found)
          (column + word.length) (rest.dropWhile isWordChar)
termination_by _ _ characters => characters.length
decreasing_by
  · exact Nat.lt_succ_self _
  · exact Nat.lt_succ_self _
  · exact Nat.lt_succ_of_le (List.dropWhile_suffix isWordChar).length_le

def scan (line : Nat) (text : List Char) : List Token :=
  scanOnto line [] 1 (uncommented text)

end Source
end RegisterMachine
