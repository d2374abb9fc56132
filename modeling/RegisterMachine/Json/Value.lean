/-
Passing over a JSON value whose content does not matter.

The arrays and objects that are still open are kept on a stack, and each token
moves the reader from one phase to the next.
-/

import RegisterMachine.Json.Token

namespace RegisterMachine
namespace Json

inductive Enclosure where
  | array
  | object
deriving DecidableEq

inductive Phase where
  | value
  | firstItem
  | firstKey
  | key
  | colon
  | after
deriving DecidableEq

def beginValue (opened : List Enclosure) :
    Token → Option (Phase × List Enclosure)
  | .text _ => some (.after, opened)
  | .number _ => some (.after, opened)
  | .keyword => some (.after, opened)
  | .openArray => some (.firstItem, .array :: opened)
  | .openObject => some (.firstKey, .object :: opened)
  | _ => none

def continueEnclosure :
    List Enclosure → Token → Option (Phase × List Enclosure)
  | .array :: outer, .comma => some (.value, .array :: outer)
  | .array :: outer, .closeArray => some (.after, outer)
  | .object :: outer, .comma => some (.key, .object :: outer)
  | .object :: outer, .closeObject => some (.after, outer)
  | _, _ => none

def transition (opened : List Enclosure) :
    Phase → Token → Option (Phase × List Enclosure)
  | .value, token => beginValue opened token
  | .firstItem, .closeArray => continueEnclosure opened .closeArray
  | .firstItem, token => beginValue opened token
  | .firstKey, .closeObject => continueEnclosure opened .closeObject
  | .firstKey, .text _ => some (.colon, opened)
  | .firstKey, _ => none
  | .key, .text _ => some (.colon, opened)
  | .key, _ => none
  | .colon, .colon => some (.value, opened)
  | .colon, _ => none
  | .after, token => continueEnclosure opened token

def skipFrom : Phase → List Enclosure → List Token → Option (List Token)
  | .after, [], tokens => some tokens
  | _, _, [] => none
  | phase, opened, token :: rest =>
      match transition opened phase token with
      | some (next, stillOpened) => skipFrom next stillOpened rest
      | none => none

def skipValue (tokens : List Token) : Option (List Token) :=
  skipFrom .value [] tokens

theorem length_skipFrom {phase : Phase} {opened : List Enclosure}
    {tokens left : List Token} (success : skipFrom phase opened tokens = some left) :
    left.length ≤ tokens.length := by
  fun_induction skipFrom phase opened tokens with
  | case1 tokens =>
      exact Nat.le_of_eq (congrArg List.length (Option.some.inj success).symm)
  | case2 => simp at success
  | case3 phase opened token rest _ next stillOpened moved ih =>
      exact Nat.le_succ_of_le (ih success)
  | case4 => simp at success

end Json
end RegisterMachine
