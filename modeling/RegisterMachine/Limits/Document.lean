/-
Limits as a JSON document.

A document is an object whose members may come in any order and be missing, or an
array of up to three counts in the order of the fields.  A missing field takes its
standard value.
-/

import RegisterMachine.Json.Layout
import RegisterMachine.Json.Value
import RegisterMachine.Limits

namespace RegisterMachine
namespace Limits

open Json (Token)

inductive Field where
  | sourceSize
  | instructions
  | steps
deriving DecidableEq

def Field.name : Field → String
  | .sourceSize => "max_source_size"
  | .instructions => "max_instructions"
  | .steps => "max_steps"

def Field.ofName? (name : String) : Option Field :=
  [Field.sourceSize, .instructions, .steps].find? fun field => field.name == name

/-! ### Writing -/

def toJson (limits : Limits) : String :=
  Json.Layout.compact.object 0
    [(Field.name .sourceSize, Text.writeNat limits.maxSourceSize),
      (Field.name .instructions, Text.writeNat limits.maxInstructions),
      (Field.name .steps, Text.writeNat limits.maxSteps)]

/-! ### Reading -/

structure Draft where
  sourceSize : Option Nat := none
  instructions : Option Nat := none
  steps : Option Nat := none
deriving DecidableEq

namespace Draft

def put? (draft : Draft) : Field → Nat → Option Draft
  | .sourceSize, count =>
      if draft.sourceSize.isSome then none
      else some { draft with sourceSize := some count }
  | .instructions, count =>
      if draft.instructions.isSome then none
      else some { draft with instructions := some count }
  | .steps, count =>
      if draft.steps.isSome then none
      else some { draft with steps := some count }

def ofCounts? : List Nat → Option Draft
  | [] => some {}
  | [size] => some { sourceSize := some size }
  | [size, instructions] =>
      some { sourceSize := some size, instructions := some instructions }
  | [size, instructions, steps] =>
      some { sourceSize := some size, instructions := some instructions
             steps := some steps }
  | _ => none

def complete (draft : Draft) : Limits :=
  { maxSourceSize := draft.sourceSize.getD standard.maxSourceSize
    maxInstructions := draft.instructions.getD standard.maxInstructions
    maxSteps := draft.steps.getD standard.maxSteps }

end Draft

/-- The value of a field is a plain count; any other value is passed over. -/
def readMember (draft : Draft) (key : String) (tokens : List Token) :
    Option (Draft × List Token) :=
  match Field.ofName? key with
  | none => (Json.skipValue tokens).map fun rest => (draft, rest)
  | some field =>
      match tokens with
      | .number (some count) :: rest =>
          (draft.put? field count).map fun extended => (extended, rest)
      | _ => none

theorem length_readMember {draft extended : Draft} {key : String}
    {tokens rest : List Token}
    (success : readMember draft key tokens = some (extended, rest)) :
    rest.length ≤ tokens.length := by
  unfold readMember at success
  split at success
  · obtain ⟨left, skipped, same⟩ := Option.map_eq_some_iff.1 success
    simp only [Prod.mk.injEq] at same
    rw [← same.2]
    exact Json.length_skipFrom skipped
  · split at success
    · obtain ⟨found, _, same⟩ := Option.map_eq_some_iff.1 success
      simp only [Prod.mk.injEq] at same
      rw [← same.2, List.length_cons]
      exact Nat.le_succ _
    · simp at success

def readMembers : Draft → List Token → Option Draft
  | draft, .text (some key) :: .colon :: tokens =>
      match _found : readMember draft key tokens with
      | some (extended, .comma :: rest) => readMembers extended rest
      | some (extended, [.closeObject]) => some extended
      | _ => none
  | _, _ => none
termination_by _ tokens => tokens.length
decreasing_by
  have shorter := length_readMember _found
  simp only [List.length_cons] at shorter ⊢
  omega

def readCounts : (found : List Nat) → List Token → Option (List Nat)
  | found, .number (some count) :: .comma :: rest =>
      readCounts (count :: found) rest
  | found, [.number (some count), .closeArray] => some (count :: found).reverse
  | _, _ => none

def readDraft : List Token → Option Draft
  | [.openObject, .closeObject] => some {}
  | .openObject :: tokens => readMembers {} tokens
  | [.openArray, .closeArray] => some {}
  | .openArray :: tokens => (readCounts [] tokens).bind Draft.ofCounts?
  | _ => none

/-- A run needs at least one step, so a step limit of zero is refused. -/
def ofJson (text : String) : Except Fault Limits :=
  match (Json.tokens? text.toList).bind readDraft with
  | none => .error (.config .malformedDocument)
  | some draft =>
      let limits := draft.complete
      if limits.maxSteps = 0 then .error (.config .zeroSteps) else .ok limits

end Limits
end RegisterMachine
