/-
Programs: a sequence of instructions with the table of their labels.

The label of an instruction is bound to the address the instruction receives, and
an instruction whose label is taken is refused.
-/

import RegisterMachine.Instruction
import RegisterMachine.LabelTable

namespace RegisterMachine

structure Program where
  instructions : Array Instruction
  labels : LabelTable
deriving DecidableEq

namespace Program

def empty : Program := ⟨#[], .empty⟩

instance : Inhabited Program := ⟨empty⟩

/-- The number of instructions, which is also the next free address. -/
def size (program : Program) : Nat := program.instructions.size

def bindLabel (program : Program) : Option String → Except Fault LabelTable
  | none => .ok program.labels
  | some label => program.labels.bind label program.size

def push (program : Program) (instruction : Instruction) :
    Except Fault (Nat × Program) :=
  match program.bindLabel instruction.label with
  | .error fault => .error fault
  | .ok labels =>
      .ok (program.size, ⟨program.instructions.push instruction, labels⟩)

def bindLabelInPlace (program : Program) :
    Option String → Except Fault Unit × Program
  | none => (.ok (), program)
  | some label =>
      let (answer, labels) := program.labels.bindInPlace label program.size
      (answer, { program with labels := labels })

/-- Pushes an instruction in place: the label is bound first, and the instruction
is appended when that succeeded. -/
def offer (program : Program) (instruction : Instruction) :
    Except Fault Nat × Program :=
  match program.bindLabelInPlace instruction.label with
  | (.error fault, after) => (.error fault, after)
  | (.ok _, after) =>
      (.ok program.size,
        { after with instructions := after.instructions.push instruction })

/-- A refused push leaves the program as it was. -/
theorem offer_eq (program : Program) (instruction : Instruction) :
    program.offer instruction =
      match program.push instruction with
      | .ok (address, extended) => (.ok address, extended)
      | .error fault => (.error fault, program) := by
  unfold offer push bindLabel bindLabelInPlace
  cases instruction.label with
  | none => rfl
  | some label =>
      dsimp only
      rw [LabelTable.bindInPlace_eq]
      cases program.labels.bind label program.size with
      | error fault => rfl
      | ok labels => rfl

def ofList (instructions : List Instruction) : Except Fault Program :=
  instructions.foldlM
    (fun program instruction => Prod.snd <$> program.push instruction) empty

def listingLine (address : Nat) (instruction : Instruction) : String :=
  Text.alignRight 4 (Text.writeNat address) ++ "  " ++ instruction.render
    ++ "\n"

def listingLines (instructions : Array Instruction) : List String :=
  (instructions.mapIdx listingLine).toList

def listing (program : Program) : String :=
  String.join (listingLines program.instructions)

end Program
end RegisterMachine
