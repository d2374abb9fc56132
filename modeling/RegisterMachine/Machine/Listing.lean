/- Two texts of a machine: a listing for readers, and a description on one line that
names every part of the state. -/

import RegisterMachine.Machine.State
import RegisterMachine.Text.Quoted

namespace RegisterMachine

open Text (writeNat writeWord quote)

namespace Description

def fields (name : String) (entries : List (String × String)) : String :=
  name ++ " \x7b " ++ ", ".intercalate (entries.map fun entry =>
    entry.1 ++ ": " ++ entry.2) ++ " \x7d"

def items (entries : List String) : String :=
  "[" ++ ", ".intercalate entries ++ "]"

def optional : Option String → String
  | some text => "Some(" ++ text ++ ")"
  | none => "None"

def operation : Operation → String
  | .binary op result source =>
      fields (binaryName op) [("result", result.name), ("source", source.name)]
  | .mov result value =>
      fields "Mov" [("result", result.name), ("value", writeWord value)]
  | .out source => fields "Out" [("source", source.name)]
  | .jmp target => fields "Jmp" [("target", quote target)]
  | .branch test source target =>
      fields (branchName test)
        [("source", source.name), ("target", quote target)]
where
  binaryName : BinaryOp → String
    | .add => "Add"
    | .sub => "Sub"
    | .mul => "Mul"
    | .div => "Div"
    | .cmp => "Cmp"
  branchName : BranchTest → String
    | .nonzero => "Jnz"
    | .zero => "Jz"

def instruction (subject : Instruction) : String :=
  fields "Instruction"
    [("label", optional (subject.label.map quote)),
      ("operation", operation subject.operation)]

def labels (table : LabelTable) : String :=
  fields "Labels"
    [("labels", "\x7b" ++ ", ".intercalate (table.toList.map fun entry =>
      quote entry.1 ++ ": " ++ writeNat entry.2) ++ "\x7d")]

def registers (file : RegisterFile) : String :=
  fields "Registers" [("values", items (file.values.map writeWord))]

def limits (subject : Limits) : String :=
  fields "ExecutionLimits"
    [("max_source_size", writeNat subject.maxSourceSize),
      ("max_instructions", writeNat subject.maxInstructions),
      ("max_steps", writeNat subject.maxSteps)]

end Description

namespace Machine

def listing (machine : Machine) : String :=
  "program:\n" ++ String.join (Program.listingLines machine.program)
    ++ "labels: " ++ machine.labels.render ++ "\n"
    ++ "registers: " ++ machine.registers.render

/-- Two dots stand for the echo sink. -/
def describe (machine : Machine) : String :=
  "Machine \x7b " ++ ", ".intercalate
    ["labels: " ++ Description.labels machine.labels,
      "program: " ++ Description.items
        (machine.program.toList.map Description.instruction),
      "registers: " ++ Description.registers machine.registers,
      "program_counter: " ++ writeNat machine.counter,
      "steps: " ++ writeNat machine.steps,
      "output: " ++ Description.items (machine.output.toList.map writeWord),
      "limits: " ++ Description.optional (machine.limits.map Description.limits),
      ".. \x7d"]

end Machine
end RegisterMachine
