/-
The state of a machine, and the operations on it that execute nothing.

Labels and program are fixed when the machine is built.  The label table is any
table: its addresses need not lie inside the program.
-/

import RegisterMachine.Limits
import RegisterMachine.Machine.Sink
import RegisterMachine.Program
import RegisterMachine.RegisterFile

namespace RegisterMachine

/-- `steps` counts the instructions executed in this run, and `output` holds the
values put out in it. -/
structure Machine where
  labels : LabelTable
  program : Array Instruction
  registers : RegisterFile
  counter : Nat
  steps : Nat
  output : Array Int32
  limits : Option Limits
  echo : Option Sink

namespace Machine

/-- A machine at address zero with cleared registers, no limits and no echo. -/
def ofParts (labels : LabelTable) (instructions : Array Instruction) :
    Machine :=
  { labels := labels
    program := instructions
    registers := .zero
    counter := 0
    steps := 0
    output := #[]
    limits := none
    echo := none }

def ofProgram (program : Program) : Machine :=
  ofParts program.labels program.instructions

def withLimits (machine : Machine) (limits : Limits) : Machine :=
  { machine with limits := some limits }

def withEcho (machine : Machine) (sink : Sink) : Machine :=
  { machine with echo := some sink }

def setRegister (machine : Machine) (register : Register) (value : Int32) :
    Machine :=
  { machine with registers := machine.registers.set register value }

def clearRegisters (machine : Machine) : Machine :=
  { machine with registers := .zero }

def assign (machine : Machine) (assignments : List (Register × Int32)) :
    Machine :=
  { machine with registers := machine.registers.assign assignments }

def isHalted (machine : Machine) : Bool :=
  machine.program.size ≤ machine.counter

def echoed (machine : Machine) : String :=
  match machine.echo with
  | some sink => sink.text
  | none => ""

/-- Back to the state the machine was built in; limits and echo stay. -/
def reset (machine : Machine) : Machine :=
  { machine with registers := .zero, counter := 0, steps := 0, output := #[] }

/-- Back to address zero with nothing put out; the registers stay. -/
def rewind (machine : Machine) : Machine :=
  { machine with counter := 0, steps := 0, output := #[] }

end Machine
end RegisterMachine
