/-
Executing one instruction.

`perform` carries out an operation and says where control goes.  `step` checks the
step limit first, counts the instruction once it was carried out, and then moves
the counter.
-/

import RegisterMachine.Machine.State

namespace RegisterMachine

inductive Directive where
  | next
  | jump (address : Nat)
deriving DecidableEq

/-- There is no new counter when a jump led past the end of the program. -/
structure Event where
  address : Nat
  instruction : Instruction
  jumped : Bool
  counter : Option Nat
deriving DecidableEq

/-- A failed step may still have carried out its instruction. -/
inductive StepResult where
  | idle
  | ran (event : Event)
  | failed (fault : Fault) (event : Option Event)
deriving DecidableEq

def StepResult.more (after : Machine) : StepResult → Except Fault Bool
  | .idle => .ok false
  | .ran _ => .ok !after.isHalted
  | .failed fault _ => .error fault

namespace Machine

/-! ### Operations -/

/-- The value stays in the output when the sink refuses the line. -/
def emit (machine : Machine) (value : Int32) :
    Except Fault Directive × Machine :=
  let emitted := { machine with output := machine.output.push value }
  match emitted.echo with
  | none => (.ok .next, emitted)
  | some sink =>
      match sink.offer (Text.writeWord value ++ "\n") with
      | (none, after) => (.ok .next, { emitted with echo := some after })
      | (some fault, after) =>
          (.error (.io fault), { emitted with echo := some after })

/-- Takes a jump: only now is the target looked up. -/
def follow (machine : Machine) (target : String) :
    Except Fault Directive × Machine :=
  match machine.labels.resolve target with
  | .ok address => (.ok (.jump address), machine)
  | .error fault => (.error fault, machine)

def perform (machine : Machine) :
    Operation → Except Fault Directive × Machine
  | .binary op result source =>
      match op.apply (machine.registers.get result)
          (machine.registers.get source) with
      | some value => (.ok .next, machine.setRegister result value)
      | none => (.error (.divisionByZero source), machine)
  | .mov result value => (.ok .next, machine.setRegister result value)
  | .out source => machine.emit (machine.registers.get source)
  | .jmp target => machine.follow target
  | .branch test source target =>
      if test.holds (machine.registers.get source) then machine.follow target
      else (.ok .next, machine)

/-! ### Steps -/

def checkStep (machine : Machine) : Except Fault Unit :=
  match machine.limits with
  | none => .ok ()
  | some limits => limits.checkSteps (machine.steps + 1)

/-- A jump may lead to any address up to the length of the program. -/
def advance (machine : Machine) (address : Nat) (instruction : Instruction) :
    Directive → StepResult × Machine
  | .next =>
      (.ran ⟨address, instruction, false, some (address + 1)⟩,
        { machine with steps := machine.steps + 1, counter := address + 1 })
  | .jump target =>
      if target ≤ machine.program.size then
        (.ran ⟨address, instruction, true, some target⟩,
          { machine with steps := machine.steps + 1, counter := target })
      else
        (.failed
            (.execution address (.counterPastEnd target machine.program.size))
            (some ⟨address, instruction, true, none⟩),
          { machine with steps := machine.steps + 1 })

def step (machine : Machine) : StepResult × Machine :=
  let address := machine.counter
  match machine.program[address]? with
  | none => (.idle, machine)
  | some instruction =>
      match machine.checkStep with
      | .error fault => (.failed (.execution address fault) none, machine)
      | .ok _ =>
          match machine.perform instruction.operation with
          | (.error fault, after) =>
              (.failed (.execution address fault) none, after)
          | (.ok directive, after) => after.advance address instruction directive

end Machine
end RegisterMachine
