/-
Run metrics: how often each opcode was executed, how many jumps were taken, and
how runs ended.  An instruction counts once it was carried out, also when its jump
then led past the end of the program.
-/

import RegisterMachine.Machine.Run

namespace RegisterMachine

structure Tally where
  executed : Vector Nat 10
  jumps : Nat
  halted : Nat
  failed : Nat
deriving DecidableEq

namespace Tally

def zero : Tally :=
  { executed := Vector.replicate 10 0
    jumps := 0
    halted := 0
    failed := 0 }

def count (tally : Tally) (opcode : Opcode) : Nat :=
  tally.executed[opcode.index]

/-- Whether an event took a jump that stayed inside the program. -/
def tookJump (event : Event) : Bool :=
  event.jumped && event.counter.isSome

def record (tally : Tally) (event : Event) : Tally :=
  let index := event.instruction.operation.opcode.index
  { tally with
    executed := tally.executed.set index (tally.executed[index] + 1)
    jumps := if tookJump event then tally.jumps + 1 else tally.jumps }

def recordEnd (tally : Tally) : Verdict → Tally
  | .halted => { tally with halted := tally.halted + 1 }
  | .failed _ => { tally with failed := tally.failed + 1 }
  | .unfinished => tally

/-! ### Text -/

def byMnemonic : List Opcode :=
  [.binary .add, .binary .cmp, .binary .div, .jmp, .branch .nonzero,
    .branch .zero, .mov, .binary .mul, .out, .binary .sub]

def executedName : String := "sml_instructions_executed_total"

def jumpsName : String := "sml_jumps_taken_total"

def runsName : String := "sml_runs_total"

/-- One counter line, unless the counter was never touched. -/
def sample (name : String) (value : Nat) : List String :=
  if value = 0 then [] else [name ++ " " ++ Text.writeNat value]

def labelled (name key value : String) : String :=
  name ++ "\x7b" ++ key ++ "=\"" ++ value ++ "\"\x7d"

def executedSamples (tally : Tally) : List String :=
  byMnemonic.flatMap fun opcode =>
    sample (labelled executedName "opcode" opcode.mnemonic) (tally.count opcode)

def jumpSamples (tally : Tally) : List String :=
  sample jumpsName tally.jumps

def runSamples (tally : Tally) : List String :=
  sample (labelled runsName "outcome" "failed") tally.failed
    ++ sample (labelled runsName "outcome" "halted") tally.halted

def typeLine (name : String) (samples : List String) : List String :=
  if samples.isEmpty then [] else ["# TYPE " ++ name ++ " counter"]

/-- In byte order; only counters that were touched are shown. -/
def lines (tally : Tally) : List String :=
  typeLine executedName tally.executedSamples
    ++ typeLine jumpsName tally.jumpSamples
    ++ typeLine runsName tally.runSamples
    ++ tally.executedSamples ++ tally.jumpSamples ++ tally.runSamples

end Tally
end RegisterMachine
