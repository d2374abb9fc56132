/- Snapshots: the observable part of a machine state, as a JSON document. -/

import RegisterMachine.Json.Layout
import RegisterMachine.Machine.State

namespace RegisterMachine

structure Snapshot where
  registers : RegisterFile
  counter : Nat
  steps : Nat
  output : Array Int32
deriving DecidableEq

def RegisterFile.toJson (file : RegisterFile) (layout : Json.Layout)
    (depth : Nat) : String :=
  layout.object depth (file.entries.map fun entry =>
    (entry.1.name, Text.writeWord entry.2))

namespace Snapshot

def toJson (snapshot : Snapshot) (layout : Json.Layout) : String :=
  layout.object 0
    [("registers", snapshot.registers.toJson layout 1),
      ("program_counter", Text.writeNat snapshot.counter),
      ("steps", Text.writeNat snapshot.steps),
      ("output", layout.array 1 (snapshot.output.toList.map Text.writeWord))]

end Snapshot

def Machine.snapshot (machine : Machine) : Snapshot :=
  { registers := machine.registers
    counter := machine.counter
    steps := machine.steps
    output := machine.output }

end RegisterMachine
