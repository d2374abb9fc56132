/-
Echo sinks: where a machine repeats the values it puts out, one line for each.

A sink is known by its answers.  It takes or refuses each line as a whole, and
nothing is kept of a refused line.
-/

import RegisterMachine.Fault

namespace RegisterMachine

/-- The answer to each line, by the number of lines offered before it and its text;
the number of lines offered; and the lines taken, the last one first. -/
structure Sink where
  answer : Nat → String → Option IoFault
  offered : Nat
  lines : List String

namespace Sink

def unbounded : Sink :=
  { answer := fun _ _ => none
    offered := 0
    lines := [] }

def bounded (room : Nat) : Sink :=
  { answer := fun number _ => if number < room then none else some .sinkFull
    offered := 0
    lines := [] }

/-- The fault the line is refused with, if it is, and the sink after the answer. -/
def offer (sink : Sink) (line : String) : Option IoFault × Sink :=
  match sink.answer sink.offered line with
  | none =>
      (none,
        { sink with offered := sink.offered + 1, lines := line :: sink.lines })
  | some fault => (some fault, { sink with offered := sink.offered + 1 })

def text (sink : Sink) : String :=
  String.join sink.lines.reverse

end Sink
end RegisterMachine
