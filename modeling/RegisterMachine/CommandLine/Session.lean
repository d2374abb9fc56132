/-
One session of the command line: arguments in, a report out.

The limits are loaded first and the program second, and nothing is printed when
either fails.
-/

import RegisterMachine.CommandLine.Arguments
import RegisterMachine.Loading
import RegisterMachine.Log
import RegisterMachine.Machine.Snapshot
import RegisterMachine.Tally

namespace RegisterMachine
namespace CommandLine

structure Report where
  exitCode : Nat
  output : String
  metrics : List String
  log : List String
deriving DecidableEq

def versionText : String := "sml 0.1.0\n"

def helpText : String :=
  String.join
    ["Run an SML program\n",
      "\n",
      "Usage: sml [OPTIONS] <PROGRAM>\n",
      "\n",
      "Arguments:\n",
      "  <PROGRAM>  Path to the SML source file\n",
      "\n",
      "Options:\n",
      "      --set <REG=VALUE>        Initial register value, e.g. `--set EAX=5` (repeatable)\n",
      "      --max-steps <MAX_STEPS>  Maximum number of executed steps (overrides the limits file)\n",
      "      --limits <FILE>          JSON file with execution limits\n",
      "      --json                   Print the final machine state as JSON\n",
      "      --metrics                Print run metrics in Prometheus text format\n",
      "      --dump                   Print the translated program and labels before running\n",
      "  -v, --verbose...             Increase log verbosity (-v, -vv, -vvv)\n",
      "  -h, --help                   Print help\n",
      "  -V, --version                Print version\n"]

/-! ### Log entries -/

def sessionOrigin : String := "sml"

def assemblerOrigin : String := "sml::translator"

def machineOrigin : String := "sml::machine"

def sizeFields (program : Program) : List (String × String) :=
  [("instructions", Text.writeNat program.size),
    ("labels", Text.writeNat program.labels.size)]

def failureEntry (fault : Fault) : Log.Entry :=
  { level := .error, origin := sessionOrigin, message := fault.message
    fields := [] }

def loadedEntries (path : String) (program : Program) : List Log.Entry :=
  [{ level := .debug, origin := assemblerOrigin
     message := "translated program", fields := sizeFields program },
    { level := .info, origin := sessionOrigin, message := "loaded program"
      fields :=
        [("path", path), ("instructions", Text.writeNat program.size)] },
    { level := .debug, origin := machineOrigin, message := "starting run"
      fields := sizeFields program }]

def stepEntry (event : Event) : Option Log.Entry :=
  event.counter.map fun counter =>
    { level := .trace, origin := machineOrigin, message := "step"
      fields :=
        [("address", Text.writeNat event.address),
          ("instruction", event.instruction.render),
          ("next", Text.writeNat counter)] }

def endEntries (machine : Machine) : Verdict → List Log.Entry
  | .halted =>
      [{ level := .debug, origin := machineOrigin, message := "halted"
         fields :=
           [("steps", Text.writeNat machine.steps),
             ("registers", machine.registers.render)] }]
  | .failed fault =>
      [{ level := .warn, origin := machineOrigin
         message := "run failed: " ++ fault.message
         fields := [("steps", Text.writeNat machine.steps)] },
        failureEntry fault]
  | .unfinished => []

/-! ### Runs -/

/-- `steps` holds the step entries in reverse. -/
structure Journal where
  tally : Tally
  steps : List Log.Entry

def Journal.note (traced : Bool) (journal : Journal) (event : Event) : Journal :=
  { tally := journal.tally.record event
    steps :=
      if traced then (stepEntry event).toList ++ journal.steps
      else journal.steps }

def Invocation.givenLimits (read : FileReader) (invocation : Invocation) :
    Except Fault Limits :=
  match invocation.limits with
  | none => .ok .standard
  | some path => Limits.load read path

/-- The limits in force: a step limit among the arguments replaces the given one. -/
def Invocation.loadLimits (read : FileReader) (invocation : Invocation) :
    Except Fault Limits :=
  (invocation.givenLimits read).map fun limits =>
    { limits with maxSteps := invocation.maxSteps.getD limits.maxSteps }

def Invocation.load (read : FileReader) (invocation : Invocation) :
    Except Fault (Limits × Program) :=
  match invocation.loadLimits read with
  | .error fault => .error fault
  | .ok limits =>
      match Program.load read limits invocation.program with
      | .error fault => .error fault
      | .ok program => .ok (limits, program)

def Invocation.dumpText (invocation : Invocation) (program : Program) : String :=
  if invocation.dump then
    program.listing ++ "labels: " ++ program.labels.render ++ "\n"
  else ""

def Invocation.machine (invocation : Invocation) (limits : Limits)
    (program : Program) : Machine :=
  let bare := ((Machine.ofProgram program).withLimits limits).assign
    invocation.assignments
  if invocation.json then bare else bare.withEcho .unbounded

def Invocation.resultText (invocation : Invocation) (machine : Machine) :
    Verdict → String
  | .halted =>
      if invocation.json then machine.snapshot.toJson .indented ++ "\n"
      else machine.registers.render ++ "\n"
  | _ => ""

def exitCodeOf : Verdict → Nat
  | .halted => 0
  | _ => 1

def Invocation.threshold (invocation : Invocation) : Log.Level :=
  .ofVerbosity invocation.verbosity

def Invocation.reportRun (invocation : Invocation) (limits : Limits)
    (program : Program) : Report :=
  let threshold := invocation.threshold
  let run := (invocation.machine limits program).executeWatched
    (Journal.note (Log.Level.trace.isShown threshold)) (limits.maxSteps + 1)
    ⟨.zero, []⟩
  let entries := loadedEntries invocation.program program
    ++ run.seen.steps.reverse ++ endEntries run.machine run.verdict
  { exitCode := exitCodeOf run.verdict
    output :=
      invocation.dumpText program ++ run.machine.echoed
        ++ invocation.resultText run.machine run.verdict
    metrics :=
      if invocation.metrics then (run.seen.tally.recordEnd run.verdict).lines
      else []
    log := Log.lines threshold entries }

def Invocation.report (read : FileReader) (invocation : Invocation) : Report :=
  match invocation.load read with
  | .error fault =>
      { exitCode := 1
        output := ""
        metrics := []
        log := Log.lines invocation.threshold [failureEntry fault] }
  | .ok (limits, program) => invocation.reportRun limits program

def report (read : FileReader) (arguments : List String) : Report :=
  match parseArguments arguments with
  | .error fault =>
      { exitCode := 2, output := "", metrics := [], log := [fault.message] }
  | .ok .help =>
      { exitCode := 0, output := helpText, metrics := [], log := [] }
  | .ok .version =>
      { exitCode := 0, output := versionText, metrics := [], log := [] }
  | .ok (.run invocation) => invocation.report read

end CommandLine
end RegisterMachine
