/-
Command-line arguments, taken from left to right.

The value of a parameter is attached with an equals sign or stands in the next
argument.  In the second case it is judged only when the next parameter or switch
is accepted, or at the end.  After two dashes everything is positional.
-/

import RegisterMachine.CommandLine.Assignment
import RegisterMachine.Text.ControlSequence
import RegisterMachine.Text.Line

namespace RegisterMachine
namespace CommandLine

inductive Parameter where
  | program
  | assignment
  | maxSteps
  | limits
deriving DecidableEq

inductive Switch where
  | json
  | metrics
  | dump
  | verbose
  | help
  | version
deriving DecidableEq

namespace Parameter

def ofName? : String → Option Parameter
  | "set" => some .assignment
  | "max-steps" => some .maxSteps
  | "limits" => some .limits
  | _ => none

def usage : Parameter → String
  | .program => "<PROGRAM>"
  | .assignment => "--set <REG=VALUE>"
  | .maxSteps => "--max-steps <MAX_STEPS>"
  | .limits => "--limits <FILE>"

end Parameter

namespace Switch

def name : Switch → String
  | .json => "json"
  | .metrics => "metrics"
  | .dump => "dump"
  | .verbose => "verbose"
  | .help => "help"
  | .version => "version"

def ofName? (text : String) : Option Switch :=
  [Switch.json, .metrics, .dump, .verbose, .help, .version].find? fun switch =>
    switch.name == text

def ofLetter? : Char → Option Switch
  | 'v' => some .verbose
  | 'h' => some .help
  | 'V' => some .version
  | _ => none

def usage (switch : Switch) : String :=
  match switch with
  | .verbose => "--" ++ switch.name ++ "..."
  | _ => "--" ++ switch.name

end Switch

inductive UsageFault where
  | unexpectedArgument (argument : String)
  | unexpectedValue (value usage : String)
  | missingValue (usage : String)
  | invalidValue (value usage reason : String)
  | repeated (usage : String)
  | missingProgram
deriving DecidableEq

namespace UsageFault

def styledSpans : UsageFault → List String
  | .unexpectedArgument argument =>
      ["error:", " unexpected argument '", argument]
  | .unexpectedValue value usage =>
      ["error:", " unexpected value '", value, "' for '", usage]
  | .missingValue usage =>
      ["error:", " a value is required for '", usage]
  | .invalidValue value usage _ =>
      ["error:", " invalid value '", value, "' for '", usage]
  | .repeated usage =>
      ["error:", " the argument '", usage]
  | .missingProgram => ["error:"]

def ending : UsageFault → String
  | .unexpectedArgument _ => "' found"
  | .unexpectedValue .. => "' found; no more were expected"
  | .missingValue _ => "' but none was supplied"
  | .invalidValue _ _ reason => "': " ++ reason
  | .repeated _ => "' cannot be used multiple times"
  | .missingProgram => " the following required arguments were not provided:"

def spans (fault : UsageFault) : List String :=
  fault.styledSpans
    ++ [fault.ending ++ "\n\nFor more information, try '", "--help", "'.\n"]

/-- What a terminal shows of a fault.  A change of style ends a control sequence
that an argument has left open, so each span is shown on its own. -/
def text (fault : UsageFault) : String :=
  String.join (fault.spans.map Text.visible)

def message (fault : UsageFault) : String :=
  String.ofList ((Text.lines fault.text.toList).headD [])

end UsageFault

structure Invocation where
  program : String
  assignments : List (Register × Int32)
  maxSteps : Option Nat
  limits : Option String
  json : Bool
  metrics : Bool
  dump : Bool
  verbosity : Nat
deriving DecidableEq

inductive Request where
  | run (invocation : Invocation)
  | help
  | version
deriving DecidableEq

/-- The arguments taken so far.  `pending` is a parameter whose value is not
judged yet, or has not come yet. -/
structure Draft where
  program : Option String := none
  programTaken : Bool := false
  assignments : List (Register × Int32) := []
  maxSteps : Option Nat := none
  limits : Option String := none
  json : Bool := false
  metrics : Bool := false
  dump : Bool := false
  verbosity : Nat := 0
  pending : Option (Parameter × Option String) := none
deriving DecidableEq

inductive Progress where
  | going (draft : Draft)
  | done (request : Request)
deriving DecidableEq

namespace Draft

/-! ### Values -/

def supply (draft : Draft) (parameter : Parameter) :
    Option String → Except UsageFault Draft
  | none => .error (.missingValue parameter.usage)
  | some value =>
      match parameter with
      | .program =>
          if value.isEmpty then .error (.missingValue parameter.usage)
          else .ok { draft with program := some value }
      | .assignment =>
          match readAssignment value with
          | .ok assignment =>
              .ok { draft with assignments := draft.assignments ++ [assignment] }
          | .error fault =>
              .error (.invalidValue value parameter.usage fault.message)
      | .maxSteps =>
          if draft.maxSteps.isSome then .error (.repeated parameter.usage)
          else
            match Text.readCount value.toList with
            | .ok count => .ok { draft with maxSteps := some count }
            | .error fault =>
                .error (.invalidValue value parameter.usage fault.message)
      | .limits =>
          if draft.limits.isSome then .error (.repeated parameter.usage)
          else if value.isEmpty then .error (.missingValue parameter.usage)
          else .ok { draft with limits := some value }

def settle (draft : Draft) : Except UsageFault Draft :=
  match draft.pending with
  | none => .ok draft
  | some (parameter, value) =>
      { draft with pending := none }.supply parameter value

/-! ### Switches -/

/-- Goes on with a switch turned on, unless it was on already. -/
def turnOn (switch : Switch) (already : Bool) (turned : Draft) :
    Except UsageFault Progress :=
  if already then .error (.repeated switch.usage) else .ok (.going turned)

def take (draft : Draft) (switch : Switch) : Except UsageFault Progress :=
  match draft.settle with
  | .error fault => .error fault
  | .ok settled =>
      match switch with
      | .json => turnOn switch settled.json { settled with json := true }
      | .metrics => turnOn switch settled.metrics { settled with metrics := true }
      | .dump => turnOn switch settled.dump { settled with dump := true }
      | .verbose =>
          .ok (.going { settled with verbosity := settled.verbosity + 1 })
      | .help => .ok (.done .help)
      | .version => .ok (.done .version)

def takeLetters : Draft → List Char → Except UsageFault Progress
  | draft, [] => .ok (.going draft)
  | draft, letter :: rest =>
      match Switch.ofLetter? letter with
      | none =>
          .error (.unexpectedArgument ("-" ++ String.singleton letter))
      | some switch =>
          match draft.take switch with
          | .ok (.going taken) => takeLetters taken rest
          | other => other

/-! ### Arguments -/

def takeLong (draft : Draft) (name : String) (attached : Option String) :
    Except UsageFault Progress :=
  match Parameter.ofName? name with
  | some parameter =>
      match draft.settle with
      | .error fault => .error fault
      | .ok settled =>
          match attached with
          | some value => (settled.supply parameter (some value)).map .going
          | none =>
              .ok (.going { settled with pending := some (parameter, none) })
  | none =>
      match Switch.ofName? name with
      | some switch =>
          match attached with
          | some value => .error (.unexpectedValue value switch.usage)
          | none => draft.take switch
      | none => .error (.unexpectedArgument ("--" ++ name))

def takePositional (draft : Draft) (text : String) :
    Except UsageFault Progress :=
  if draft.programTaken then .error (.unexpectedArgument text)
  else
    match draft.settle with
    | .error fault => .error fault
    | .ok settled =>
        .ok (.going { settled with
          programTaken := true, pending := some (.program, some text) })

/-- The argument may be the value of a parameter that waits for one. -/
def takePlain (draft : Draft) (text : String) : Except UsageFault Progress :=
  match draft.pending with
  | some (parameter, none) =>
      .ok (.going { draft with pending := some (parameter, some text) })
  | _ => draft.takePositional text

def takeArgument (draft : Draft) (argument : String) :
    Except UsageFault Progress :=
  match argument.toList with
  | '-' :: '-' :: body =>
      match splitEquals? body with
      | some (name, value) =>
          draft.takeLong (String.ofList name) (some (String.ofList value))
      | none => draft.takeLong (String.ofList body) none
  | '-' :: letter :: rest => draft.takeLetters (letter :: rest)
  | _ => draft.takePlain argument

def finish (draft : Draft) : Except UsageFault Request :=
  match draft.settle with
  | .error fault => .error fault
  | .ok settled =>
      match settled.program with
      | none => .error .missingProgram
      | some program =>
          .ok (.run
            { program := program
              assignments := settled.assignments
              maxSteps := settled.maxSteps
              limits := settled.limits
              json := settled.json
              metrics := settled.metrics
              dump := settled.dump
              verbosity := settled.verbosity })

end Draft

def readArguments :
    Draft → (ended : Bool) → List String → Except UsageFault Request
  | draft, _, [] => draft.finish
  | draft, ended, argument :: rest =>
      if ended then
        match draft.takePositional argument with
        | .error fault => .error fault
        | .ok (.done request) => .ok request
        | .ok (.going taken) => readArguments taken true rest
      else if argument = "--" then readArguments draft true rest
      else
        match draft.takeArgument argument with
        | .error fault => .error fault
        | .ok (.done request) => .ok request
        | .ok (.going taken) => readArguments taken false rest

def parseArguments (arguments : List String) : Except UsageFault Request :=
  readArguments {} false arguments

end CommandLine
end RegisterMachine
