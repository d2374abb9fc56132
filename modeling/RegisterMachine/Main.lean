/- The command line program. -/

import RegisterMachine.CommandLine.Session
import RegisterMachine.FileTree

namespace RegisterMachine
namespace CommandLine

/-- Some calls report the code with a minus sign. -/
def expectsDirectory (code : UInt32) : Bool :=
  code == 20 || -code == 20

def isNameTooLong (code : UInt32) : Bool :=
  code == 36 || -code == 36

def readFailure : IO.Error → ReadFailure
  | .noFileOrDirectory .. => .notFound
  | .inappropriateType _ code _ =>
      if expectsDirectory code then .notDirectory else .isDirectory
  | .invalidArgument _ code _ =>
      if isNameTooLong code then .nameTooLong else .nullInName
  | other => .other (toString other)

def readFile (path : String) : IO (Except ReadFailure String) := do
  try
    let content ← IO.FS.readBinFile path
    return FileTree.decode content
  catch failure => return .error (readFailure failure)

def gather (request : Request) : IO (List (String × Except ReadFailure String)) :=
  match request with
  | .run invocation =>
      (invocation.limits.toList ++ [invocation.program]).mapM fun path => do
        return (path, ← readFile path)
  | _ => return []

def readGathered (files : List (String × Except ReadFailure String)) :
    FileReader := fun path =>
  match files.lookup path with
  | some content => content
  | none => .error .notFound

end CommandLine
end RegisterMachine

def main (arguments : List String) : IO UInt32 := do
  let files ← match RegisterMachine.CommandLine.parseArguments arguments with
    | .ok request => RegisterMachine.CommandLine.gather request
    | .error _ => pure []
  let result := RegisterMachine.CommandLine.report
    (RegisterMachine.CommandLine.readGathered files) arguments
  for line in result.log do
    IO.eprintln line
  IO.print result.output
  for line in result.metrics do
    IO.println line
  return UInt32.ofNat result.exitCode
