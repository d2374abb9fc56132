/-
Register assignments on the command line.

The first equals sign divides the two sides.  A fault quotes the name without its
blanks and the value with them.
-/

import RegisterMachine.Source.Word
import RegisterMachine.Text.Blank

namespace RegisterMachine
namespace CommandLine

inductive AssignmentFault where
  | noEquals (text : String)
  | badRegister (cause : Fault)
  | badValue (value : String) (cause : Text.NumeralFault)
deriving DecidableEq

def AssignmentFault.message : AssignmentFault → String
  | .noEquals text => "expected REG=VALUE, got '" ++ text ++ "'"
  | .badRegister cause => cause.message
  | .badValue value cause =>
      "invalid value '" ++ value ++ "': " ++ cause.message

def splitEquals? (text : List Char) : Option (List Char × List Char) :=
  match text.dropWhile (· != '=') with
  | [] => none
  | _ :: right => some (text.takeWhile (· != '='), right)

def readAssignment (text : String) :
    Except AssignmentFault (Register × Int32) :=
  match splitEquals? text.toList with
  | none => .error (.noEquals text)
  | some (left, right) =>
      match Source.readRegister (String.ofList (Text.trim left)) none with
      | .error fault => .error (.badRegister fault)
      | .ok register =>
          match Text.readWord (Text.trim right) with
          | .error fault => .error (.badValue (String.ofList right) fault)
          | .ok value => .ok (register, value)

end CommandLine
end RegisterMachine
