/- Loading programs and limits through a reading function.  A failure to read a
program names its path; a failure to read limits does not. -/

import RegisterMachine.Limits.Document
import RegisterMachine.Assembler

namespace RegisterMachine

abbrev FileReader := String → Except ReadFailure String

def Program.load (read : FileReader) (limits : Limits) (path : String) :
    Except Fault Program :=
  match read path with
  | .error failure => .error (.io (.unreadable (some path) failure))
  | .ok source => Program.ofSource limits source

def Limits.load (read : FileReader) (path : String) : Except Fault Limits :=
  match read path with
  | .error failure => .error (.io (.unreadable none failure))
  | .ok text => Limits.ofJson text

end RegisterMachine
