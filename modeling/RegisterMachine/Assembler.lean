/-
From source text to program.

The size of the text is checked first.  Each line with a token is then read,
appended and counted, in that order, and the first fault ends the work.
-/

import RegisterMachine.Limits
import RegisterMachine.Program
import RegisterMachine.Source.Line
import RegisterMachine.Text.Line

namespace RegisterMachine

open Source (Token Reader)

structure Assembler where
  limits : Limits := .standard
  pending : List Token := []

namespace Assembler

/-- Also gives the tokens that the last line left. -/
def readLines (limits : Limits) :
    (number : Nat) → Program → (pending : List Token) → List (List Char) →
      Except Fault Program × List Token
  | _, program, pending, [] => (.ok program, pending)
  | number, program, _, line :: rest =>
      match Source.scan number line with
      | [] => readLines limits (number + 1) program [] rest
      | first :: others =>
          match Reader.instruction number (first :: others) with
          | .error fault left => (.error fault, left)
          | .ok instruction left =>
              match program.push instruction with
              | .error fault => (.error fault, left)
              | .ok (_, extended) =>
                  match limits.checkInstructionCount extended.size with
                  | .error fault => (.error fault, left)
                  | .ok _ => readLines limits (number + 1) extended left rest

def assemble (assembler : Assembler) (source : String) :
    Except Fault Program × Assembler :=
  match assembler.limits.checkSourceSize source.utf8ByteSize with
  | .error fault => (.error fault, assembler)
  | .ok _ =>
      let outcome := readLines assembler.limits 1 .empty assembler.pending
        (Text.lines source.toList)
      (outcome.1, { assembler with pending := outcome.2 })

def assembleAll (assembler : Assembler) :
    List String → List (Except Fault Program)
  | [] => []
  | source :: rest =>
      let outcome := assembler.assemble source
      outcome.1 :: outcome.2.assembleAll rest

end Assembler

namespace Program

def ofSource (limits : Limits) (source : String) : Except Fault Program :=
  (Assembler.assemble { limits := limits } source).1

end Program
end RegisterMachine
