/- Limits around loading and running a program.  A check fails only when the limit
is passed. -/

import RegisterMachine.Fault

namespace RegisterMachine

structure Limits where
  maxSourceSize : Nat
  maxInstructions : Nat
  maxSteps : Nat
deriving DecidableEq, Inhabited

namespace Limits

def standard : Limits :=
  { maxSourceSize := 1024 * 1024
    maxInstructions := 10000
    maxSteps := 1000000 }

def strict : Limits :=
  { maxSourceSize := 64 * 1024
    maxInstructions := 1000
    maxSteps := 100000 }

def trusted : Limits :=
  { maxSourceSize := 10 * 1024 * 1024
    maxInstructions := 1000000
    maxSteps := 1000000000 }

def checkSourceSize (limits : Limits) (size : Nat) : Except Fault Unit :=
  if size ≤ limits.maxSourceSize then .ok ()
  else .error (.limit (.sourceSize size limits.maxSourceSize))

def checkInstructionCount (limits : Limits) (count : Nat) :
    Except Fault Unit :=
  if count ≤ limits.maxInstructions then .ok ()
  else .error (.limit (.instructionCount count limits.maxInstructions))

def checkSteps (limits : Limits) (count : Nat) : Except Fault Unit :=
  if count ≤ limits.maxSteps then .ok ()
  else .error (.limit (.stepCount count limits.maxSteps))

end Limits
end RegisterMachine
