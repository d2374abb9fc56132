/- The register file: one signed 32-bit word for each register. -/

import RegisterMachine.Register
import RegisterMachine.Text.Numeral

namespace RegisterMachine

structure RegisterFile where
  words : Vector Int32 8
deriving DecidableEq

namespace RegisterFile

def zero : RegisterFile :=
  ⟨Vector.replicate 8 0⟩

instance : Inhabited RegisterFile := ⟨zero⟩

def get (file : RegisterFile) (register : Register) : Int32 :=
  file.words[register.index]

def set (file : RegisterFile) (register : Register) (value : Int32) :
    RegisterFile :=
  ⟨file.words.set register.index value⟩

/-- The last assignment to a register stays. -/
def assign (file : RegisterFile) (assignments : List (Register × Int32)) :
    RegisterFile :=
  assignments.foldl (fun current assignment =>
    current.set assignment.1 assignment.2) file

def entries (file : RegisterFile) : List (Register × Int32) :=
  Register.all.map fun register => (register, file.get register)

def values (file : RegisterFile) : List Int32 :=
  Register.all.map file.get

def render (file : RegisterFile) : String :=
  "[" ++ ", ".intercalate (file.entries.map fun entry =>
    entry.1.name ++ " = " ++ Text.writeWord entry.2) ++ "]"

@[simp] theorem get_set_self (file : RegisterFile) (register : Register)
    (value : Int32) : (file.set register value).get register = value := by
  simp [get, set]

theorem get_set_of_ne (file : RegisterFile) {written other : Register}
    (value : Int32) (different : other ≠ written) :
    (file.set written value).get other = file.get other := by
  have places : (written.index : Nat) ≠ other.index := by
    intro same
    exact different (Register.index_injective (Fin.ext same.symm))
  simp [get, set, Vector.getElem_set_ne _ _ places]

end RegisterFile
end RegisterMachine
