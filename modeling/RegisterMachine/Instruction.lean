/- Instructions: ten opcodes, the operations they form with their operands, and the
text of an instruction. -/

import RegisterMachine.Register
import RegisterMachine.Text.Numeral

namespace RegisterMachine

/-! ### Opcodes -/

inductive BinaryOp where
  | add
  | sub
  | mul
  | div
  | cmp
deriving DecidableEq, Inhabited

inductive BranchTest where
  | nonzero
  | zero
deriving DecidableEq, Inhabited

inductive Opcode where
  | binary (op : BinaryOp)
  | mov
  | out
  | jmp
  | branch (test : BranchTest)
deriving DecidableEq, Inhabited

namespace BinaryOp

/-- The word left in the first register.  Addition, subtraction and multiplication
wrap; division truncates and wraps in its single overflowing case. -/
def apply : BinaryOp → Int32 → Int32 → Option Int32
  | .add, left, right => some (left + right)
  | .sub, left, right => some (left - right)
  | .mul, left, right => some (left * right)
  | .div, left, right => if right = 0 then none else some (left / right)
  | .cmp, left, right =>
      some (if left < right then -1 else if left = right then 0 else 1)

end BinaryOp

namespace BranchTest

def holds : BranchTest → Int32 → Bool
  | .nonzero, word => word != 0
  | .zero, word => word == 0

end BranchTest

namespace Opcode

def all : List Opcode :=
  [.binary .add, .binary .sub, .binary .mul, .binary .div, .binary .cmp,
    .mov, .out, .jmp, .branch .nonzero, .branch .zero]

def index : Opcode → Fin 10
  | .binary .add => 0
  | .binary .sub => 1
  | .binary .mul => 2
  | .binary .div => 3
  | .binary .cmp => 4
  | .mov => 5
  | .out => 6
  | .jmp => 7
  | .branch .nonzero => 8
  | .branch .zero => 9

def mnemonic : Opcode → String
  | .binary .add => "add"
  | .binary .sub => "sub"
  | .binary .mul => "mul"
  | .binary .div => "div"
  | .binary .cmp => "cmp"
  | .mov => "mov"
  | .out => "out"
  | .jmp => "jmp"
  | .branch .nonzero => "jnz"
  | .branch .zero => "jz"

def ofMnemonic? (text : String) : Option Opcode :=
  all.find? fun opcode => opcode.mnemonic == text

def isJump : Opcode → Bool
  | .jmp => true
  | .branch _ => true
  | _ => false

theorem mem_all (opcode : Opcode) : opcode ∈ all := by
  cases opcode with
  | binary op => cases op <;> decide
  | mov => decide
  | out => decide
  | jmp => decide
  | branch test => cases test <;> decide

end Opcode

/-! ### Operations and instructions -/

/-- Jump targets are label names, looked up only when the jump is taken. -/
inductive Operation where
  | binary (op : BinaryOp) (result source : Register)
  | mov (result : Register) (value : Int32)
  | out (source : Register)
  | jmp (target : String)
  | branch (test : BranchTest) (source : Register) (target : String)
deriving DecidableEq

structure Instruction where
  label : Option String
  operation : Operation
deriving DecidableEq

namespace Operation

def opcode : Operation → Opcode
  | .binary op _ _ => .binary op
  | .mov _ _ => .mov
  | .out _ => .out
  | .jmp _ => .jmp
  | .branch test _ _ => .branch test

def target? : Operation → Option String
  | .jmp target => some target
  | .branch _ _ target => some target
  | _ => none

def operands : Operation → List String
  | .binary _ result source => [result.name, source.name]
  | .mov result value => [result.name, Text.writeWord value]
  | .out source => [source.name]
  | .jmp target => [target]
  | .branch _ source target => [source.name, target]

def render (operation : Operation) : String :=
  " ".intercalate (operation.opcode.mnemonic :: operation.operands)

end Operation

namespace Instruction

def render (instruction : Instruction) : String :=
  match instruction.label with
  | some label => label ++ ": " ++ instruction.operation.render
  | none => instruction.operation.render

end Instruction
end RegisterMachine
