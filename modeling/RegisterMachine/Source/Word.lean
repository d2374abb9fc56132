/- The words of a source line: label names, mnemonics and register names. -/

import RegisterMachine.Fault
import RegisterMachine.Instruction

namespace RegisterMachine
namespace Source

def isNameStart (c : Char) : Bool :=
  c.isAlpha || c == '_'

def isNameRest (c : Char) : Bool :=
  c.isAlphanum || c == '_'

def isLabelName (text : String) : Bool :=
  match text.toList with
  | [] => false
  | first :: rest => isNameStart first && rest.all isNameRest

def readRegister (word : String) (place : Option Place) :
    Except Fault Register :=
  match Register.ofName? word with
  | some register => .ok register
  | none => .error (.source (.rejected .unknownRegister word place))

def readOpcode (word : String) (place : Option Place) :
    Except Fault Opcode :=
  match Opcode.ofMnemonic? word with
  | some opcode => .ok opcode
  | none => .error (.source (.rejected .unknownOpcode word place))

def readLiteral (word : String) (place : Option Place) :
    Except Fault Int32 :=
  match Text.readWord word.toList with
  | .ok value => .ok value
  | .error _ => .error (.source (.rejected .invalidLiteral word place))

def readLabel (word : String) (place : Option Place) :
    Except Fault String :=
  if isLabelName word then .ok word
  else .error (.source (.rejected .invalidLabel word place))

end Source
end RegisterMachine
