/-
Faults: everything that can go wrong, and the wording of each.

The kinds whose cause comes from outside the library also have a `described`
form that carries a ready-made text.
-/

import RegisterMachine.Register
import RegisterMachine.Text.Numeral

namespace RegisterMachine

open Text (writeNat)

/-! ### Causes -/

structure Place where
  line : Nat
  column : Nat
deriving DecidableEq

inductive Wanted where
  | opcode
  | register
  | literal
  | label
deriving DecidableEq

inductive Rejection where
  | unknownOpcode
  | unknownRegister
  | invalidLiteral
  | invalidLabel
  | unexpectedToken
deriving DecidableEq

inductive SourceFault where
  | missing (wanted : Wanted) (line : Nat)
  | rejected (why : Rejection) (word : String) (place : Option Place)
  | described (text : String)
deriving DecidableEq

inductive ReadFailure where
  | notFound
  | isDirectory
  | notDirectory
  | nameTooLong
  | nullInName
  | notUtf8
  | other (reason : String)
deriving DecidableEq

inductive IoFault where
  | unreadable (path : Option String) (failure : ReadFailure)
  | sinkFull
  | described (text : String)
deriving DecidableEq

/-- Which limit was passed, by how much, and where it stands. -/
inductive LimitFault where
  | sourceSize (size limit : Nat)
  | instructionCount (count limit : Nat)
  | stepCount (count limit : Nat)
  | described (text : String)
deriving DecidableEq

inductive ConfigFault where
  | malformedDocument
  | zeroSteps
  | described (text : String)
deriving DecidableEq

/-- A fault raised while an instruction runs is wrapped with its address. -/
inductive Fault where
  | duplicateLabel (label : String) (existing : Nat)
  | unknownLabel (label : String)
  | counterPastEnd (target length : Nat)
  | divisionByZero (divisor : Register)
  | execution (address : Nat) (cause : Fault)
  | source (cause : SourceFault)
  | io (cause : IoFault)
  | limit (cause : LimitFault)
  | config (cause : ConfigFault)
deriving DecidableEq

/-! ### Wording -/

def Wanted.message : Wanted → String
  | .opcode => "opcode"
  | .register => "register"
  | .literal => "integer literal"
  | .label => "label"

def Rejection.message : Rejection → String
  | .unknownOpcode => "Unknown opcode"
  | .unknownRegister => "Unknown register"
  | .invalidLiteral => "Invalid integer literal"
  | .invalidLabel => "Invalid label"
  | .unexpectedToken => "Unexpected token"

def Place.suffix : Option Place → String
  | none => ""
  | some place =>
      " at line " ++ writeNat place.line ++ ":" ++ writeNat place.column

def SourceFault.message : SourceFault → String
  | .missing wanted line =>
      "Expected " ++ wanted.message ++ " at line " ++ writeNat line
  | .rejected why word place =>
      why.message ++ " '" ++ word ++ "'" ++ Place.suffix place
  | .described text => text

def ReadFailure.message : ReadFailure → String
  | .notFound => "No such file or directory (os error 2)"
  | .isDirectory => "Is a directory (os error 21)"
  | .notDirectory => "Not a directory (os error 20)"
  | .nameTooLong => "File name too long (os error 36)"
  | .nullInName => "file name contained an unexpected NUL byte"
  | .notUtf8 => "stream did not contain valid UTF-8"
  | .other reason => reason

def IoFault.message : IoFault → String
  | .unreadable none failure => failure.message
  | .unreadable (some path) failure => path ++ ": " ++ failure.message
  | .sinkFull => "sink is full"
  | .described text => text

def LimitFault.message : LimitFault → String
  | .sourceSize size limit =>
      "Source size " ++ writeNat size ++ " bytes exceeds limit "
        ++ writeNat limit ++ " bytes"
  | .instructionCount count limit =>
      "Instruction count " ++ writeNat count ++ " exceeds limit "
        ++ writeNat limit
  | .stepCount count limit =>
      "Step count " ++ writeNat count ++ " exceeds limit " ++ writeNat limit
  | .described text => text

def ConfigFault.message : ConfigFault → String
  | .malformedDocument => "JSON error"
  | .zeroSteps => "max_steps must be greater than zero"
  | .described text => text

namespace Fault

def message : Fault → String
  | .duplicateLabel label existing =>
      "Duplicate label '" ++ label ++ "' (already bound to address "
        ++ writeNat existing ++ ")"
  | .unknownLabel label => "Unknown label '" ++ label ++ "'"
  | .counterPastEnd target length =>
      "Invalid program counter " ++ writeNat target ++ " (program has "
        ++ writeNat length ++ " instructions)"
  | .divisionByZero divisor =>
      "Division by zero (divisor register " ++ divisor.name ++ ")"
  | .execution address cause =>
      "Execution error at address " ++ writeNat address ++ ": " ++ cause.message
  | .source cause => "Parse error: " ++ cause.message
  | .io cause => "I/O error: " ++ cause.message
  | .limit cause => "Resource limit exceeded: " ++ cause.message
  | .config cause => "Configuration error: " ++ cause.message

/-! ### Looking through the wrappers -/

/-- The innermost cause, which is never itself a wrapper. -/
def root : Fault → Fault
  | .execution _ cause => cause.root
  | fault => fault

def address? : Fault → Option Nat
  | .execution address _ => some address
  | _ => none

def causes : Fault → List Fault
  | .execution _ cause => cause :: cause.causes
  | _ => []

end Fault
end RegisterMachine
