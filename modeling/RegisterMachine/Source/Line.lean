/- Reading one source line: an optional label with its colon, a mnemonic, and the
operands that the mnemonic asks for, with nothing after them. -/

import RegisterMachine.Source.Token
import RegisterMachine.Source.Word

namespace RegisterMachine
namespace Source

/-- A reader returns the tokens it did not consume, also when it fails. -/
abbrev Reader := EStateM Fault (List Token)

namespace Reader

def next (wanted : Wanted) (line : Nat) : Reader Token := fun tokens =>
  match tokens with
  | [] => .error (.source (.missing wanted line)) []
  | token :: rest => .ok token rest

def word {α : Type} (wanted : Wanted) (line : Nat)
    (read : String → Option Place → Except Fault α) : Reader α := do
  let token ← next wanted line
  match read token.text (some token.place) with
  | .ok value => pure value
  | .error fault => throw fault

def register (line : Nat) : Reader Register := word .register line readRegister

def literal (line : Nat) : Reader Int32 := word .literal line readLiteral

def target (line : Nat) : Reader String := word .label line readLabel

def opcode (line : Nat) : Reader Opcode := word .opcode line readOpcode

/-- A line has a label exactly when its second token is a colon. -/
def label : Reader (Option String) := fun tokens =>
  match tokens with
  | name :: colon :: rest =>
      if colon.text = ":" then
        match readLabel name.text (some name.place) with
        | .ok label => .ok (some label) rest
        | .error fault => .error fault (colon :: rest)
      else .ok none tokens
  | _ => .ok none tokens

def operands (line : Nat) : Opcode → Reader Operation
  | .binary op => do
      let result ← register line
      let source ← register line
      pure (.binary op result source)
  | .mov => do
      let result ← register line
      let value ← literal line
      pure (.mov result value)
  | .out => do
      let source ← register line
      pure (.out source)
  | .jmp => do
      let target ← target line
      pure (.jmp target)
  | .branch test => do
      let source ← register line
      let target ← target line
      pure (.branch test source target)

def finish : Reader Unit := fun tokens =>
  match tokens with
  | [] => .ok () []
  | extra :: _ =>
      .error (.source (.rejected .unexpectedToken extra.text (some extra.place)))
        tokens

def instruction (line : Nat) : Reader Instruction := do
  let label ← label
  let opcode ← opcode line
  let operation ← operands line opcode
  finish
  pure ⟨label, operation⟩

end Reader
end Source
end RegisterMachine
