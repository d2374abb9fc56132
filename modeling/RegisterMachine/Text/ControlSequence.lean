/-
Control sequences: what a terminal acts on instead of showing it.

Outside sequences everything is shown except the control characters that move
nothing on the page.  A character that lays out the page is shown even inside a
sequence of the short kinds; what follows it is then shown as well, up to the next
control character, where the sequence goes on.
-/

namespace RegisterMachine
namespace Text
namespace ControlSequence

/-! ### Character classes -/

def isBetween (low high : Nat) (c : Char) : Bool :=
  low ≤ c.toNat && c.toNat ≤ high

def isEscape (c : Char) : Bool :=
  c == '\x1b'

def isCancel (c : Char) : Bool :=
  c == '\x18' || c == '\x1a'

def isLayout (c : Char) : Bool :=
  c == '\t' || c == '\n' || c == '\x0c' || c == '\r'

def isIntermediate (c : Char) : Bool :=
  isBetween 0x20 0x2f c

def holdsTerminator (c : Char) : Bool :=
  (String.utf8EncodeChar c).contains 0x9c

/-! ### Phases -/

/-- How far into a sequence a text is; `text` is outside sequences.  The three phases
of a device string tell its opening apart from its content, which is a `string`. -/
inductive Phase where
  | text
  | escape
  | selection
  | control
  | deviceEntry
  | deviceParameter
  | deviceIntermediate
  | string
  | command
deriving DecidableEq

namespace Phase

/-- The phase after the character that follows an escape character. -/
def ofIntroducer (c : Char) : Phase :=
  if isIntermediate c then .selection
  else if c = '[' then .control
  else if c = ']' then .command
  else if c = 'P' then .deviceEntry
  else if c = 'X' || c = '^' || c = '_' then .string
  else if isBetween 0x30 0x7e c then .text
  else .escape

/-- The phase after a character that neither begins nor cancels a sequence. -/
def goOn (phase : Phase) (c : Char) : Phase :=
  match phase with
  | .text => .text
  | .escape => ofIntroducer c
  | .selection => if isBetween 0x30 0x7e c then .text else phase
  | .control => if isBetween 0x40 0x7e c then .text else phase
  | .deviceEntry =>
      if isIntermediate c then .deviceIntermediate
      else if isBetween 0x30 0x3f c then .deviceParameter
      else if isBetween 0x40 0x7e c then .string
      else phase
  | .deviceParameter =>
      if isIntermediate c then .deviceIntermediate
      else if isBetween 0x3c 0x7e c then .string
      else phase
  | .deviceIntermediate => if isBetween 0x30 0x7e c then .string else phase
  | .string => if holdsTerminator c then .text else phase
  | .command => if c = '\x07' then .text else phase

def next (phase : Phase) (c : Char) : Phase :=
  if isEscape c then .escape
  else if isCancel c then .text
  else phase.goOn c

def shows (phase : Phase) (c : Char) : Bool :=
  match phase with
  | .text => isLayout c || (0x20 ≤ c.toNat && c.toNat != 0x7f)
  | .escape | .selection | .control => isLayout c
  | _ => false

end Phase

/-! ### Scanning -/

/-- The phase, and whether the character before this place was shown.  After a shown
character the next one is judged as outside sequences. -/
structure Cursor where
  phase : Phase
  showing : Bool
deriving DecidableEq

namespace Cursor

def start : Cursor := ⟨.text, false⟩

def shows (cursor : Cursor) (c : Char) : Bool :=
  if cursor.showing then Phase.text.shows c else cursor.phase.shows c

/-- A shown character leaves the phase as it is, unless it takes more than one byte:
such a character ends the sequence. -/
def advance (cursor : Cursor) (c : Char) : Cursor :=
  if cursor.shows c then
    ⟨if c.toNat < 0x80 then cursor.phase else .text, true⟩
  else ⟨cursor.phase.next c, false⟩

def visible : Cursor → List Char → List Char
  | _, [] => []
  | cursor, c :: rest =>
      if cursor.shows c then c :: (cursor.advance c).visible rest
      else (cursor.advance c).visible rest

end Cursor
end ControlSequence

def visible (text : String) : String :=
  String.ofList (ControlSequence.Cursor.start.visible text.toList)

end Text
end RegisterMachine
