/- Log entries and their levels.  Control characters that a terminal would act on
are shown by their codes in the message; fields are written as they are. -/

import RegisterMachine.Text.Numeral

namespace RegisterMachine
namespace Log

inductive Level where
  | error
  | warn
  | info
  | debug
  | trace
deriving DecidableEq

namespace Level

def name : Level → String
  | .error => "ERROR"
  | .warn => "WARN"
  | .info => "INFO"
  | .debug => "DEBUG"
  | .trace => "TRACE"

def rank : Level → Nat
  | .error => 0
  | .warn => 1
  | .info => 2
  | .debug => 3
  | .trace => 4

def ofVerbosity : Nat → Level
  | 0 => .warn
  | 1 => .info
  | 2 => .debug
  | _ => .trace

def isShown (level threshold : Level) : Bool :=
  level.rank ≤ threshold.rank

end Level

structure Entry where
  level : Level
  origin : String
  message : String
  fields : List (String × String)
deriving DecidableEq

def messageChar (c : Char) : String :=
  if c = '\x1b' then "\\x1b"
  else if c = '\x07' then "\\x07"
  else if c = '\x08' then "\\x08"
  else if c = '\x0c' then "\\x0c"
  else if c = '\x7f' then "\\x7f"
  else if 0x80 ≤ c.toNat && c.toNat ≤ 0x9f then
    "\\u\x7b" ++ String.ofList (Nat.toDigits 16 c.toNat) ++ "\x7d"
  else String.singleton c

namespace Entry

def render (entry : Entry) : String :=
  " ".intercalate
    ((entry.level.name ++ " " ++ entry.origin ++ ": "
        ++ String.join (entry.message.toList.map messageChar))
      :: entry.fields.map fun field => field.1 ++ "=" ++ field.2)

end Entry

def lines (threshold : Level) (entries : List Entry) : List String :=
  (entries.filter fun entry => entry.level.isShown threshold).map Entry.render

end Log
end RegisterMachine
