/- The eight general registers.  A name is read without regard to ASCII case; letters
outside ASCII never match. -/

namespace RegisterMachine

inductive Register where
  | eax
  | ebx
  | ecx
  | edx
  | esp
  | ebp
  | esi
  | edi
deriving DecidableEq, Inhabited

namespace Register

def all : List Register :=
  [.eax, .ebx, .ecx, .edx, .esp, .ebp, .esi, .edi]

def index : Register → Fin 8
  | .eax => 0
  | .ebx => 1
  | .ecx => 2
  | .edx => 3
  | .esp => 4
  | .ebp => 5
  | .esi => 6
  | .edi => 7

def name : Register → String
  | .eax => "EAX"
  | .ebx => "EBX"
  | .ecx => "ECX"
  | .edx => "EDX"
  | .esp => "ESP"
  | .ebp => "EBP"
  | .esi => "ESI"
  | .edi => "EDI"

def ofName? (text : String) : Option Register :=
  all.find? fun register => register.name.toList == text.toList.map Char.toUpper

theorem mem_all (register : Register) : register ∈ all := by
  cases register <;> decide

theorem index_injective {left right : Register}
    (equality : left.index = right.index) : left = right := by
  cases left <;> cases right <;> simp_all [index]

end Register
end RegisterMachine
