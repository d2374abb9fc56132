/-
Label tables: names bound to addresses, the first binding of a name being the
one that stays.  The table is an extensional map, so it does not depend on the
order of its bindings.
-/

import Std.Data.ExtTreeMap.Lemmas
import RegisterMachine.Fault

namespace RegisterMachine

structure LabelTable where
  bindings : Std.ExtTreeMap String Nat
deriving DecidableEq

namespace LabelTable

def empty : LabelTable := ⟨∅⟩

instance : Inhabited LabelTable := ⟨empty⟩

def size (table : LabelTable) : Nat := table.bindings.size

def isEmpty (table : LabelTable) : Bool := table.bindings.isEmpty

def get? (table : LabelTable) (name : String) : Option Nat :=
  table.bindings[name]?

def contains (table : LabelTable) (name : String) : Bool :=
  (table.get? name).isSome

def resolve (table : LabelTable) (name : String) : Except Fault Nat :=
  match table.get? name with
  | some address => .ok address
  | none => .error (.unknownLabel name)

def bind (table : LabelTable) (name : String) (address : Nat) :
    Except Fault LabelTable :=
  match table.get? name with
  | some existing => .error (.duplicateLabel name existing)
  | none => .ok ⟨table.bindings.insert name address⟩

/-- Binds a name in place: the answer, and the table that is left. -/
def bindInPlace (table : LabelTable) (name : String) (address : Nat) :
    Except Fault Unit × LabelTable :=
  match table.get? name with
  | some existing => (.error (.duplicateLabel name existing), table)
  | none => (.ok (), ⟨table.bindings.insert name address⟩)

/-- A refused binding leaves the table as it was. -/
theorem bindInPlace_eq (table : LabelTable) (name : String) (address : Nat) :
    table.bindInPlace name address =
      match table.bind name address with
      | .ok extended => (.ok (), extended)
      | .error fault => (.error fault, table) := by
  unfold bindInPlace bind
  cases table.get? name with
  | none => rfl
  | some existing => rfl

def ofList (entries : List (String × Nat)) : Except Fault LabelTable :=
  entries.foldlM (fun table entry => table.bind entry.1 entry.2) empty

/-! ### Listing -/

/-- Listing order: by address, and by name among equal addresses. -/
def listingOrder : String × Nat → String × Nat → Ordering :=
  compareLex (compareOn Prod.snd) (compareOn Prod.fst)

def toList (table : LabelTable) : List (String × Nat) :=
  table.bindings.toList.mergeSort fun left right =>
    (listingOrder left right).isLE

def render (table : LabelTable) : String :=
  "[" ++ ", ".intercalate (table.toList.map fun entry =>
    entry.1 ++ " -> " ++ Text.writeNat entry.2) ++ "]"

/-! ### Lookup after each operation -/

@[simp] theorem get?_empty (name : String) : empty.get? name = none := by
  simp [get?, empty]

theorem get?_of_bind {table extended : LabelTable} {bound : String}
    {address : Nat} (success : table.bind bound address = .ok extended)
    (name : String) :
    extended.get? name =
      if bound = name then some address else table.get? name := by
  unfold bind at success
  cases lookup : table.get? bound with
  | some existing => simp [lookup] at success
  | none =>
      simp only [lookup, Except.ok.injEq] at success
      subst success
      simp [get?, Std.ExtTreeMap.getElem?_insert]

theorem ext_get? {left right : LabelTable}
    (agree : ∀ name, left.get? name = right.get? name) : left = right := by
  cases left
  cases right
  congr 1
  exact Std.ExtTreeMap.ext_getElem? (fun name => agree name)

end LabelTable
end RegisterMachine
