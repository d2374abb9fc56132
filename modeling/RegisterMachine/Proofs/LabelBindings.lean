/-
Label tables under any sequence of requests.

After any requests a name has the address of its first addition since the bindings
were last taken back.  The sequence is followed by induction from its end.
-/

import Mathlib.Data.Finset.Card
import Mathlib.Data.List.DropRight
import RegisterMachine.LabelTable

namespace RegisterMachine
namespace LabelTable

/-! ### Requests -/

inductive Request where
  | add (name : String) (address : Nat)
  | reset
deriving DecidableEq

def serve (table : LabelTable) : Request → Except Fault Unit × LabelTable
  | .add name address => table.bindInPlace name address
  | .reset => (.ok (), empty)

def afterAll (requests : List Request) : LabelTable :=
  requests.foldl (fun table request => (table.serve request).2) empty

def Request.binding? : Request → Option (String × Nat)
  | .add name address => some (name, address)
  | .reset => none

/-- The additions after the last reset, in order. -/
def additions (requests : List Request) : List (String × Nat) :=
  (requests.rtakeWhile (· ≠ .reset)).filterMap Request.binding?

def firstAdded? (requests : List Request) (name : String) : Option Nat :=
  (additions requests).lookup name

/-! ### One request -/

theorem bindInPlace_of_bound {table : LabelTable} {name : String}
    {existing : Nat} (bound : table.get? name = some existing)
    (address : Nat) :
    table.bindInPlace name address =
      (.error (.duplicateLabel name existing), table) := by
  rw [bindInPlace, bound]

theorem bindInPlace_of_free {table : LabelTable} {name : String}
    (free : table.get? name = none) (address : Nat) :
    table.bindInPlace name address =
      (.ok (), ⟨table.bindings.insert name address⟩) := by
  rw [bindInPlace, free]

theorem get?_bindInPlace (table : LabelTable) (bound : String) (address : Nat)
    (name : String) :
    (table.bindInPlace bound address).2.get? name =
      (table.get? name).or (if name = bound then some address else none) := by
  cases lookup : table.get? bound with
  | some existing =>
      rw [bindInPlace_of_bound lookup]
      by_cases same : name = bound
      · rw [same, lookup]
        rfl
      · rw [if_neg same, Option.or_none]
  | none =>
      rw [bindInPlace_of_free lookup]
      by_cases same : name = bound
      · rw [same, lookup]
        simp [get?]
      · have different : bound ≠ name := Ne.symm same
        simp [get?, Std.ExtTreeMap.getElem?_insert, same, different]

/-! ### Sequences of requests -/

theorem afterAll_append_singleton (requests : List Request)
    (request : Request) :
    afterAll (requests ++ [request]) = ((afterAll requests).serve request).2 := by
  unfold afterAll
  rw [List.foldl_append]
  rfl

theorem additions_append_add (requests : List Request) (name : String)
    (address : Nat) :
    additions (requests ++ [.add name address]) =
      additions requests ++ [(name, address)] := by
  unfold additions
  rw [List.rtakeWhile_concat_pos _ _ _ (by simp), List.filterMap_append]
  rfl

theorem additions_append_reset (requests : List Request) :
    additions (requests ++ [.reset]) = [] := by
  unfold additions
  rw [List.rtakeWhile_concat_neg _ _ _ (by simp)]
  rfl

theorem get?_afterAll (requests : List Request) (name : String) :
    (afterAll requests).get? name = firstAdded? requests name := by
  unfold firstAdded?
  induction requests using List.reverseRecOn with
  | nil => exact get?_empty name
  | append_singleton requests request ih =>
      rw [afterAll_append_singleton]
      cases request with
      | add bound address =>
          rw [additions_append_add, List.lookup_append, ← ih]
          refine (get?_bindInPlace _ bound address name).trans (congrArg _ ?_)
          by_cases same : name = bound
          · rw [same, if_pos rfl, List.lookup_cons_self]
          · rw [if_neg same, List.lookup_cons, beq_false_of_ne same]
            rfl
      | reset =>
          rw [additions_append_reset]
          exact get?_empty name

/-! ### What a table has recorded -/

theorem firstAdded?_isSome_iff (requests : List Request) (name : String) :
    (firstAdded? requests name).isSome = true ↔
      name ∈ (additions requests).map Prod.fst := by
  rw [firstAdded?, List.lookup_isSome_iff, List.mem_map]
  constructor
  · intro parts
    obtain ⟨entry, member, same⟩ := parts
    exact ⟨entry, member, (beq_iff_eq.mp same).symm⟩
  · intro parts
    obtain ⟨entry, member, same⟩ := parts
    exact ⟨entry, member, beq_iff_eq.mpr same.symm⟩

theorem mem_keys_iff (table : LabelTable) (name : String) :
    name ∈ table.bindings.keys ↔ table.contains name = true := by
  rw [Std.ExtTreeMap.mem_keys, contains, get?]
  exact Std.ExtTreeMap.isSome_getElem?_iff_mem.symm

theorem nodup_keys (table : LabelTable) : table.bindings.keys.Nodup := by
  apply Std.ExtTreeMap.distinct_keys.imp
  intro first later different same
  rw [same] at different
  exact different Std.ReflCmp.compare_self

theorem size_eq_card (table : LabelTable) {names : List String}
    (known : ∀ name, table.contains name = true ↔ name ∈ names) :
    table.size = names.toFinset.card := by
  have same : table.bindings.keys.toFinset = names.toFinset := by
    ext name
    rw [List.mem_toFinset, List.mem_toFinset, mem_keys_iff, known]
  rw [size, ← Std.ExtTreeMap.length_keys, ← same,
    List.toFinset_card_of_nodup table.nodup_keys]

/-- What requests leave of a new table.  A further addition of a bound name is refused
with the address bound first, and changes nothing; the names contained are the
names added, each counted once. -/
structure Records (requests : List Request) (table : LabelTable) : Prop where
  resolves : ∀ name address, firstAdded? requests name = some address →
    table.resolve name = .ok address
  unknown : ∀ name, firstAdded? requests name = none →
    table.resolve name = .error (.unknownLabel name)
  refuses : ∀ name existing, firstAdded? requests name = some existing →
    ∀ address, table.bindInPlace name address =
      (.error (.duplicateLabel name existing), table)
  accepts : ∀ name, firstAdded? requests name = none →
    ∀ address, (table.bindInPlace name address).1 = .ok ()
  contains : ∀ name, table.contains name = true ↔
    name ∈ (additions requests).map Prod.fst
  size : table.size = ((additions requests).map Prod.fst).toFinset.card

theorem records_afterAll (requests : List Request) :
    Records requests (afterAll requests) := by
  have lookup := get?_afterAll requests
  have contains (name : String) : (afterAll requests).contains name = true ↔
      name ∈ (additions requests).map Prod.fst := by
    rw [LabelTable.contains, lookup, firstAdded?_isSome_iff]
  refine ⟨?_, ?_, ?_, ?_, contains, size_eq_card _ contains⟩
  · intro name address added
    rw [← lookup] at added
    rw [resolve, added]
  · intro name free
    rw [← lookup] at free
    rw [resolve, free]
  · intro name existing added address
    rw [← lookup] at added
    exact bindInPlace_of_bound added address
  · intro name free address
    rw [← lookup] at free
    rw [bindInPlace_of_free free]

end LabelTable
end RegisterMachine
