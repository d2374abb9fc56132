/-
The operation table.

An operation succeeds exactly when nothing stands in its way; it then does what the
table says on exact integers and touches nothing else.
-/

import Mathlib.Data.Int.ModEq
import RegisterMachine.Proofs.Echo
import RegisterMachine.Proofs.StepFailures

namespace RegisterMachine

/-! ### Exact values -/

/-- The word of 32 bits that an exact value wraps to. -/
structure WrapsTo (exact word : Int) : Prop where
  least : -2 ^ 31 ≤ word
  greatest : word ≤ 2 ^ 31 - 1
  congruent : exact ≡ word [ZMOD 2 ^ 32]

/-- A quotient is truncated toward zero, and the only one that is no word wraps. -/
inductive BinaryOp.Gives : BinaryOp → (left right value : Int) → Prop where
  | sum {left right value : Int} (wraps : WrapsTo (left + right) value) :
      Gives .add left right value
  | difference {left right value : Int}
      (wraps : WrapsTo (left - right) value) : Gives .sub left right value
  | product {left right value : Int} (wraps : WrapsTo (left * right) value) :
      Gives .mul left right value
  | quotient {left right : Int} (divides : right ≠ 0)
      (fits : ¬(left = -2 ^ 31 ∧ right = -1)) :
      Gives .div left right (left.tdiv right)
  | overflow {left right : Int} (least : left = -2 ^ 31)
      (negative : right = -1) : Gives .div left right (-2 ^ 31)
  | sign {left right : Int} : Gives .cmp left right (left - right).sign

theorem wrapsTo_iff (exact word : Int) :
    WrapsTo exact word ↔ exact.bmod (2 ^ 32) = word := by
  have divides := (Int.modEq_iff_dvd (n := 2 ^ 32) (a := exact) (b := word))
  rw [Int.bmod_eq_iff (by decide)]
  constructor
  · intro wraps
    obtain ⟨least, greatest, congruent⟩ := wraps
    exact ⟨by omega, by omega, divides.mp congruent⟩
  · intro parts
    obtain ⟨least, greatest, congruent⟩ := parts
    exact ⟨by omega, by omega, divides.mpr congruent⟩

theorem toInt_cmp (left right : Int32) :
    (if left < right then (-1 : Int32) else if left = right then 0 else 1).toInt =
      (left.toInt - right.toInt).sign := by
  rcases Int.lt_trichotomy left.toInt right.toInt with less | equal | greater
  · rw [if_pos (Int32.lt_iff_toInt_lt.mpr less),
      Int.sign_eq_neg_one_of_neg (by omega)]
    rfl
  · have same : left = right := Int32.toInt_inj.mp equal
    rw [if_neg (by rw [Int32.lt_iff_toInt_lt]; omega), if_pos same, equal,
      Int.sub_self]
    rfl
  · have different : left ≠ right := by
      intro same
      rw [same] at greater
      omega
    rw [if_neg (by rw [Int32.lt_iff_toInt_lt]; omega), if_neg different,
      Int.sign_eq_one_of_pos (by omega)]
    rfl

theorem toInt_div_of_fits {left right : Int32}
    (fits : ¬(left.toInt = -2 ^ 31 ∧ right.toInt = -1)) :
    (left / right).toInt = left.toInt.tdiv right.toInt := by
  by_cases least : left = Int32.minValue
  · apply Int32.toInt_div_of_ne_right
    intro negative
    exact fits ⟨by rw [least]; rfl, by rw [negative]; rfl⟩
  · exact Int32.toInt_div_of_ne_left left right least

theorem BinaryOp.gives_div_iff {left right : Int32} (divides : right ≠ 0)
    (value : Int) :
    Gives .div left.toInt right.toInt value ↔
      (left / right).toInt = value := by
  have nonzero : right.toInt ≠ 0 := by
    intro same
    exact divides (Int32.toInt_inj.mp same)
  by_cases overflows : left.toInt = -2 ^ 31 ∧ right.toInt = -1
  · obtain ⟨least, negative⟩ := overflows
    have wrapped : (left / right).toInt = -2 ^ 31 := by
      rw [Int32.toInt_div, least, negative]
      rfl
    rw [wrapped]
    constructor
    · intro gives
      cases gives with
      | quotient _ fits => exact absurd ⟨least, negative⟩ fits
      | overflow _ _ => rfl
    · intro equality
      subst equality
      exact .overflow least negative
  · rw [toInt_div_of_fits overflows]
    constructor
    · intro gives
      cases gives with
      | quotient _ _ => rfl
      | overflow least negative => exact absurd ⟨least, negative⟩ overflows
    · intro equality
      subst equality
      exact .quotient nonzero overflows

theorem BinaryOp.gives_iff (op : BinaryOp) (left right : Int32) (value : Int) :
    op.Gives left.toInt right.toInt value ↔
      ∃ word, op.apply left right = some word ∧ word.toInt = value := by
  cases op with
  | add =>
      simp only [apply, Option.some.injEq, exists_eq_left', Int32.toInt_add,
        ← wrapsTo_iff]
      constructor
      · intro gives
        cases gives with
        | sum wraps => exact wraps
      · exact .sum
  | sub =>
      simp only [apply, Option.some.injEq, exists_eq_left', Int32.toInt_sub,
        ← wrapsTo_iff]
      constructor
      · intro gives
        cases gives with
        | difference wraps => exact wraps
      · exact .difference
  | mul =>
      simp only [apply, Option.some.injEq, exists_eq_left', Int32.toInt_mul,
        ← wrapsTo_iff]
      constructor
      · intro gives
        cases gives with
        | product wraps => exact wraps
      · exact .product
  | div =>
      by_cases zero : right = 0
      · simp only [apply, if_pos zero, reduceCtorEq, false_and, exists_false,
          iff_false]
        intro gives
        rw [zero] at gives
        cases gives with
        | quotient divides _ => exact divides Int32.toInt_zero
        | overflow _ negative => contradiction
      · simp only [apply, if_neg zero, Option.some.injEq, exists_eq_left',
          gives_div_iff zero]
  | cmp =>
      simp only [apply, Option.some.injEq, exists_eq_left', toInt_cmp]
      constructor
      · intro gives
        cases gives with
        | sign => rfl
      · intro equality
        subst equality
        exact .sign

/-! ### The table -/

def Operation.written? : Operation → Option Register
  | .binary _ result _ => some result
  | .mov result _ => some result
  | _ => none

namespace Machine

structure CanPerform (machine : Machine) (operation : Operation) : Prop where
  divides : ∀ result source, operation = .binary .div result source →
    machine.registers.get source ≠ 0
  bound : ∀ target, operation.TakesJump machine.registers target →
    machine.labels.get? target ≠ none
  takes : ∀ source sink, operation = .out source → machine.echo = some sink →
    sink.answer sink.offered (echoLine (machine.registers.get source)) = none

/-- What the table says of an operation that succeeds.  A jump that is not taken goes
on under any label table, so its target is not looked up. -/
structure ByTable (machine : Machine) (operation : Operation)
    (directive : Directive) (after : Machine) : Prop
    extends SameControl machine after where
  computed : ∀ op result source, operation = .binary op result source →
    ∀ value, op.Gives (machine.registers.get result).toInt
        (machine.registers.get source).toInt value ↔
      (after.registers.get result).toInt = value
  loaded : ∀ result value, operation = .mov result value →
    after.registers.get result = value
  registers : ∀ register, operation.written? ≠ some register →
    after.registers.get register = machine.registers.get register
  output : after.output = machine.output ∧ operation.opcode ≠ .out ∨
    ∃ source, operation = .out source ∧
      after.output = machine.output.push (machine.registers.get source)
  sink : operation.opcode ≠ .out → after.echo = machine.echo
  jumps : ∀ address, directive = .jump address ↔
    ∃ target, operation.TakesJump machine.registers target ∧
      machine.labels.get? target = some address
  goesOn : directive = .next ↔
    ∀ target, ¬ operation.TakesJump machine.registers target
  notLookedUp : directive = .next → operation.opcode.isJump = true →
    ∀ labels : LabelTable,
      ({ machine with labels := labels }).perform operation =
        (.ok .next, { machine with labels := labels })

section Table

variable {machine after : Machine} {operation : Operation}
  {directive : Directive}

theorem Performed.gives {op : BinaryOp} {result source : Register}
    (performed : Performed machine (.binary op result source) (.ok directive)
      after) (value : Int) :
    op.Gives (machine.registers.get result).toInt
        (machine.registers.get source).toInt value ↔
      (after.registers.get result).toInt = value := by
  cases performed with
  | computed computes =>
      rw [op.gives_iff, computes]
      simp [setRegister]
  | jumped taken _ => cases taken

theorem Performed.get_of_not_written
    (performed : Performed machine operation (.ok directive) after)
    {register : Register} (other : operation.written? ≠ some register) :
    after.registers.get register = machine.registers.get register := by
  cases performed with
  | @computed _ result _ value _ | @loaded result value =>
      have different : register ≠ result := by
        intro same
        exact other (congrArg some same.symm)
      exact machine.registers.get_set_of_ne value different
  | emitted _ | echoed _ _ | jumped _ _ | passed _ => rfl

theorem Performed.sink
    (performed : Performed machine operation (.ok directive) after)
    (silent : operation.opcode ≠ .out) : after.echo = machine.echo := by
  cases performed with
  | computed _ | loaded | emitted _ | jumped _ _ | passed _ => rfl
  | echoed _ _ => exact absurd rfl silent

theorem takesJump_unique {registers : RegisterFile} {target other : String}
    (taken : operation.TakesJump registers target)
    (also : operation.TakesJump registers other) : other = target := by
  have named := target?_of_takesJump also
  rw [target?_of_takesJump taken] at named
  exact (Option.some.inj named).symm

theorem Performed.jump_iff
    (performed : Performed machine operation (.ok directive) after)
    (address : Nat) :
    directive = .jump address ↔
      ∃ target, operation.TakesJump machine.registers target ∧
        machine.labels.get? target = some address := by
  cases directive with
  | next =>
      constructor
      · intro impossible
        contradiction
      · intro jumps
        obtain ⟨target, taken, _⟩ := jumps
        exact absurd taken (performed.not_takesJump target)
  | jump reached =>
      cases performed with
      | jumped taken bound =>
          constructor
          · intro equality
            cases equality
            exact ⟨_, taken, bound⟩
          · intro jumps
            obtain ⟨target, also, lookup⟩ := jumps
            rw [takesJump_unique taken also, bound] at lookup
            exact congrArg Directive.jump (Option.some.inj lookup)

theorem Performed.next_iff
    (performed : Performed machine operation (.ok directive) after) :
    directive = .next ↔
      ∀ target, ¬ operation.TakesJump machine.registers target := by
  cases directive with
  | next =>
      constructor
      · intro _
        exact performed.not_takesJump
      · intro _
        rfl
  | jump address =>
      have jumps := (performed.jump_iff address).mp rfl
      obtain ⟨target, taken, _⟩ := jumps
      constructor
      · intro impossible
        contradiction
      · intro untaken
        exact absurd taken (untaken target)

theorem Performed.not_looked_up
    (performed : Performed machine operation (.ok .next) after)
    (jumps : operation.opcode.isJump = true) (labels : LabelTable) :
    ({ machine with labels := labels }).perform operation =
      (.ok .next, { machine with labels := labels }) := by
  cases performed with
  | passed untaken => exact perform_of_performed (.passed untaken)
  | computed _ | loaded | emitted _ | echoed _ _ => contradiction

theorem Performed.byTable
    (performed : Performed machine operation (.ok directive) after) :
    ByTable machine operation directive after := by
  refine ⟨performed.sameControl, ?_, ?_, ?_, performed.output_cases,
    performed.sink, performed.jump_iff, performed.next_iff, ?_⟩
  · intro op result source same
    subst same
    exact performed.gives
  · intro result value same
    subst same
    cases performed with
    | loaded => exact machine.registers.get_set_self result value
    | jumped taken _ => cases taken
  · intro register other
    exact performed.get_of_not_written other
  · intro next jumps
    subst next
    exact performed.not_looked_up jumps

theorem Performed.not_canPerform {fault : Fault}
    (performed : Performed machine operation (.error fault) after) :
    ¬ machine.CanPerform operation := by
  intro able
  cases performed with
  | dividedByZero zero => exact able.divides _ _ rfl zero
  | unbound taken free => exact able.bound _ taken free
  | refused attached refuses =>
      rw [able.takes _ _ rfl attached] at refuses
      contradiction

theorem Performed.canPerform
    (performed : Performed machine operation (.ok directive) after) :
    machine.CanPerform operation := by
  refine ⟨?_, ?_, ?_⟩
  · intro result source same zero
    subst same
    cases performed with
    | computed computes =>
        rw [BinaryOp.apply, if_pos zero] at computes
        contradiction
    | jumped taken _ => cases taken
  · intro target taken free
    cases directive with
    | next => exact performed.not_takesJump target taken
    | jump address =>
        cases performed with
        | jumped also bound =>
            rw [takesJump_unique taken also, free] at bound
            contradiction
  · intro source sink same attached
    subst same
    cases performed with
    | emitted silent =>
        rw [silent] at attached
        contradiction
    | echoed also takes =>
        rw [attached] at also
        cases also
        exact takes
    | jumped taken _ => cases taken

end Table

/-- An operation succeeds exactly when nothing stands in its way, and then it
does what the table says and touches nothing else. -/
theorem perform_by_table (machine : Machine) (operation : Operation) :
    ((∃ directive after,
        machine.perform operation = (.ok directive, after)) ↔
      machine.CanPerform operation) ∧
      ∀ directive after,
        machine.perform operation = (.ok directive, after) →
          ByTable machine operation directive after := by
  constructor
  · constructor
    · intro succeeds
      obtain ⟨directive, after, performs⟩ := succeeds
      exact (performed_of_perform performs).canPerform
    · intro able
      cases outcome : machine.perform operation with
      | mk result after =>
          cases result with
          | ok directive => exact ⟨directive, after, rfl⟩
          | error fault =>
              have failed := performed_of_perform outcome
              exact absurd able failed.not_canPerform
  · intro directive after performs
    exact (performed_of_perform performs).byTable

end Machine
end RegisterMachine
