/-
Whole histories of a machine.

From outside, a machine is stepped, run, reset, written to and reconfigured in any
order, whether this succeeds or fails.  The addresses of the label table are
arbitrary: only the check after a jump keeps the counter inside the program.
-/

import RegisterMachine.Proofs.Runs

namespace RegisterMachine
namespace Machine

inductive Call where
  | step
  | execute (fuel : Nat)
  | reset
  | setRegister (register : Register) (value : Int32)
  | clearRegisters
  | withLimits (limits : Limits)
  | withEcho (sink : Sink)
  | perform (instruction : Instruction)

def call (machine : Machine) : Call → Machine
  | .step => machine.step.2
  | .execute fuel => (machine.execute fuel).2
  | .reset => machine.reset
  | .setRegister register value => machine.setRegister register value
  | .clearRegisters => machine.clearRegisters
  | .withLimits limits => machine.withLimits limits
  | .withEcho sink => machine.withEcho sink
  | .perform instruction => (machine.perform instruction.operation).2

def callAll (machine : Machine) (calls : List Call) : Machine :=
  calls.foldl call machine

/-! ### What every call keeps -/

/-- The machine still has the given labels and program, and its counter is an
address of the program or the address after its end. -/
structure Intact (labels : LabelTable) (program : Array Instruction)
    (machine : Machine) : Prop where
  inside : machine.counter ≤ program.size
  sameLabels : machine.labels = labels
  sameProgram : machine.program = program

section Intact

variable {labels : LabelTable} {program : Array Instruction}
  {machine : Machine}

theorem intact_ofParts (labels : LabelTable) (program : Array Instruction) :
    Intact labels program (ofParts labels program) :=
  ⟨Nat.zero_le _, rfl, rfl⟩

theorem counter_step_le (inside : machine.counter ≤ machine.program.size) :
    machine.step.2.counter ≤ machine.program.size := by
  cases outcome : machine.step with
  | mk result reached =>
      cases stepped_of_step outcome with
      | idle _ => exact inside
      | limited _ _ _ => exact inside
      | faulted _ _ performs =>
          rw [(sameControl_of_perform performs).counter]
          exact inside
      | overshot _ _ performs _ =>
          -- the jump is counted, but the counter has not moved
          have same := sameControl_of_perform performs
          exact Nat.le_trans (Nat.le_of_eq same.counter) inside
      | moved _ _ _ reachable => exact reachable

theorem Intact.step (intact : Intact labels program machine) :
    Intact labels program machine.step.2 := by
  have same := sameSetup_step machine
  have bounded : machine.counter ≤ machine.program.size := by
    rw [intact.sameProgram]
    exact intact.inside
  refine ⟨?_, same.labels.trans intact.sameLabels,
    same.program.trans intact.sameProgram⟩
  rw [← intact.sameProgram]
  exact counter_step_le bounded

theorem Intact.rewind (intact : Intact labels program machine) :
    Intact labels program machine.rewind :=
  ⟨Nat.zero_le _, intact.sameLabels, intact.sameProgram⟩

theorem Intact.execute (intact : Intact labels program machine) (fuel : Nat) :
    Intact labels program (machine.execute fuel).2 :=
  proceed_invariant (fun _ _ => ()) (fun _ kept => kept.step) fuel
    machine.rewind () intact.rewind

theorem Intact.perform (intact : Intact labels program machine)
    (operation : Operation) :
    Intact labels program (machine.perform operation).2 := by
  have same : SameControl machine (machine.perform operation).2 :=
    sameControl_of_perform rfl
  refine ⟨?_, same.labels.trans intact.sameLabels,
    same.program.trans intact.sameProgram⟩
  rw [same.counter]
  exact intact.inside

theorem Intact.call (intact : Intact labels program machine) (use : Call) :
    Intact labels program (machine.call use) := by
  cases use with
  | step => exact intact.step
  | execute fuel => exact intact.execute fuel
  | reset => exact ⟨Nat.zero_le _, intact.sameLabels, intact.sameProgram⟩
  | setRegister register value =>
      exact ⟨intact.inside, intact.sameLabels, intact.sameProgram⟩
  | clearRegisters =>
      exact ⟨intact.inside, intact.sameLabels, intact.sameProgram⟩
  | withLimits limits =>
      exact ⟨intact.inside, intact.sameLabels, intact.sameProgram⟩
  | withEcho sink =>
      exact ⟨intact.inside, intact.sameLabels, intact.sameProgram⟩
  | perform instruction => exact intact.perform instruction.operation

theorem Intact.callAll (intact : Intact labels program machine)
    (calls : List Call) : Intact labels program (machine.callAll calls) := by
  induction calls generalizing machine with
  | nil => exact intact
  | cons use rest ih => exact ih (intact.call use)

theorem Intact.isHalted_iff (intact : Intact labels program machine) :
    machine.isHalted = true ↔ machine.counter = program.size := by
  have inside := intact.inside
  rw [isHalted, decide_eq_true_iff, intact.sameProgram]
  omega

end Intact

/-! ### Runs that halt -/

theorem isHalted_of_proceed {σ : Type} (watch : σ → Event → σ) (fuel : Nat)
    (machine : Machine) (seen : σ)
    (halted : (proceed watch fuel machine seen).verdict = .halted) :
    (proceed watch fuel machine seen).machine.isHalted = true := by
  induction fuel generalizing machine seen with
  | zero => contradiction
  | succ fuel ih =>
      cases outcome : machine.step with
      | mk result after =>
          cases result with
          | idle =>
              cases stepped_of_step outcome with
              | idle halts => simpa [proceed, outcome] using halts
          | failed fault event =>
              cases event <;> simp [proceed, outcome] at halted
          | ran event =>
              simp only [proceed, outcome] at halted ⊢
              cases halts : after.isHalted with
              | true => exact halts
              | false =>
                  rw [halts] at halted
                  exact ih after (watch seen event) halted

/-! ### Histories -/

/-- What holds after any history.  A machine has halted exactly when its counter
stands at the end; a step of a halted machine changes nothing; and an execution
that returns without a fault leaves the machine halted. -/
structure Dependable (labels : LabelTable) (program : Array Instruction)
    (machine : Machine) : Prop extends Intact labels program machine where
  halted : machine.isHalted = true ↔ machine.counter = program.size
  idle : machine.isHalted = true → ∀ limits : Option Limits,
    ({ machine with limits := limits }).step.1.more
        ({ machine with limits := limits }).step.2 = .ok false ∧
      ({ machine with limits := limits }).step.2 =
        { machine with limits := limits }
  finished : ∀ fuel, (machine.execute fuel).1 = .halted →
    (machine.execute fuel).2.isHalted = true ∧
      (machine.execute fuel).2.counter = program.size

theorem dependable_callAll (labels : LabelTable) (program : Array Instruction)
    (calls : List Call) :
    Dependable labels program ((ofParts labels program).callAll calls) := by
  have intact := (intact_ofParts labels program).callAll calls
  refine ⟨intact, intact.isHalted_iff, ?_, ?_⟩
  · intro halted limits
    have stays : ({ (ofParts labels program).callAll calls with
        limits := limits }).isHalted = true := halted
    rw [step_of_isHalted stays]
    exact ⟨rfl, rfl⟩
  · intro fuel returned
    have halted := isHalted_of_proceed (fun _ _ => ()) fuel _ () returned
    exact ⟨halted, (intact.execute fuel).isHalted_iff.mp halted⟩

end Machine
end RegisterMachine
