/-
What one step can do.

`Stepped` lists the outcomes of a step with the conditions that lead to each, in the
order in which they are tried.  Properties of steps are proved from this list.
-/

import RegisterMachine.Proofs.Operations

namespace RegisterMachine

def Directive.destination (address : Nat) : Directive → Nat
  | .next => address + 1
  | .jump target => target

def Directive.isJump : Directive → Bool
  | .next => false
  | .jump _ => true

namespace Machine

/-! ### Operations -/

structure SameSetup (before after : Machine) : Prop where
  labels : after.labels = before.labels
  program : after.program = before.program
  limits : after.limits = before.limits
  echo : after.echo.isSome = before.echo.isSome

structure SameControl (before after : Machine) : Prop
    extends SameSetup before after where
  counter : after.counter = before.counter
  steps : after.steps = before.steps

theorem SameSetup.refl (machine : Machine) : SameSetup machine machine :=
  ⟨rfl, rfl, rfl, rfl⟩

theorem SameSetup.trans {first second third : Machine}
    (earlier : SameSetup first second) (later : SameSetup second third) :
    SameSetup first third :=
  ⟨later.labels.trans earlier.labels, later.program.trans earlier.program,
    later.limits.trans earlier.limits, later.echo.trans earlier.echo⟩

theorem SameSetup.silent {before after : Machine}
    (same : SameSetup before after) (silent : before.echo = none) :
    after.echo = none := by
  have kind := same.echo
  rw [silent] at kind
  exact Option.not_isSome_iff_eq_none.mp (Bool.eq_false_iff.mp kind)

theorem SameControl.refl (machine : Machine) : SameControl machine machine :=
  ⟨.refl machine, rfl, rfl⟩

theorem Performed.sameControl {machine after : Machine} {operation : Operation}
    {outcome : Except Fault Directive}
    (performed : Performed machine operation outcome after) :
    SameControl machine after := by
  cases performed with
  | computed _ | loaded | emitted _ => exact ⟨⟨rfl, rfl, rfl, rfl⟩, rfl, rfl⟩
  | echoed attached _ | refused attached _ =>
      have echo : machine.echo.isSome = true := by rw [attached]; rfl
      exact ⟨⟨rfl, rfl, rfl, echo.symm⟩, rfl, rfl⟩
  | dividedByZero _ | unbound _ _ | jumped _ _ | passed _ => exact .refl machine

theorem sameControl_of_perform {machine after : Machine}
    {operation : Operation} {outcome : Except Fault Directive}
    (performs : machine.perform operation = (outcome, after)) :
    SameControl machine after :=
  (performed_of_perform performs).sameControl

theorem target?_of_takesJump {registers : RegisterFile}
    {operation : Operation} {target : String}
    (taken : operation.TakesJump registers target) :
    operation.target? = some target := by
  cases taken <;> rfl

theorem perform_eq_jump {machine after : Machine} {operation : Operation}
    {address : Nat}
    (performs : machine.perform operation = (.ok (.jump address), after)) :
    ∃ target, operation.target? = some target ∧
      machine.labels.get? target = some address := by
  cases performed_of_perform performs with
  | jumped taken bound => exact ⟨_, target?_of_takesJump taken, bound⟩

theorem perform_eq_error {machine after : Machine} {operation : Operation}
    {fault : Fault}
    (performs : machine.perform operation = (.error fault, after)) :
    (∃ divisor, fault = .divisionByZero divisor) ∨
      (∃ target, operation.target? = some target ∧
        machine.labels.get? target = none ∧ fault = .unknownLabel target) ∨
      (machine.echo.isSome = true ∧ ∃ cause, fault = .io cause) := by
  cases performed_of_perform performs with
  | dividedByZero _ => exact .inl ⟨_, rfl⟩
  | unbound taken free =>
      exact .inr (.inl ⟨_, target?_of_takesJump taken, free, rfl⟩)
  | refused attached _ =>
      refine .inr (.inr ⟨?_, _, rfl⟩)
      rw [attached]
      rfl

/-! ### Steps -/

inductive Stepped (machine : Machine) : StepResult → Machine → Prop where
  | idle (halted : machine.isHalted = true) : Stepped machine .idle machine
  | limited {limits : Limits} (running : machine.isHalted = false)
      (attached : machine.limits = some limits)
      (passed : limits.maxSteps < machine.steps + 1) :
      Stepped machine
        (.failed (.execution machine.counter
          (.limit (.stepCount (machine.steps + 1) limits.maxSteps))) none)
        machine
  | faulted {instruction : Instruction} {fault : Fault} {after : Machine}
      (fetched : machine.program[machine.counter]? = some instruction)
      (allowed : machine.checkStep = .ok ())
      (performed : machine.perform instruction.operation =
        (.error fault, after)) :
      Stepped machine (.failed (.execution machine.counter fault) none) after
  | overshot {instruction : Instruction} {target : Nat} {after : Machine}
      (fetched : machine.program[machine.counter]? = some instruction)
      (allowed : machine.checkStep = .ok ())
      (performed : machine.perform instruction.operation =
        (.ok (.jump target), after))
      (outside : machine.program.size < target) :
      Stepped machine
        (.failed (.execution machine.counter
            (.counterPastEnd target machine.program.size))
          (some ⟨machine.counter, instruction, true, none⟩))
        { after with steps := machine.steps + 1 }
  | moved {instruction : Instruction} {directive : Directive} {after : Machine}
      (fetched : machine.program[machine.counter]? = some instruction)
      (allowed : machine.checkStep = .ok ())
      (performed : machine.perform instruction.operation =
        (.ok directive, after))
      (inside : directive.destination machine.counter ≤ machine.program.size) :
      Stepped machine
        (.ran ⟨machine.counter, instruction, directive.isJump,
          some (directive.destination machine.counter)⟩)
        { after with
          steps := machine.steps + 1
          counter := directive.destination machine.counter }

theorem isHalted_eq_false_iff (machine : Machine) :
    machine.isHalted = false ↔ machine.counter < machine.program.size := by
  simp [isHalted]

theorem isHalted_of_fetched {machine : Machine} {instruction : Instruction}
    (fetched : machine.program[machine.counter]? = some instruction) :
    machine.isHalted = false := by
  obtain ⟨inside, _⟩ := Array.getElem?_eq_some_iff.mp fetched
  exact (isHalted_eq_false_iff machine).mpr inside

theorem checkStep_cases (machine : Machine) :
    machine.checkStep = .ok () ∨
      ∃ limits, machine.limits = some limits ∧
        limits.maxSteps < machine.steps + 1 ∧
        machine.checkStep = .error
          (.limit (.stepCount (machine.steps + 1) limits.maxSteps)) := by
  unfold checkStep
  cases attached : machine.limits with
  | none => exact .inl rfl
  | some limits =>
      simp only [Limits.checkSteps]
      by_cases within : machine.steps + 1 ≤ limits.maxSteps
      · rw [if_pos within]
        exact .inl rfl
      · rw [if_neg within]
        exact .inr ⟨limits, rfl, Nat.lt_of_not_le within, rfl⟩

theorem step_of_isHalted {machine : Machine}
    (halted : machine.isHalted = true) : machine.step = (.idle, machine) := by
  have outside : machine.program.size ≤ machine.counter := by
    simpa [isHalted] using halted
  have nothing := Array.getElem?_eq_none outside
  simp only [step, nothing]

theorem step_of_refused {machine : Machine} {instruction : Instruction}
    {fault : Fault}
    (fetched : machine.program[machine.counter]? = some instruction)
    (refused : machine.checkStep = .error fault) :
    machine.step = (.failed (.execution machine.counter fault) none, machine) := by
  simp only [step, fetched, refused]

theorem step_of_error {machine after : Machine} {instruction : Instruction}
    {fault : Fault}
    (fetched : machine.program[machine.counter]? = some instruction)
    (allowed : machine.checkStep = .ok ())
    (performed : machine.perform instruction.operation = (.error fault, after)) :
    machine.step = (.failed (.execution machine.counter fault) none, after) := by
  simp only [step, fetched, allowed, performed]

theorem step_of_ok {machine after : Machine} {instruction : Instruction}
    {directive : Directive}
    (fetched : machine.program[machine.counter]? = some instruction)
    (allowed : machine.checkStep = .ok ())
    (performed : machine.perform instruction.operation =
      (.ok directive, after)) :
    machine.step = after.advance machine.counter instruction directive := by
  simp only [step, fetched, allowed, performed]

/-- A change that concerns neither the program nor the progress of a run. -/
structure KeepsControl (change : Machine → Machine) : Prop where
  program : ∀ machine, (change machine).program = machine.program
  counter : ∀ machine, (change machine).counter = machine.counter
  steps : ∀ machine, (change machine).steps = machine.steps
  moves : ∀ machine steps counter,
    change { machine with steps := steps, counter := counter } =
      { change machine with steps := steps, counter := counter }

theorem KeepsControl.advance {change : Machine → Machine}
    (keeps : KeepsControl change) (machine : Machine) (address : Nat)
    (instruction : Instruction) (directive : Directive) :
    (change machine).advance address instruction directive =
      ((machine.advance address instruction directive).1,
        change (machine.advance address instruction directive).2) := by
  have moves := keeps.moves machine (machine.steps + 1)
  have sameSize : (change machine).program.size = machine.program.size :=
    congrArg Array.size (keeps.program machine)
  cases directive with
  | next => rw [Machine.advance, Machine.advance, keeps.steps, moves]
  | jump target =>
      rw [Machine.advance, Machine.advance, keeps.steps, sameSize]
      by_cases inside : target ≤ machine.program.size
      · rw [if_pos inside, if_pos inside, moves]
      · rw [if_neg inside, if_neg inside]
        refine Prod.ext rfl ?_
        have stays := moves machine.counter
        simp only
        rw [stays, ← keeps.counter machine]

/-- When neither the check nor the operation notices such a change, the step
does the same, and the change is still there after it. -/
theorem KeepsControl.step {change : Machine → Machine}
    (keeps : KeepsControl change) {machine : Machine}
    (sameCheck : (change machine).checkStep = machine.checkStep)
    (performs : ∀ instruction,
      machine.program[machine.counter]? = some instruction →
        machine.checkStep = .ok () →
          (change machine).perform instruction.operation =
            ((machine.perform instruction.operation).1,
              change (machine.perform instruction.operation).2)) :
    (change machine).step = (machine.step.1, change machine.step.2) := by
  have sameFetch : (change machine).program[(change machine).counter]? =
      machine.program[machine.counter]? := by
    rw [keeps.counter, keeps.program]
  cases fetched : machine.program[machine.counter]? with
  | none => simp only [Machine.step, sameFetch, fetched]
  | some instruction =>
      rw [fetched] at sameFetch
      cases check : machine.checkStep with
      | error fault =>
          rw [check] at sameCheck
          rw [step_of_refused fetched check,
            step_of_refused sameFetch sameCheck, keeps.counter]
      | ok allowed =>
          have performed := performs instruction fetched check
          rw [check] at sameCheck
          cases outcome : machine.perform instruction.operation with
          | mk result after =>
              rw [outcome] at performed
              cases result with
              | error fault =>
                  rw [step_of_error fetched check outcome,
                    step_of_error sameFetch sameCheck performed, keeps.counter]
              | ok directive =>
                  rw [step_of_ok fetched check outcome,
                    step_of_ok sameFetch sameCheck performed, keeps.counter]
                  exact keeps.advance after machine.counter instruction
                    directive

theorem stepped_step (machine : Machine) :
    Stepped machine machine.step.1 machine.step.2 := by
  cases fetched : machine.program[machine.counter]? with
  | none =>
      have outside := Array.getElem?_eq_none_iff.mp fetched
      have halted : machine.isHalted = true := by
        simpa [isHalted] using outside
      rw [step_of_isHalted halted]
      exact .idle halted
  | some instruction =>
      have running := isHalted_of_fetched fetched
      rcases checkStep_cases machine with allowed | refused
      · cases performed : machine.perform instruction.operation with
        | mk outcome after =>
            have same := sameControl_of_perform performed
            cases outcome with
            | error fault =>
                rw [step_of_error fetched allowed performed]
                exact .faulted fetched allowed performed
            | ok directive =>
                rw [step_of_ok fetched allowed performed]
                cases directive with
                | next =>
                    have inside := (isHalted_eq_false_iff machine).mp running
                    rw [advance, same.steps]
                    exact .moved fetched allowed performed inside
                | jump target =>
                    have size : after.program.size = machine.program.size :=
                      congrArg Array.size same.program
                    rw [advance, same.steps, size]
                    by_cases inside : target ≤ machine.program.size
                    · rw [if_pos inside]
                      exact .moved fetched allowed performed inside
                    · rw [if_neg inside]
                      exact .overshot fetched allowed performed
                        (Nat.lt_of_not_le inside)
      · obtain ⟨limits, attached, passed, outcome⟩ := refused
        rw [step_of_refused fetched outcome]
        exact .limited running attached passed

theorem stepped_of_step {machine after : Machine} {result : StepResult}
    (stepped : machine.step = (result, after)) :
    Stepped machine result after := by
  have outcome := stepped_step machine
  rw [stepped] at outcome
  exact outcome

theorem sameSetup_step (machine : Machine) :
    SameSetup machine machine.step.2 := by
  have outcome := stepped_step machine
  generalize machine.step.2 = reached at outcome
  generalize machine.step.1 = result at outcome
  cases outcome with
  | idle _ => exact .refl machine
  | limited _ _ _ => exact .refl machine
  | faulted _ _ performed =>
      exact (sameControl_of_perform performed).toSameSetup
  | overshot _ _ performed _ =>
      have same := sameControl_of_perform performed
      exact ⟨same.labels, same.program, same.limits, same.echo⟩
  | moved _ _ performed _ =>
      have same := sameControl_of_perform performed
      exact ⟨same.labels, same.program, same.limits, same.echo⟩

theorem sameSetup_of_step {machine after : Machine} {result : StepResult}
    (stepped : machine.step = (result, after)) : SameSetup machine after := by
  have same := sameSetup_step machine
  rw [stepped] at same
  exact same

theorem isHalted_of_step_eq_ran {machine after : Machine} {event : Event}
    (ran : machine.step = (.ran event, after)) : machine.isHalted = false := by
  cases stepped_of_step ran with
  | moved fetched _ _ _ => exact isHalted_of_fetched fetched

theorem isHalted_of_step_eq_failed {machine after : Machine} {fault : Fault}
    {event : Option Event} (failed : machine.step = (.failed fault event, after)) :
    machine.isHalted = false := by
  cases stepped_of_step failed with
  | limited running _ _ => exact running
  | faulted fetched _ _ => exact isHalted_of_fetched fetched
  | overshot fetched _ _ _ => exact isHalted_of_fetched fetched

theorem steps_of_step_eq_ran {machine after : Machine} {event : Event}
    (ran : machine.step = (.ran event, after)) :
    after.steps = machine.steps + 1 := by
  cases stepped_of_step ran with
  | moved _ _ _ _ => rfl

theorem steps_of_step_eq_failed {machine after : Machine} {fault : Fault}
    {event : Option Event} (failed : machine.step = (.failed fault event, after)) :
    after.steps ≤ machine.steps + 1 := by
  cases stepped_of_step failed with
  | limited _ _ _ => exact Nat.le_succ _
  | faulted _ _ performed =>
      have same := sameControl_of_perform performed
      rw [same.steps]
      exact Nat.le_succ _
  | overshot _ _ _ _ => exact Nat.le_refl _

end Machine
end RegisterMachine
