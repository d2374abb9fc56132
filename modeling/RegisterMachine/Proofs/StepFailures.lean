/-
How a step fails.

There are five ways, and each leaves a machine of its own: a passed limit, a
division by zero and an unbound target leave it as it was, a jump past the end has
counted its instruction, and a line refused by the sink has left its value in the
output.
-/

import Mathlib.Algebra.Group.Nat.Defs
import RegisterMachine.Proofs.StepCases

namespace RegisterMachine
namespace Machine

def WithinLimits (machine : Machine) : Prop :=
  ∀ limits, machine.limits = some limits → machine.steps + 1 ≤ limits.maxSteps

/-- What the operation does counts only when the limits allow it. -/
inductive StepFault (machine : Machine) (operation : Operation) :
    Fault → Machine → Prop where
  | limit {limits : Limits} (attached : machine.limits = some limits)
      (passed : limits.maxSteps < machine.steps + 1) :
      StepFault machine operation
        (.limit (.stepCount (machine.steps + 1) limits.maxSteps)) machine
  | division {result source : Register} (within : machine.WithinLimits)
      (divides : operation = .binary .div result source)
      (zero : machine.registers.get source = 0) :
      StepFault machine operation (.divisionByZero source) machine
  | unbound {target : String} (within : machine.WithinLimits)
      (taken : operation.TakesJump machine.registers target)
      (free : machine.labels.get? target = none) :
      StepFault machine operation (.unknownLabel target) machine
  | pastEnd {target : String} {address : Nat} (within : machine.WithinLimits)
      (taken : operation.TakesJump machine.registers target)
      (bound : machine.labels.get? target = some address)
      (outside : machine.program.size < address) :
      StepFault machine operation
        (.counterPastEnd address machine.program.size)
        { machine with steps := machine.steps + 1 }
  | refused {source : Register} {sink : Sink} {cause : IoFault}
      (within : machine.WithinLimits) (puts : operation = .out source)
      (attached : machine.echo = some sink)
      (refuses : sink.answer sink.offered
        (echoLine (machine.registers.get source)) = some cause) :
      StepFault machine operation (.io cause)
        { machine with
          output := machine.output.push (machine.registers.get source)
          echo := some { sink with offered := sink.offered + 1 } }

/-- Beyond its operation the step only counts it and moves the counter. -/
structure StepCompletes (machine : Machine) (operation : Operation)
    (after : Machine) : Prop where
  counted : after.steps = machine.steps + 1
  inside : after.counter ≤ machine.program.size
  moved : ((∀ target, ¬ operation.TakesJump machine.registers target) ∧
      after.counter = machine.counter + 1) ∨
    ∃ target, operation.TakesJump machine.registers target ∧
      machine.labels.get? target = some after.counter
  effect : ∃ directive, Performed machine operation (.ok directive)
    { after with steps := machine.steps, counter := machine.counter }

/-! ### The limits -/

theorem checkStep_eq_ok_iff (machine : Machine) :
    machine.checkStep = .ok () ↔ machine.WithinLimits := by
  unfold checkStep WithinLimits
  cases machine.limits with
  | none => simp
  | some limits =>
      simp only [Limits.checkSteps, Option.some.injEq, forall_eq']
      by_cases within : machine.steps + 1 ≤ limits.maxSteps
      · simp [within]
      · simp [within]

/-! ### Failing steps -/

section Steps

variable {machine after : Machine} {instruction : Instruction}

theorem stepFault_of_step
    (fetched : machine.program[machine.counter]? = some instruction)
    {fault : Fault} {event : Option Event}
    (failed : machine.step = (.failed fault event, after)) :
    ∃ cause, fault = .execution machine.counter cause ∧
      StepFault machine instruction.operation cause after := by
  cases stepped_of_step failed with
  | limited _ attached passed => exact ⟨_, rfl, .limit attached passed⟩
  | faulted known allowed performs =>
      rw [fetched] at known
      cases known
      have within := (checkStep_eq_ok_iff machine).mp allowed
      refine ⟨_, rfl, ?_⟩
      generalize instruction.operation = operation at performs
      cases performed_of_perform performs with
      | dividedByZero zero => exact .division within rfl zero
      | refused attached refuses =>
          exact .refused within rfl attached refuses
      | unbound taken free => exact .unbound within taken free
  | overshot known allowed performs outside =>
      rw [fetched] at known
      cases known
      have within := (checkStep_eq_ok_iff machine).mp allowed
      refine ⟨_, rfl, ?_⟩
      generalize instruction.operation = operation at performs
      cases performed_of_perform performs with
      | jumped taken bound => exact .pastEnd within taken bound outside

theorem step_of_stepFault
    (fetched : machine.program[machine.counter]? = some instruction)
    {cause : Fault}
    (faulty : StepFault machine instruction.operation cause after) :
    ∃ event, machine.step =
      (.failed (.execution machine.counter cause) event, after) := by
  cases faulty with
  | @limit limits attached passed =>
      have refused : machine.checkStep = .error
          (.limit (.stepCount (machine.steps + 1) limits.maxSteps)) := by
        rw [checkStep, attached]
        exact if_neg (Nat.not_le_of_lt passed)
      exact ⟨none, step_of_refused fetched refused⟩
  | division within divides zero =>
      have allowed := (checkStep_eq_ok_iff machine).mpr within
      have performs := perform_of_performed
        (divides ▸ Performed.dividedByZero zero)
      exact ⟨none, step_of_error fetched allowed performs⟩
  | unbound within taken free =>
      have allowed := (checkStep_eq_ok_iff machine).mpr within
      have performs := perform_of_performed (Performed.unbound taken free)
      exact ⟨none, step_of_error fetched allowed performs⟩
  | pastEnd within taken bound outside =>
      have allowed := (checkStep_eq_ok_iff machine).mpr within
      have performs := perform_of_performed (Performed.jumped taken bound)
      refine ⟨some ⟨machine.counter, instruction, true, none⟩, ?_⟩
      rw [step_of_ok fetched allowed performs, advance,
        if_neg (Nat.not_le_of_lt outside)]
  | refused within puts attached refuses =>
      have allowed := (checkStep_eq_ok_iff machine).mpr within
      have performs := perform_of_performed
        (puts ▸ Performed.refused attached refuses)
      exact ⟨none, step_of_error fetched allowed performs⟩

theorem Performed.not_takesJump {operation : Operation}
    (performed : Performed machine operation (.ok .next) after)
    (target : String) : ¬ operation.TakesJump machine.registers target := by
  intro taken
  have performs := perform_of_performed performed
  rw [perform_of_takesJump taken, follow] at performs
  split at performs <;> simp at performs

theorem stepCompletes_of_performed {operation : Operation}
    {directive : Directive}
    (performed : Performed machine operation (.ok directive) after)
    (inside : directive.destination machine.counter ≤ machine.program.size) :
    StepCompletes machine operation
      { after with
        steps := machine.steps + 1
        counter := directive.destination machine.counter } := by
  have same := sameControl_of_perform (perform_of_performed performed)
  refine ⟨rfl, inside, ?_, directive, ?_⟩
  · cases directive with
    | next => exact .inl ⟨performed.not_takesJump, rfl⟩
    | jump address =>
        cases performed with
        | jumped taken bound => exact .inr ⟨_, taken, bound⟩
  · rw [← same.steps, ← same.counter]
    exact performed

theorem stepCompletes_of_no_fault
    (fetched : machine.program[machine.counter]? = some instruction)
    (sound : ¬ ∃ cause after,
      StepFault machine instruction.operation cause after) :
    StepCompletes machine instruction.operation machine.step.2 ∧
      ∃ event, machine.step.1 = .ran event := by
  have noFailure (fault : Fault) (event : Option Event) (after : Machine)
      (failed : machine.step = (.failed fault event, after)) : False := by
    obtain ⟨cause, _, faulty⟩ := stepFault_of_step fetched failed
    exact sound ⟨cause, after, faulty⟩
  cases outcome : machine.step with
  | mk result reached =>
      cases result with
      | failed fault event => exact (noFailure fault event reached outcome).elim
      | idle =>
          have running := isHalted_of_fetched fetched
          cases stepped_of_step outcome with
          | idle halted =>
              rw [running] at halted
              contradiction
      | ran event =>
          refine ⟨?_, event, rfl⟩
          cases stepped_of_step outcome with
          | moved known _ performs inside =>
              rw [fetched] at known
              cases known
              exact stepCompletes_of_performed
                (performed_of_perform performs) inside

end Steps

theorem steps_step_le (machine : Machine) :
    machine.step.2.steps ≤ machine.steps + 1 := by
  cases outcome : machine.step with
  | mk result reached =>
      cases result with
      | idle =>
          cases stepped_of_step outcome with
          | idle _ => exact Nat.le_succ _
      | ran event => exact Nat.le_of_eq (steps_of_step_eq_ran outcome)
      | failed fault event => exact steps_of_step_eq_failed outcome

theorem StepFault.address?_eq_none {machine after : Machine}
    {operation : Operation} {cause : Fault}
    (faulty : StepFault machine operation cause after) :
    cause.address? = none := by
  cases faulty <;> rfl

theorem more_eq_error_iff (result : StepResult) (after : Machine)
    (fault : Fault) :
    result.more after = .error fault ↔
      ∃ event, result = .failed fault event := by
  cases result with
  | idle => simp [StepResult.more]
  | ran event => simp [StepResult.more]
  | failed known event => simp [StepResult.more]

/-- A step that is not idle fails exactly with the listed causes, each wrapped once with
the address of its instruction.  Otherwise it carries out its operation, counts it,
and says whether there is more to run. -/
theorem step_fails_iff_stepFault (machine : Machine)
    {instruction : Instruction}
    (fetched : machine.program[machine.counter]? = some instruction)
    (countable : machine.steps < 2 ^ 64 - 1) :
    (∀ fault after,
      (machine.step.1.more machine.step.2 = .error fault ∧
          machine.step.2 = after) ↔
        ∃ cause, fault = .execution machine.counter cause ∧
          cause.address? = none ∧
            StepFault machine instruction.operation cause after) ∧
      ((¬∃ cause after,
          StepFault machine instruction.operation cause after) →
        machine.step.1.more machine.step.2 =
            .ok (decide (machine.step.2.counter < machine.program.size)) ∧
          StepCompletes machine instruction.operation machine.step.2) ∧
      machine.step.2.steps < 2 ^ 64 := by
  refine ⟨?_, ?_, ?_⟩
  · intro fault after
    constructor
    · intro parts
      obtain ⟨returned, left⟩ := parts
      obtain ⟨event, failed⟩ := (more_eq_error_iff _ _ fault).mp returned
      have outcome : machine.step = (.failed fault event, after) :=
        Prod.ext failed left
      obtain ⟨cause, wrapped, faulty⟩ := stepFault_of_step fetched outcome
      exact ⟨cause, wrapped, faulty.address?_eq_none, faulty⟩
    · intro parts
      obtain ⟨cause, wrapped, _, faulty⟩ := parts
      obtain ⟨event, outcome⟩ := step_of_stepFault fetched faulty
      rw [outcome, wrapped]
      exact ⟨rfl, rfl⟩
  · intro sound
    obtain ⟨completes, event, ran⟩ := stepCompletes_of_no_fault fetched sound
    have same := sameSetup_step machine
    have halts : machine.step.2.isHalted =
        !decide (machine.step.2.counter < machine.program.size) := by
      rw [isHalted, same.program, ← decide_not]
      exact decide_eq_decide.mpr Nat.not_lt.symm
    refine ⟨?_, completes⟩
    rw [ran, StepResult.more, halts, Bool.not_not]
  · have counted := steps_step_le machine
    omega

theorem step_fails_iff_stepFault_of_division :
    (let machine := (ofParts .empty
        #[⟨none, .binary .div .eax .ebx⟩]).withLimits ⟨0, 0, 0⟩
     machine.program[machine.counter]? =
          some ⟨none, .binary .div .eax .ebx⟩ ∧
        machine.step.1.more machine.step.2 =
            .error (.execution 0 (.limit (.stepCount 1 0))) ∧
          machine.step.2 = machine) ∧
      let machine := (ofParts .empty
        #[⟨none, .binary .div .eax .ebx⟩]).withLimits ⟨0, 0, 1⟩
      machine.program[machine.counter]? =
          some ⟨none, .binary .div .eax .ebx⟩ ∧
        machine.step.1.more machine.step.2 =
            .error (.execution 0 (.divisionByZero .ebx)) ∧
          machine.step.2 = machine := by
  constructor
  · intro machine
    have fetched : machine.program[machine.counter]? =
        some ⟨none, .binary .div .eax .ebx⟩ := rfl
    have limited : StepFault machine (.binary .div .eax .ebx)
        (.limit (.stepCount 1 0)) machine :=
      @StepFault.limit machine _ ⟨0, 0, 0⟩ rfl (by decide)
    have fails := (step_fails_iff_stepFault machine fetched (by decide)).1
    exact ⟨fetched, (fails _ _).mpr ⟨_, rfl, rfl, limited⟩⟩
  · intro machine
    have fetched : machine.program[machine.counter]? =
        some ⟨none, .binary .div .eax .ebx⟩ := rfl
    have within : machine.WithinLimits := by
      intro limits attached
      cases attached
      decide
    have divides : StepFault machine (.binary .div .eax .ebx)
        (.divisionByZero .ebx) machine := .division within rfl rfl
    have fails := (step_fails_iff_stepFault machine fetched (by decide)).1
    exact ⟨fetched, (fails _ _).mpr ⟨_, rfl, rfl, divides⟩⟩

end Machine
end RegisterMachine
