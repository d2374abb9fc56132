/-
Runs under a step limit.

A limited machine steps exactly as the same machine without limits while its step
count is below the limit, and refuses every further step.  By induction along the
run, a limit bounds every run and does not show until it is hit.
-/

import Mathlib.Algebra.Group.Nat.Defs
import RegisterMachine.Proofs.Runs

namespace RegisterMachine
namespace Machine

def withoutLimits (machine : Machine) : Machine :=
  { machine with limits := none }

/-! ### One step -/

section Step

variable (machine : Machine) (limits : Limits)

theorem Performed.withLimits {machine after : Machine} {operation : Operation}
    {outcome : Except Fault Directive}
    (performed : Performed machine operation outcome after) (limits : Limits) :
    Performed (machine.withLimits limits) operation outcome
      (after.withLimits limits) := by
  cases performed with
  | computed computes => exact .computed computes
  | dividedByZero zero => exact .dividedByZero zero
  | loaded => exact .loaded
  | emitted silent => exact .emitted silent
  | echoed attached takes => exact .echoed attached takes
  | refused attached refuses => exact .refused attached refuses
  | unbound taken free => exact .unbound taken free
  | jumped taken bound => exact .jumped taken bound
  | passed untaken => exact .passed untaken

theorem perform_withLimits (operation : Operation) :
    (machine.withLimits limits).perform operation =
      ((machine.perform operation).1,
        (machine.perform operation).2.withLimits limits) := by
  have performed : Performed machine operation (machine.perform operation).1
      (machine.perform operation).2 := performed_of_perform rfl
  exact perform_of_performed (performed.withLimits limits)

theorem keepsControl_withLimits :
    KeepsControl fun machine => machine.withLimits limits :=
  ⟨fun _ => rfl, fun _ => rfl, fun _ => rfl, fun _ _ _ => rfl⟩

end Step

theorem step_withLimits_of_lt {machine : Machine} (limits : Limits)
    (free : machine.limits = none) (below : machine.steps < limits.maxSteps) :
    (machine.withLimits limits).step =
      (machine.step.1, machine.step.2.withLimits limits) := by
  have allowed : (machine.withLimits limits).checkStep = .ok () :=
    if_pos (Nat.succ_le_of_lt below)
  have unchecked : machine.checkStep = .ok () := by
    rw [checkStep, free]
  refine (keepsControl_withLimits limits).step (allowed.trans unchecked.symm) ?_
  intro instruction _ _
  exact perform_withLimits machine limits instruction.operation

theorem step_withLimits_of_le {machine : Machine} (limits : Limits)
    (running : machine.isHalted = false)
    (hit : limits.maxSteps ≤ machine.steps) :
    (machine.withLimits limits).step =
      (.failed (.execution machine.counter
        (.limit (.stepCount (machine.steps + 1) limits.maxSteps))) none,
        machine.withLimits limits) := by
  have refused : (machine.withLimits limits).checkStep =
      .error (.limit (.stepCount (machine.steps + 1) limits.maxSteps)) :=
    if_neg (Nat.not_le_of_lt (Nat.lt_succ_of_le hit))
  have inside := (isHalted_eq_false_iff machine).mp running
  have fetched : (machine.withLimits limits).program[machine.counter]? =
      some machine.program[machine.counter] :=
    Array.getElem?_eq_getElem inside
  exact step_of_refused fetched refused

theorem steps_le_of_step_eq_ran {machine after : Machine} {limits : Limits}
    {event : Event} (attached : machine.limits = some limits)
    (ran : machine.step = (.ran event, after)) :
    after.steps ≤ limits.maxSteps := by
  cases stepped_of_step ran with
  | moved _ allowed _ _ =>
      change machine.steps + 1 ≤ limits.maxSteps
      rcases Nat.lt_or_ge limits.maxSteps (machine.steps + 1) with passed | kept
      · rw [checkStep, attached] at allowed
        simp only [Limits.checkSteps, if_neg (Nat.not_le_of_lt passed)] at allowed
        contradiction
      · exact kept

/-! ### Whole runs -/

section Runs

variable {limits : Limits}

theorem StepsTo.withLimits {start reached : Machine} {events : List Event}
    (stepped : StepsTo start events reached) (free : start.limits = none)
    (within : start.steps + events.length ≤ limits.maxSteps) :
    StepsTo (start.withLimits limits) events (reached.withLimits limits) := by
  induction stepped with
  | refl machine => exact .refl _
  | @cons start middle reached event events first others ih =>
      rw [List.length_cons] at within
      have below : start.steps < limits.maxSteps := by omega
      have limited := step_withLimits_of_lt limits free below
      have same := sameSetup_of_step first
      have counted := steps_of_step_eq_ran first
      rw [first] at limited
      exact .cons limited (ih (same.limits.trans free) (by omega))

theorem Ends.withLimits {machine final : Machine} {executed : Nat}
    {verdict : Verdict} (ended : Ends machine executed verdict final)
    (free : machine.limits = none)
    (within : machine.steps + executed ≤ limits.maxSteps) :
    Ends (machine.withLimits limits) executed verdict
      (final.withLimits limits) := by
  induction ended with
  | halted halts => exact .halted halts
  | failed failure =>
      have limited := step_withLimits_of_lt limits free within
      rw [failure] at limited
      exact .failed limited
  | @step machine middle final event executed verdict ran later ih =>
      have below : machine.steps < limits.maxSteps := by omega
      have limited := step_withLimits_of_lt limits free below
      have same := sameSetup_of_step ran
      have counted := steps_of_step_eq_ran ran
      rw [ran] at limited
      exact .step limited (ih (same.limits.trans free) (by omega))

theorem StepsTo.steps_le_maxSteps {start reached : Machine}
    {events : List Event} (stepped : StepsTo start events reached)
    (attached : start.limits = some limits)
    (within : start.steps ≤ limits.maxSteps) :
    reached.steps ≤ limits.maxSteps := by
  induction stepped with
  | refl machine => exact within
  | @cons start middle reached event events first others ih =>
      have same := sameSetup_of_step first
      exact ih (same.limits.trans attached)
        (steps_le_of_step_eq_ran attached first)

theorem Ends.executed_le_maxSteps {machine final : Machine} {executed : Nat}
    {verdict : Verdict} (ended : Ends machine executed verdict final)
    (attached : machine.limits = some limits)
    (within : machine.steps ≤ limits.maxSteps) :
    machine.steps + executed ≤ limits.maxSteps + 1 := by
  induction ended with
  | halted _ => omega
  | failed _ => omega
  | @step machine middle final event executed verdict ran _ ih =>
      have same := sameSetup_of_step ran
      have counted := steps_of_step_eq_ran ran
      have rest := ih (same.limits.trans attached)
        (steps_le_of_step_eq_ran attached ran)
      omega

theorem exists_ends_of_limits {machine : Machine}
    (attached : machine.limits = some limits)
    (within : machine.steps ≤ limits.maxSteps) :
    ∃ executed verdict final, Ends machine executed verdict final := by
  rcases ends_or_stepsTo machine (limits.maxSteps + 1) with ended | running
  · obtain ⟨executed, verdict, final, ended, _⟩ := ended
    exact ⟨executed, verdict, final, ended⟩
  · obtain ⟨events, reached, stepped, length, _⟩ := running
    have counted := stepped.steps_eq
    have bounded := stepped.steps_le_maxSteps attached within
    omega

theorem StepsTo.ends_withLimits {start reached : Machine}
    {events : List Event} (stepped : StepsTo start events reached)
    (free : start.limits = none)
    (hit : start.steps + events.length = limits.maxSteps)
    (running : reached.isHalted = false) :
    Ends (start.withLimits limits) (events.length + 1)
      (.failed (.execution reached.counter
        (.limit (.stepCount (limits.maxSteps + 1) limits.maxSteps))))
      (reached.withLimits limits) := by
  have counted : reached.steps = limits.maxSteps := stepped.steps_eq.trans hit
  have refused := step_withLimits_of_le limits running
    (Nat.le_of_eq counted.symm)
  rw [counted] at refused
  exact (stepped.withLimits free (Nat.le_of_eq hit)).ends (.failed refused)

end Runs

/-! ### Execution under a limit -/

section Execution

variable {machine : Machine} {limits : Limits} {fuel : Nat}

theorem execute_withLimits_of_ends {final : Machine} {executed : Nat}
    {verdict : Verdict} (enough : limits.maxSteps + 1 ≤ fuel)
    (ended : Ends machine.rewind.withoutLimits executed verdict final)
    (within : executed ≤ limits.maxSteps) :
    (machine.withLimits limits).execute fuel =
      (verdict, final.withLimits limits) := by
  have fromZero : 0 + executed ≤ limits.maxSteps := by omega
  have limited := ended.withLimits rfl fromZero
  exact execute_of_ends limited (by omega) (by omega)

theorem execute_withLimits_of_stepsTo {reached : Machine} {events : List Event}
    (enough : limits.maxSteps + 1 ≤ fuel)
    (stepped : StepsTo machine.rewind.withoutLimits events reached)
    (length : events.length = limits.maxSteps)
    (running : reached.isHalted = false) :
    (machine.withLimits limits).execute fuel =
      (.failed (.execution reached.counter
        (.limit (.stepCount (limits.maxSteps + 1) limits.maxSteps))),
        reached.withLimits limits) := by
  have fromZero : 0 + events.length = limits.maxSteps := by omega
  have limited := stepped.ends_withLimits rfl fromZero running
  exact execute_of_ends limited (by omega) (by omega)

end Execution

/-- The execution returns within one step more than the limit, and the step count never
leaves 64 bits on the way.  When the run without limits ends within the limit, a
failing instruction counted, the verdict and the machine left are those of that
run.  Otherwise the execution fails after as many steps as the limit allows. -/
theorem execute_withLimits_transparent (machine : Machine) (limits : Limits)
    (fuel : Nat) (countable : limits.maxSteps < 2 ^ 64 - 1)
    (enough : limits.maxSteps + 1 ≤ fuel) :
    ((machine.withLimits limits).execute fuel).1 ≠ .unfinished ∧
      ((machine.withLimits limits).execute fuel).2.steps ≤ limits.maxSteps ∧
      (∀ events reached,
        StepsTo (machine.withLimits limits).rewind events reached →
          reached.steps + 1 < 2 ^ 64) ∧
      (∀ executed verdict final,
        Ends machine.rewind.withoutLimits executed verdict final →
          executed ≤ limits.maxSteps →
          (machine.withLimits limits).execute fuel =
            (verdict, final.withLimits limits)) ∧
      ((¬∃ executed verdict final,
          Ends machine.rewind.withoutLimits executed verdict final ∧
            executed ≤ limits.maxSteps) →
        ∃ events reached,
          StepsTo machine.rewind.withoutLimits events reached ∧
            events.length = limits.maxSteps ∧
            reached.steps = limits.maxSteps ∧
            (machine.withLimits limits).execute fuel =
              (.failed (.execution reached.counter
                (.limit (.stepCount (limits.maxSteps + 1) limits.maxSteps))),
                reached.withLimits limits)) := by
  have countFromZero {events : List Event} {reached : Machine}
      (stepped : StepsTo machine.rewind.withoutLimits events reached) :
      reached.steps = events.length :=
    stepped.steps_eq.trans (Nat.zero_add _)
  have runs := ends_or_stepsTo machine.rewind.withoutLimits limits.maxSteps
  refine ⟨?_, ?_, ?_, ?_, ?_⟩
  · rcases runs with ended | running
    · obtain ⟨executed, verdict, final, ended, within⟩ := ended
      rw [execute_withLimits_of_ends enough ended within]
      exact ended.ne_unfinished
    · obtain ⟨events, reached, stepped, length, running⟩ := running
      rw [execute_withLimits_of_stepsTo enough stepped length running]
      exact Verdict.noConfusion
  · rcases runs with ended | running
    · obtain ⟨executed, verdict, final, ended, within⟩ := ended
      have counted : final.steps ≤ 0 + executed := ended.steps_le
      rw [execute_withLimits_of_ends enough ended within]
      change final.steps ≤ limits.maxSteps
      omega
    · obtain ⟨events, reached, stepped, length, running⟩ := running
      have counted := countFromZero stepped
      rw [execute_withLimits_of_stepsTo enough stepped length running]
      change reached.steps ≤ limits.maxSteps
      omega
  · intro events reached stepped
    have bounded := stepped.steps_le_maxSteps rfl (Nat.zero_le _)
    omega
  · intro executed verdict final ended within
    exact execute_withLimits_of_ends enough ended within
  · intro endless
    rcases runs with ended | running
    · exact absurd ended endless
    · obtain ⟨events, reached, stepped, length, running⟩ := running
      have counted := countFromZero stepped
      exact ⟨events, reached, stepped, length, counted.trans length,
        execute_withLimits_of_stepsTo enough stepped length running⟩

theorem execute_withLimits_transparent_of_division :
    (2 < 2 ^ 64 - 1 ∧ 2 + 1 ≤ 3 ∧
        (((ofParts .empty
            #[⟨none, .mov .eax 7⟩, ⟨none, .binary .div .eax .ebx⟩]).withLimits
            ⟨0, 0, 2⟩).execute 3).1 =
          .failed (.execution 1 (.divisionByZero .ebx))) ∧
      (1 < 2 ^ 64 - 1 ∧ 1 + 1 ≤ 2 ∧
        (((ofParts .empty
            #[⟨none, .mov .eax 7⟩, ⟨none, .binary .div .eax .ebx⟩]).withLimits
            ⟨0, 0, 1⟩).execute 2).1 =
          .failed (.execution 1 (.limit (.stepCount 2 1)))) := by
  constructor
  · refine ⟨by decide, by decide, ?_⟩
    obtain ⟨_, _, _, within, _⟩ := execute_withLimits_transparent
      (ofParts .empty #[⟨none, .mov .eax 7⟩, ⟨none, .binary .div .eax .ebx⟩])
      ⟨0, 0, 2⟩ 3 (by decide) (by decide)
    rw [within 2 _ _ (.step rfl (.failed rfl)) (by decide)]
    rfl
  · refine ⟨by decide, by decide, ?_⟩
    obtain ⟨_, _, _, _, beyond⟩ := execute_withLimits_transparent
      (ofParts .empty #[⟨none, .mov .eax 7⟩, ⟨none, .binary .div .eax .ebx⟩])
      ⟨0, 0, 1⟩ 2 (by decide) (by decide)
    obtain ⟨events, reached, stepped, length, _, result⟩ := beyond (by
      intro ended
      obtain ⟨executed, verdict, final, ended, within⟩ := ended
      have later := StepsTo.length_lt_of_ends (.cons rfl (.refl _)) rfl ended
      exact absurd later (Nat.not_lt_of_le within))
    rw [result]
    cases stepped with
    | refl => contradiction
    | cons first others =>
        cases others with
        | cons _ _ => simp at length
        | refl =>
            cases first
            rfl

end Machine
end RegisterMachine
