/-
Runs that come back to where they were.

What a run still does is decided by its configuration: the counter and the
registers, beside the labels and the program.  A run that reaches one configuration
twice has the same number of steps left both times, which no run that ends can
have.
-/

import Mathlib.Algebra.Group.Nat.Defs
import RegisterMachine.Proofs.Echo
import RegisterMachine.Proofs.StepFailures
import RegisterMachine.Proofs.StepLimit

namespace RegisterMachine
namespace Machine

structure SameConfiguration (left right : Machine) : Prop where
  labels : right.labels = left.labels
  program : right.program = left.program
  counter : right.counter = left.counter
  registers : right.registers = left.registers

/-- The configurations are the same, and the same values were added to both outputs. -/
structure ContinueAlike (left after right other : Machine) : Prop
    extends SameConfiguration after other where
  output : ∃ values : Array Int32, after.output = left.output ++ values ∧
    other.output = right.output ++ values

def Allows (machine : Machine) (count : Nat) : Prop :=
  ∀ limits, machine.limits = some limits →
    machine.steps + count ≤ limits.maxSteps

/-- The runs of two machines agree, as far as the limits of the second one go. -/
structure SameFuture (left right : Machine) : Prop where
  steps : ∀ events reached, StepsTo left events reached →
    right.Allows events.length →
      ∃ other, StepsTo right events other ∧
        ContinueAlike left reached right other
  ends : ∀ executed verdict final, Ends left executed verdict final →
    left.limits = none → right.Allows executed →
      ∃ other, Ends right executed verdict other ∧
        ContinueAlike left final right other

theorem SameConfiguration.isHalted {left right : Machine}
    (same : SameConfiguration left right) : right.isHalted = left.isHalted := by
  unfold Machine.isHalted
  rw [same.program, same.counter]

theorem SameConfiguration.continueAlike {left right : Machine}
    (same : SameConfiguration left right) :
    ContinueAlike left left right right :=
  ⟨same, #[], by simp, by simp⟩

theorem ContinueAlike.trans {left middle after right between other : Machine}
    (first : ContinueAlike left middle right between)
    (second : ContinueAlike middle after between other) :
    ContinueAlike left after right other := by
  obtain ⟨values, middleOutput, betweenOutput⟩ := first.output
  obtain ⟨more, afterOutput, otherOutput⟩ := second.output
  refine ⟨second.toSameConfiguration, values ++ more, ?_, ?_⟩
  · rw [afterOutput, middleOutput, Array.append_assoc]
  · rw [otherOutput, betweenOutput, Array.append_assoc]

/-! ### One step -/

section Step

variable {left right after : Machine}

theorem Performed.alike {operation : Operation}
    {outcome : Except Fault Directive}
    (performed : Performed left operation outcome after)
    (same : SameConfiguration left right) (leftSilent : left.echo = none)
    (rightSilent : right.echo = none) :
    ∃ other, Performed right operation outcome other ∧
      ContinueAlike left after right other := by
  obtain ⟨labels, program, counter, registers⟩ := same
  have unchanged : ContinueAlike left left right right :=
    SameConfiguration.continueAlike ⟨labels, program, counter, registers⟩
  have written (result : Register) (value : Int32) :
      ContinueAlike left (left.setRegister result value) right
        (right.setRegister result value) := by
    refine ⟨⟨labels, program, counter, ?_⟩, unchanged.output⟩
    exact congrArg (fun file => file.set result value) registers
  cases performed with
  | @computed op result source value computes =>
      rw [← registers] at computes
      exact ⟨_, .computed computes, written result value⟩
  | dividedByZero zero =>
      rw [← registers] at zero
      exact ⟨_, .dividedByZero zero, unchanged⟩
  | @loaded result value => exact ⟨_, .loaded, written result value⟩
  | @emitted source _ =>
      refine ⟨_, .emitted rightSilent, ⟨labels, program, counter, registers⟩,
        #[left.registers.get source], ?_, ?_⟩
      · rw [putOut, Array.push_eq_append]
      · rw [registers, putOut, Array.push_eq_append]
  | echoed attached _ | refused attached _ =>
      rw [leftSilent] at attached
      contradiction
  | unbound taken free =>
      rw [← registers] at taken
      rw [← labels] at free
      exact ⟨_, .unbound taken free, unchanged⟩
  | jumped taken bound =>
      rw [← registers] at taken
      rw [← labels] at bound
      exact ⟨_, .jumped taken bound, unchanged⟩
  | passed untaken =>
      rw [← registers] at untaken
      exact ⟨_, .passed untaken, unchanged⟩

theorem ContinueAlike.advance {other : Machine}
    (alike : ContinueAlike left after right other) (address : Nat)
    (instruction : Instruction) (directive : Directive) :
    ∃ moved,
      other.advance address instruction directive =
          ((after.advance address instruction directive).1, moved) ∧
        ContinueAlike left (after.advance address instruction directive).2 right
          moved := by
  obtain ⟨⟨labels, program, counter, registers⟩, output⟩ := alike
  cases directive with
  | next => exact ⟨_, rfl, ⟨labels, program, rfl, registers⟩, output⟩
  | jump target =>
      have sameSize : other.program.size = after.program.size :=
        congrArg Array.size program
      rw [Machine.advance, Machine.advance, sameSize]
      by_cases inside : target ≤ after.program.size
      · rw [if_pos inside, if_pos inside]
        exact ⟨_, rfl, ⟨labels, program, rfl, registers⟩, output⟩
      · rw [if_neg inside, if_neg inside]
        exact ⟨_, rfl, ⟨labels, program, counter, registers⟩, output⟩

/-- Both limits let the machines step. -/
theorem SameConfiguration.step (same : SameConfiguration left right)
    (leftSilent : left.echo = none) (rightSilent : right.echo = none)
    (leftAllows : left.Allows 1) (rightAllows : right.Allows 1) :
    ∃ other, right.step = (left.step.1, other) ∧
      ContinueAlike left left.step.2 right other := by
  have sameFetch : right.program[right.counter]? =
      left.program[left.counter]? := by
    rw [same.program, same.counter]
  have leftCheck := (checkStep_eq_ok_iff left).mpr leftAllows
  have rightCheck := (checkStep_eq_ok_iff right).mpr rightAllows
  cases fetched : left.program[left.counter]? with
  | none =>
      rw [fetched] at sameFetch
      simp only [Machine.step, fetched, sameFetch]
      exact ⟨right, rfl, same.continueAlike⟩
  | some instruction =>
      rw [fetched] at sameFetch
      cases performs : left.perform instruction.operation with
      | mk outcome after =>
          obtain ⟨other, performed, alike⟩ :=
            (performed_of_perform performs).alike same leftSilent rightSilent
          have performsAlso := perform_of_performed performed
          cases outcome with
          | error fault =>
              rw [step_of_error fetched leftCheck performs,
                step_of_error sameFetch rightCheck performsAlso, same.counter]
              exact ⟨other, rfl, alike⟩
          | ok directive =>
              rw [step_of_ok fetched leftCheck performs,
                step_of_ok sameFetch rightCheck performsAlso, same.counter]
              exact alike.advance left.counter instruction directive

end Step

/-! ### Whole runs -/

section Runs

variable {left right : Machine}

theorem Allows.of_le {machine : Machine} {count fewer : Nat}
    (allows : machine.Allows count) (le : fewer ≤ count) :
    machine.Allows fewer := by
  intro limits attached
  have bound := allows limits attached
  omega

theorem Allows.step {machine after : Machine} {event : Event} {count : Nat}
    (allows : machine.Allows (count + 1))
    (ran : machine.step = (.ran event, after)) : after.Allows count := by
  intro limits attached
  rw [(sameSetup_of_step ran).limits] at attached
  have bound := allows limits attached
  have counted := steps_of_step_eq_ran ran
  omega

theorem allows_of_free {machine : Machine} (free : machine.limits = none)
    (count : Nat) : machine.Allows count := by
  intro limits attached
  rw [free] at attached
  contradiction

theorem allows_one_of_ran {machine after : Machine} {event : Event}
    (ran : machine.step = (.ran event, after)) : machine.Allows 1 := by
  cases stepped_of_step ran with
  | moved _ allowed _ _ => exact (checkStep_eq_ok_iff machine).mp allowed

theorem StepsTo.alike {reached : Machine} {events : List Event}
    (stepped : StepsTo left events reached)
    (same : SameConfiguration left right) (leftSilent : left.echo = none)
    (rightSilent : right.echo = none)
    (allows : right.Allows events.length) :
    ∃ other, StepsTo right events other ∧
      ContinueAlike left reached right other := by
  induction stepped generalizing right with
  | refl machine => exact ⟨right, .refl right, same.continueAlike⟩
  | @cons start middle reached event events first _ ih =>
      obtain ⟨between, ran, alike⟩ := same.step leftSilent rightSilent
        (allows_one_of_ran first) (allows.of_le (Nat.le_add_left 1 _))
      rw [first] at ran alike
      obtain ⟨other, onward, later⟩ := ih alike.toSameConfiguration
        (silent_of_step leftSilent first) (silent_of_step rightSilent ran)
        (allows.step ran)
      exact ⟨other, .cons ran onward, alike.trans later⟩

theorem Ends.alike {final : Machine} {executed : Nat} {verdict : Verdict}
    (ended : Ends left executed verdict final)
    (same : SameConfiguration left right) (free : left.limits = none)
    (leftSilent : left.echo = none) (rightSilent : right.echo = none)
    (allows : right.Allows executed) :
    ∃ other, Ends right executed verdict other ∧
      ContinueAlike left final right other := by
  induction ended generalizing right with
  | halted halts =>
      rw [← same.isHalted] at halts
      exact ⟨right, .halted halts, same.continueAlike⟩
  | failed failure =>
      obtain ⟨other, failed, alike⟩ := same.step leftSilent rightSilent
        (allows_of_free free 1) allows
      rw [failure] at failed alike
      exact ⟨other, .failed failed, alike⟩
  | @step machine middle final event executed verdict first _ ih =>
      obtain ⟨between, ran, alike⟩ := same.step leftSilent rightSilent
        (allows_of_free free 1) (allows.of_le (Nat.le_add_left 1 _))
      rw [first] at ran alike
      obtain ⟨other, onward, later⟩ := ih alike.toSameConfiguration
        ((sameSetup_of_step first).limits.trans free)
        (silent_of_step leftSilent first) (silent_of_step rightSilent ran)
        (allows.step ran)
      exact ⟨other, .step ran onward, alike.trans later⟩

theorem StepsTo.ends_of_ends {start reached final : Machine}
    {events : List Event} {executed : Nat} {verdict : Verdict}
    (stepped : StepsTo start events reached)
    (ended : Ends start executed verdict final) :
    ∃ rest, executed = events.length + rest ∧
      Ends reached rest verdict final := by
  induction stepped generalizing executed with
  | refl machine => exact ⟨executed, (Nat.zero_add _).symm, ended⟩
  | cons first _ ih =>
      cases ended with
      | halted halts =>
          rw [isHalted_of_step_eq_ran first] at halts
          contradiction
      | failed failure =>
          rw [first] at failure
          cases failure
      | step ran later =>
          rw [first] at ran
          cases ran
          obtain ⟨rest, total, onward⟩ := ih later
          refine ⟨rest, ?_, onward⟩
          rw [List.length_cons]
          omega

theorem Ends.executed_unique {machine final other : Machine}
    {executed count : Nat} {verdict result : Verdict}
    (ended : Ends machine executed verdict final)
    (also : Ends machine count result other) : count = executed := by
  induction ended generalizing count with
  | halted halts =>
      cases also with
      | halted _ => rfl
      | failed failure =>
          rw [isHalted_of_step_eq_failed failure] at halts
          contradiction
      | step ran _ =>
          rw [isHalted_of_step_eq_ran ran] at halts
          contradiction
  | failed failure =>
      cases also with
      | halted halts =>
          rw [isHalted_of_step_eq_failed failure] at halts
          contradiction
      | failed _ => rfl
      | step ran _ =>
          rw [failure] at ran
          cases ran
  | step ran _ ih =>
      cases also with
      | halted halts =>
          rw [isHalted_of_step_eq_ran ran] at halts
          contradiction
      | failed failure =>
          rw [ran] at failure
          cases failure
      | step again later =>
          rw [ran] at again
          cases again
          rw [ih later]

end Runs

/-! ### Runs without an end -/

section Endless

variable {machine : Machine}

theorem not_ends_of_repetition {first second : Machine}
    {early late : List Event} (free : machine.limits = none)
    (silent : machine.echo = none) (earlier : StepsTo machine early first)
    (later : StepsTo machine late second) (apart : early.length < late.length)
    (same : SameConfiguration first second) {executed : Nat}
    {verdict : Verdict} {final : Machine} :
    ¬ Ends machine executed verdict final := by
  have silentAt {events : List Event} {reached : Machine}
      (stepped : StepsTo machine events reached) : reached.echo = none :=
    stepped.sameSetup.silent silent
  have freeAt {events : List Event} {reached : Machine}
      (stepped : StepsTo machine events reached) : reached.limits = none :=
    stepped.sameSetup.limits.trans free
  intro ended
  obtain ⟨fromFirst, total, firstEnds⟩ := earlier.ends_of_ends ended
  obtain ⟨fromSecond, sameTotal, secondEnds⟩ := later.ends_of_ends ended
  obtain ⟨other, secondAlike, _⟩ := firstEnds.alike same (freeAt earlier)
    (silentAt earlier) (silentAt later) (allows_of_free (freeAt later) _)
  have rest := secondEnds.executed_unique secondAlike
  omega

theorem running_of_not_ends
    (endless : ∀ executed verdict final, ¬ Ends machine executed verdict final)
    {events : List Event} {reached : Machine}
    (stepped : StepsTo machine events reached) :
    reached.isHalted = false ∧
      ∃ event after, reached.step = (.ran event, after) := by
  have running : reached.isHalted = false := by
    cases halts : reached.isHalted with
    | false => rfl
    | true => exact absurd (stepped.ends (.halted halts)) (endless _ _ _)
  refine ⟨running, ?_⟩
  cases outcome : reached.step with
  | mk result after =>
      cases result with
      | ran event => exact ⟨event, after, rfl⟩
      | idle =>
          cases stepped_of_step outcome with
          | idle halts =>
              rw [running] at halts
              contradiction
      | failed fault event =>
          exact absurd (stepped.ends (.failed outcome)) (endless _ _ _)

theorem exists_stepsTo_of_not_ends
    (endless : ∀ executed verdict final, ¬ Ends machine executed verdict final)
    (count : Nat) :
    ∃ events reached, StepsTo machine events reached ∧
      events.length = count ∧ reached.isHalted = false := by
  rcases ends_or_stepsTo machine count with ended | running
  · obtain ⟨executed, verdict, final, ended, _⟩ := ended
    exact absurd ended (endless _ _ _)
  · exact running

end Endless

theorem withoutLimits_of_free {machine : Machine}
    (free : machine.limits = none) : machine.withoutLimits = machine := by
  cases machine
  cases free
  rfl

/-- A run from address zero, without limits and without a sink, that comes twice to one
configuration never ends.  Under any limit an execution with the same registers is
stopped by the limit and by nothing else. -/
theorem endless_of_repetition {machine first second : Machine}
    {early late : List Event} (free : machine.limits = none)
    (silent : machine.echo = none) (atStart : machine.counter = 0)
    (earlier : StepsTo machine early first)
    (later : StepsTo machine late second) (apart : early.length < late.length)
    (sameCounter : second.counter = first.counter)
    (sameRegisters : second.registers = first.registers) :
    (∀ events reached, StepsTo machine events reached →
        reached.isHalted = false ∧
          ∃ event after, reached.step = (.ran event, after)) ∧
      (∀ (limits : Limits) (fuel : Nat), limits.maxSteps < 2 ^ 64 - 1 →
        limits.maxSteps + 1 ≤ fuel →
          (∃ address, ((machine.withLimits limits).execute fuel).1 =
            .failed (.execution address
              (.limit (.stepCount (limits.maxSteps + 1) limits.maxSteps)))) ∧
          ((machine.withLimits limits).execute fuel).2.steps =
            limits.maxSteps) ∧
      ∀ left right : Machine, SameConfiguration left right →
        left.echo = none → right.echo = none → SameFuture left right := by
  have same : SameConfiguration first second :=
    ⟨later.sameSetup.labels.trans earlier.sameSetup.labels.symm,
      later.sameSetup.program.trans earlier.sameSetup.program.symm,
      sameCounter, sameRegisters⟩
  have endless (executed : Nat) (verdict : Verdict) (final : Machine) :
      ¬ Ends machine executed verdict final :=
    not_ends_of_repetition free silent earlier later apart same
  refine ⟨?_, ?_, ?_⟩
  · intro events reached stepped
    exact running_of_not_ends endless stepped
  · intro limits fuel _ enough
    have restart : SameConfiguration machine.rewind machine :=
      ⟨rfl, rfl, atStart, rfl⟩
    have stillEndless (executed : Nat) (verdict : Verdict) (final : Machine) :
        ¬ Ends machine.rewind executed verdict final := by
      intro ended
      obtain ⟨other, impossible, _⟩ := ended.alike restart free silent silent
        (allows_of_free free _)
      exact endless _ _ _ impossible
    obtain ⟨events, reached, stepped, length, running⟩ :=
      exists_stepsTo_of_not_ends stillEndless limits.maxSteps
    have counted : reached.steps = 0 + events.length := stepped.steps_eq
    have unlimited : machine.rewind.withoutLimits = machine.rewind :=
      withoutLimits_of_free free
    rw [← unlimited] at stepped
    rw [execute_withLimits_of_stepsTo enough stepped length running]
    refine ⟨⟨reached.counter, rfl⟩, ?_⟩
    change reached.steps = limits.maxSteps
    omega
  · intro left right alike leftSilent rightSilent
    constructor
    · intro events reached stepped allows
      exact stepped.alike alike leftSilent rightSilent allows
    · intro executed verdict final ended leftFree allows
      exact ended.alike alike leftFree leftSilent rightSilent allows

theorem endless_of_repetition_of_loop :
    ∃ (machine first second : Machine) (early late : List Event),
      machine.program = #[⟨none, .mov .eax 7⟩, ⟨none, .out .eax⟩,
          ⟨none, .jmp "top"⟩] ∧
        machine.labels.get? "top" = some 1 ∧ machine.limits = none ∧
        machine.echo = none ∧ machine.counter = 0 ∧
        StepsTo machine early first ∧ StepsTo machine late second ∧
        early.length < late.length ∧ second.counter = first.counter ∧
        second.registers = first.registers ∧ second.output ≠ first.output ∧
        ((machine.withLimits ⟨0, 0, 0⟩).execute 1).2.steps = 0 ∧
        ((machine.withLimits ⟨0, 0, 1000⟩).execute 1001).2.steps = 1000 := by
  have earlier : StepsTo
      (ofParts ⟨(∅ : Std.ExtTreeMap String Nat).insert "top" 1⟩
        #[⟨none, .mov .eax 7⟩, ⟨none, .out .eax⟩, ⟨none, .jmp "top"⟩])
      _ _ := .cons rfl (.refl _)
  have later : StepsTo
      (ofParts ⟨(∅ : Std.ExtTreeMap String Nat).insert "top" 1⟩
        #[⟨none, .mov .eax 7⟩, ⟨none, .out .eax⟩, ⟨none, .jmp "top"⟩])
      _ _ := .cons rfl (.cons rfl (.cons rfl (.refl _)))
  obtain ⟨_, limited, _⟩ := endless_of_repetition rfl rfl rfl earlier later
    (by decide) rfl rfl
  exact ⟨_, _, _, _, _, rfl, rfl, rfl, rfl, rfl, earlier, later, by decide, rfl,
    rfl, by decide, (limited ⟨0, 0, 0⟩ 1 (by decide) (by decide)).2,
    (limited ⟨0, 0, 1000⟩ 1001 (by decide) (by decide)).2⟩

end Machine
end RegisterMachine
