/-
Programs that only jump forward.

The distance from the counter to the end of the program bounds what is left of a
run, so that every run ends, executes each address at most once, and never notices
a step limit that is as large as the program.
-/

import RegisterMachine.Proofs.Echo
import RegisterMachine.Proofs.StepLimit

namespace RegisterMachine

/-! ### Instructions that put a value out -/

namespace Program

/-- The instructions before an address that put a value out. -/
def outsBefore (instructions : Array Instruction) (address : Nat) : Nat :=
  (instructions.toList.take address).countP fun instruction =>
    instruction.operation.opcode = .out

theorem outsBefore_le_of_le (instructions : Array Instruction)
    {first second : Nat} (le : first ≤ second) :
    outsBefore instructions first ≤ outsBefore instructions second :=
  ((List.take_prefix_take_left le).sublist).countP_le

theorem outsBefore_le (instructions : Array Instruction) (address : Nat) :
    outsBefore instructions address ≤
      instructions.countP fun instruction =>
        instruction.operation.opcode = .out := by
  rw [← Array.countP_toList]
  exact (List.take_sublist address _).countP_le

theorem outsBefore_succ_of_out {instructions : Array Instruction}
    {address : Nat} {label : Option String} {source : Register}
    (fetched : instructions[address]? = some ⟨label, .out source⟩) :
    outsBefore instructions (address + 1) =
      outsBefore instructions address + 1 := by
  rw [outsBefore, List.take_add_one, List.countP_append, Array.getElem?_toList,
    fetched]
  rfl

end Program

namespace Machine

/-- Every jump leads to an address after its own, if its target is bound. -/
def OnlyForward (machine : Machine) : Prop :=
  ∀ (address : Nat) (instruction : Instruction) (target : String)
    (destination : Nat), machine.program[address]? = some instruction →
      instruction.operation.target? = some target →
        machine.labels.get? target = some destination → address < destination

/-! ### One step -/

section Step

variable {machine after : Machine}

theorem OnlyForward.of_sameSetup (forward : machine.OnlyForward)
    (same : SameSetup machine after) : after.OnlyForward := by
  unfold OnlyForward
  rw [same.labels, same.program]
  exact forward

theorem OnlyForward.counter_lt (forward : machine.OnlyForward) {event : Event}
    (ran : machine.step = (.ran event, after)) :
    machine.counter < after.counter := by
  cases stepped_of_step ran with
  | @moved instruction directive _ fetched _ performs _ =>
      cases directive with
      | next => exact Nat.lt_succ_self _
      | jump destination =>
          obtain ⟨target, named, bound⟩ := perform_eq_jump performs
          exact forward _ _ _ _ fetched named bound

theorem size_output_step_le
    (within : machine.output.size ≤
      Program.outsBefore machine.program machine.counter) :
    machine.step.2.output.size ≤
      Program.outsBefore machine.program (machine.counter + 1) := by
  rcases output_step_cases machine with kept | emitted
  · rw [kept]
    exact within.trans
      (Program.outsBefore_le_of_le _ (Nat.le_succ machine.counter))
  · obtain ⟨label, source, fetched, _, pushed⟩ := emitted
    rw [pushed, Array.size_push, Program.outsBefore_succ_of_out fetched]
    exact Nat.succ_le_succ within

end Step

/-! ### Whole runs -/

section Runs

variable {start reached final : Machine}

theorem OnlyForward.counter_add_length_le (forward : start.OnlyForward)
    {events : List Event} (stepped : StepsTo start events reached) :
    start.counter + events.length ≤ reached.counter := by
  induction stepped with
  | refl machine => exact Nat.le_refl _
  | @cons start middle reached event events first _ ih =>
      have moved := forward.counter_lt first
      have onward := ih (forward.of_sameSetup (sameSetup_of_step first))
      rw [List.length_cons]
      omega

/-- The distance from the counter to the end of the program bounds the number
of instructions that are still executed, a failing one included. -/
theorem OnlyForward.executed_le (forward : start.OnlyForward) {executed : Nat}
    {verdict : Verdict} (ended : Ends start executed verdict final) :
    executed ≤ start.program.size - start.counter := by
  induction ended with
  | halted _ => exact Nat.zero_le _
  | failed failure =>
      have running := isHalted_of_step_eq_failed failure
      have inside := (isHalted_eq_false_iff _).mp running
      omega
  | @step machine middle final event executed verdict ran _ ih =>
      have same := sameSetup_of_step ran
      have inside := (isHalted_eq_false_iff _).mp (isHalted_of_step_eq_ran ran)
      have moved := forward.counter_lt ran
      have rest := ih (forward.of_sameSetup same)
      rw [same.program] at rest
      omega

theorem OnlyForward.exists_ends (forward : start.OnlyForward) :
    ∃ executed verdict final, Ends start executed verdict final := by
  rcases ends_or_stepsTo start start.program.size with ended | running
  · obtain ⟨executed, verdict, final, ended, _⟩ := ended
    exact ⟨executed, verdict, final, ended⟩
  · -- as many steps as there are instructions lead past all of them
    obtain ⟨events, reached, stepped, length, running⟩ := running
    have inside := (isHalted_eq_false_iff reached).mp running
    rw [stepped.sameSetup.program] at inside
    have moved := forward.counter_add_length_le stepped
    omega

theorem OnlyForward.size_output_le (forward : start.OnlyForward)
    {executed : Nat} {verdict : Verdict}
    (ended : Ends start executed verdict final)
    (within : start.output.size ≤
      Program.outsBefore start.program start.counter) :
    final.output.size ≤ start.program.countP fun instruction =>
      instruction.operation.opcode = .out := by
  induction ended with
  | halted _ => exact within.trans (Program.outsBefore_le _ _)
  | failed failure =>
      have bounded := size_output_step_le within
      rw [failure] at bounded
      exact bounded.trans (Program.outsBefore_le _ _)
  | @step machine middle final event executed verdict ran _ ih =>
      have same := sameSetup_of_step ran
      have bounded := size_output_step_le within
      rw [ran] at bounded
      have onward := Program.outsBefore_le_of_le machine.program
        (Nat.succ_le_of_lt (forward.counter_lt ran))
      rw [← same.program]
      refine ih (forward.of_sameSetup same) ?_
      rw [same.program]
      exact bounded.trans onward

theorem OnlyForward.counter_lt_of_later (forward : start.OnlyForward)
    {first second : Machine} {early late : List Event}
    (earlier : StepsTo start early first) (later : StepsTo start late second)
    (apart : early.length < late.length) : first.counter < second.counter := by
  obtain ⟨rest, onward, total⟩ := earlier.continues later (Nat.le_of_lt apart)
  have moved := (forward.of_sameSetup earlier.sameSetup).counter_add_length_le
    onward
  omega

end Runs

/-! ### Executions -/

/-- A machine without limits whose program only jumps forward returns with any fuel
larger than the program, with any registers and any echo.  Steps and outputs are
bounded by its instructions, no address is executed twice, and a step limit of at
least the size of the program changes nothing. -/
theorem execute_of_onlyForward {machine : Machine}
    (free : machine.limits = none) (forward : machine.OnlyForward) :
    (∃ verdict final, verdict ≠ .unfinished ∧
      final.steps ≤ machine.program.size ∧
      final.output.size ≤ (machine.program.countP fun instruction =>
        instruction.operation.opcode = .out) ∧
      ∀ fuel, machine.program.size < fuel →
        machine.execute fuel = (verdict, final) ∧
          ∀ limits : Limits, machine.program.size ≤ limits.maxSteps →
            (machine.withLimits limits).execute fuel =
              (verdict, final.withLimits limits)) ∧
      ∀ early first late second, StepsTo machine.rewind early first →
        StepsTo machine.rewind late second → early.length < late.length →
          first.counter < second.counter := by
  have fromStart : machine.rewind.OnlyForward := forward
  constructor
  · obtain ⟨executed, verdict, final, ended⟩ := fromStart.exists_ends
    have bounded : executed ≤ machine.program.size := fromStart.executed_le ended
    have counted : final.steps ≤ 0 + executed := ended.steps_le
    refine ⟨verdict, final, ended.ne_unfinished, by omega,
      fromStart.size_output_le ended (Nat.zero_le _), ?_⟩
    intro fuel enough
    refine ⟨execute_of_ends ended (by omega) (by omega), ?_⟩
    intro limits admits
    have within : machine.rewind.steps + executed ≤ limits.maxSteps := by
      change 0 + executed ≤ limits.maxSteps
      omega
    exact execute_of_ends (ended.withLimits free within) (by omega) (by omega)
  · intro early first late second earlier later apart
    exact fromStart.counter_lt_of_later earlier later apart

theorem execute_of_onlyForward_of_refusal :
    ∃ machine : Machine, machine.limits = none ∧ machine.OnlyForward ∧
      machine.program.size = 4 ∧
      ∃ final, final.steps ≤ 4 ∧ final.output.size ≤ 3 ∧
        machine.execute 5 = (.failed (.execution 3 (.io .sinkFull)), final) ∧
        (machine.withLimits ⟨0, 0, 4⟩).execute 5 =
          (.failed (.execution 3 (.io .sinkFull)),
            final.withLimits ⟨0, 0, 4⟩) := by
  have forward : OnlyForward
      ((ofParts ⟨(∅ : Std.ExtTreeMap String Nat).insert "last" 2⟩
        #[⟨none, .branch .zero .eax "last"⟩, ⟨none, .out .ebx⟩,
          ⟨none, .out .eax⟩, ⟨none, .out .eax⟩]).withEcho (.bounded 1)) := by
    intro address instruction target destination fetched named bound
    rcases address with _ | _ | _ | _ | beyond
    · cases fetched
      cases named
      cases bound
      decide
    -- none of the others is a jump
    all_goals cases fetched
    all_goals cases named
  obtain ⟨⟨verdict, final, _, counted, shown, ends⟩, _⟩ :=
    execute_of_onlyForward rfl forward
  obtain ⟨execution, limited⟩ := ends 5 (by decide)
  have same := limited ⟨0, 0, 4⟩ (by decide)
  have failed : verdict = .failed (.execution 3 (.io .sinkFull)) :=
    (congrArg Prod.fst execution).symm
  rw [failed] at execution same
  exact ⟨_, rfl, forward, rfl, final, counted, shown, execution, same⟩

end Machine
end RegisterMachine
