/-
The counters of a run.

`Carries` lists the instructions that a run carries out, with the directive of each,
and `Stops` says why nothing follows them; both know of no watcher.  The counters
of one execution agree with that list and with the way the execution ends.
-/

import Mathlib.Algebra.BigOperators.Group.List.Basic
import Mathlib.Algebra.GroupWithZero.Nat
import RegisterMachine.CommandLine.Session
import RegisterMachine.Proofs.ControlFlow

namespace RegisterMachine

/-! ### Counting events -/

def Event.carried (event : Event) : Instruction × Directive :=
  (event.instruction,
    match event.jumped, event.counter with
    | true, some target => .jump target
    | _, _ => .next)

theorem Event.carried_of_directive (address : Nat) (instruction : Instruction)
    (directive : Directive) :
    Event.carried ⟨address, instruction, directive.isJump,
      some (directive.destination address)⟩ = (instruction, directive) := by
  cases directive <;> rfl

theorem Opcode.getElem?_all_index (opcode : Opcode) :
    Opcode.all[opcode.index.val]? = some opcode := by
  cases opcode with
  | binary op => cases op <;> rfl
  | mov | out | jmp => rfl
  | branch test => cases test <;> rfl

theorem Opcode.index_injective {left right : Opcode}
    (equality : left.index = right.index) : left = right := by
  have same := left.getElem?_all_index
  rw [equality, right.getElem?_all_index] at same
  exact (Option.some.inj same).symm

theorem Opcode.sum_map_ite_eq (opcode : Opcode) :
    (Opcode.all.map fun other => if opcode = other then 1 else 0).sum = 1 := by
  cases opcode with
  | binary op => cases op <;> decide
  | mov | out | jmp => decide
  | branch test => cases test <;> decide

namespace Tally

theorem tookJump_eq (event : Event) :
    tookJump event = event.carried.2.isJump := by
  obtain ⟨address, instruction, jumped, counter⟩ := event
  cases jumped <;> cases counter <;> rfl

theorem count_record (tally : Tally) (event : Event) (opcode : Opcode) :
    (tally.record event).count opcode = tally.count opcode +
      if event.instruction.operation.opcode = opcode then 1 else 0 := by
  unfold count record
  by_cases same : event.instruction.operation.opcode = opcode
  · subst same
    simp
  · have apart : (event.instruction.operation.opcode.index : Nat) ≠
        opcode.index := by
      intro equality
      exact same (Opcode.index_injective (Fin.ext equality))
    simp [same, Vector.getElem_set_ne _ _ apart]

theorem count_foldl_record (events : List Event) (tally : Tally)
    (opcode : Opcode) :
    (events.foldl record tally).count opcode = tally.count opcode +
      (events.map Event.carried).countP fun entry =>
        entry.1.operation.opcode = opcode := by
  induction events generalizing tally with
  | nil => rfl
  | cons event rest ih =>
      rw [List.foldl_cons, ih, count_record, List.map_cons, List.countP_cons]
      by_cases same : event.instruction.operation.opcode = opcode
      · simp only [Event.carried, same, decide_true, if_true]
        omega
      · simp [Event.carried, same]

theorem jumps_foldl_record (events : List Event) (tally : Tally) :
    (events.foldl record tally).jumps = tally.jumps +
      (events.map Event.carried).countP fun entry => entry.2.isJump := by
  induction events generalizing tally with
  | nil => rfl
  | cons event rest ih =>
      rw [List.foldl_cons, ih, List.map_cons, List.countP_cons, ← tookJump_eq]
      simp only [record]
      split <;> omega

theorem runs_foldl_record (events : List Event) (tally : Tally) :
    (events.foldl record tally).halted = tally.halted ∧
      (events.foldl record tally).failed = tally.failed := by
  induction events generalizing tally with
  | nil => exact ⟨rfl, rfl⟩
  | cons event rest ih => exact ih (tally.record event)

theorem count_zero (opcode : Opcode) : zero.count opcode = 0 := by
  simp [count, zero]

theorem count_recordEnd (tally : Tally) (verdict : Verdict) (opcode : Opcode) :
    (tally.recordEnd verdict).count opcode = tally.count opcode := by
  cases verdict <;> rfl

theorem jumps_recordEnd (tally : Tally) (verdict : Verdict) :
    (tally.recordEnd verdict).jumps = tally.jumps := by
  cases verdict <;> rfl

end Tally

namespace Machine

/-! ### What a run carries out -/

/-- Every instruction stands at the counter, is allowed by the limits and succeeds, and
the counter moves to where its directive leads. -/
inductive Carries : Machine → List (Instruction × Directive) → Machine → Prop
    where
  | refl (machine : Machine) : Carries machine [] machine
  | cons {start after reached : Machine} {instruction : Instruction}
      {directive : Directive} {later : List (Instruction × Directive)}
      (fetched : start.program[start.counter]? = some instruction)
      (allowed : start.checkStep = .ok ())
      (performed : start.perform instruction.operation =
        (.ok directive, after))
      (inside : directive.destination start.counter ≤ start.program.size)
      (others : Carries
        { after with
          steps := start.steps + 1
          counter := directive.destination start.counter } later reached) :
      Carries start ((instruction, directive) :: later) reached

inductive Stops (reached : Machine) : Verdict → Machine → Prop where
  | halted (halts : reached.isHalted = true) : Stops reached .halted reached
  | limited {instruction : Instruction} {cause : Fault}
      (fetched : reached.program[reached.counter]? = some instruction)
      (refused : reached.checkStep = .error cause) :
      Stops reached (.failed (.execution reached.counter cause)) reached
  | faulted {instruction : Instruction} {cause : Fault} {final : Machine}
      (fetched : reached.program[reached.counter]? = some instruction)
      (allowed : reached.checkStep = .ok ())
      (fails : reached.perform instruction.operation =
        (.error cause, final)) :
      Stops reached (.failed (.execution reached.counter cause)) final

theorem StepsTo.carries {start reached : Machine} {events : List Event}
    (stepped : StepsTo start events reached) :
    Carries start (events.map Event.carried) reached := by
  induction stepped with
  | refl machine => exact .refl machine
  | cons first _ ih =>
      cases stepped_of_step first with
      | @moved instruction directive after fetched allowed performs inside =>
          rw [List.map_cons, Event.carried_of_directive]
          exact .cons fetched allowed performs inside ih

theorem Carries.steps_eq {start reached : Machine}
    {trace : List (Instruction × Directive)}
    (carries : Carries start trace reached) :
    reached.steps = start.steps + trace.length := by
  induction carries with
  | refl machine => rfl
  | cons _ _ _ _ _ ih =>
      rw [ih, List.length_cons]
      simp only
      omega

theorem Carries.performed {start reached : Machine}
    {trace : List (Instruction × Directive)}
    (carries : Carries start trace reached) :
    ∀ entry ∈ trace, ∃ before after,
      Performed before entry.1.operation (.ok entry.2) after := by
  induction carries with
  | refl machine =>
      intro entry member
      contradiction
  | cons _ _ performs _ _ ih =>
      intro entry member
      rcases List.mem_cons.mp member with first | later
      · subst first
        exact ⟨_, _, performed_of_perform performs⟩
      · exact ih entry later

theorem Stops.steps_eq {reached final : Machine} {verdict : Verdict}
    (stops : Stops reached verdict final) : final.steps = reached.steps := by
  cases stops with
  | halted _ => rfl
  | limited _ _ => rfl
  | faulted _ _ fails => exact (sameControl_of_perform fails).steps

/-- No jump that is carried out fails afterwards. -/
def LabelsInside (machine : Machine) : Prop :=
  ∀ target address, machine.labels.get? target = some address →
    address ≤ machine.program.size

theorem LabelsInside.stops {reached final : Machine} {fault : Fault}
    {event : Option Event} (inside : reached.LabelsInside)
    (failure : reached.step = (.failed fault event, final)) :
    event = none ∧ Stops reached (.failed fault) final := by
  cases stepped_of_step failure with
  | limited running attached passed =>
      have fetched := Array.getElem?_eq_getElem
        ((isHalted_eq_false_iff reached).mp running)
      refine ⟨rfl, .limited fetched ?_⟩
      rw [checkStep, attached]
      exact if_neg (Nat.not_le_of_lt passed)
  | faulted fetched allowed performs =>
      exact ⟨rfl, .faulted fetched allowed performs⟩
  | overshot _ _ performs outside =>
      obtain ⟨target, _, bound⟩ := perform_eq_jump performs
      exact absurd outside (Nat.not_lt_of_le (inside target _ bound))

theorem Performed.isJump_of_jmp {machine after : Machine}
    {operation : Operation} {directive : Directive}
    (performed : Performed machine operation (.ok directive) after)
    (always : operation.opcode = .jmp) : directive.isJump = true := by
  cases performed with
  | jumped _ _ => rfl
  | computed _ | loaded | emitted _ | echoed _ _ | passed _ => cases always

theorem Performed.opcode_of_isJump {machine after : Machine}
    {operation : Operation} {directive : Directive}
    (performed : Performed machine operation (.ok directive) after)
    (jumps : directive.isJump = true) : operation.opcode.isJump = true := by
  cases performed with
  | jumped taken _ => cases taken <;> rfl
  | computed _ | loaded | emitted _ | echoed _ _ | passed _ => cases jumps

theorem LabelsInside.after {start reached : Machine}
    (inside : start.LabelsInside) (setup : SameSetup start reached) :
    reached.LabelsInside := by
  intro target address bound
  rw [setup.labels] at bound
  rw [setup.program]
  exact inside target address bound

theorem labelsInside_of_built {program : Program} (built : program.Built)
    {machine : Machine} (labels : machine.labels = program.labels)
    (instructions : machine.program = program.instructions) :
    machine.LabelsInside := by
  intro target address bound
  rw [labels] at bound
  rw [instructions]
  exact Nat.le_of_lt (built.wellLabelled.lt_size bound)

/-! ### Counters against what was carried out -/

section Counts

variable (trace : List (Instruction × Directive))

def carriedOf (opcode : Opcode) : Nat :=
  trace.countP fun entry => entry.1.operation.opcode = opcode

theorem carriedOf_cons (entry : Instruction × Directive) (opcode : Opcode) :
    carriedOf (entry :: trace) opcode = carriedOf trace opcode +
      if entry.1.operation.opcode = opcode then 1 else 0 := by
  rw [carriedOf, List.countP_cons, carriedOf]
  simp only [decide_eq_true_eq]

theorem sum_carriedOf :
    (Opcode.all.map (carriedOf trace)).sum = trace.length := by
  induction trace with
  | nil => rfl
  | cons entry rest ih =>
      rw [funext (carriedOf_cons rest entry), List.sum_map_add, ih,
        Opcode.sum_map_ite_eq, List.length_cons]

theorem countP_isJump :
    (trace.countP fun entry => entry.1.operation.opcode.isJump) =
      carriedOf trace .jmp + carriedOf trace (.branch .nonzero) +
        carriedOf trace (.branch .zero) := by
  induction trace with
  | nil => rfl
  | cons entry rest ih =>
      rw [List.countP_cons, ih, carriedOf_cons, carriedOf_cons, carriedOf_cons]
      cases entry.1.operation.opcode with
      | binary op | mov | out => simp [Opcode.isJump]
      | jmp =>
          simp only [Opcode.isJump, reduceCtorEq, if_true, if_false]
          omega
      | branch test =>
          cases test with
          | nonzero =>
              simp only [Opcode.isJump, Opcode.branch.injEq, reduceCtorEq,
                if_true, if_false]
              omega
          | zero =>
              simp only [Opcode.isJump, Opcode.branch.injEq, reduceCtorEq,
                if_true, if_false]
              omega

end Counts

def metrics (fuel : Nat) (machine : Machine) : Tally :=
  let run := machine.executeWatched Tally.record fuel .zero
  run.seen.recordEnd run.verdict

/-- The counters say what was carried out: the executed instructions by opcode, which
are as many as the steps that were counted, the jumps that were taken, and one run
by its outcome. -/
structure Accounts (tally : Tally) (trace : List (Instruction × Directive))
    (verdict : Verdict) (final : Machine) : Prop where
  executed : ∀ opcode, tally.count opcode = carriedOf trace opcode
  total : (Opcode.all.map tally.count).sum = final.steps
  jumps : tally.jumps = trace.countP fun entry => entry.2.isJump
  leastJumps : tally.count .jmp ≤ tally.jumps
  mostJumps : tally.jumps ≤ tally.count .jmp +
    tally.count (.branch .nonzero) + tally.count (.branch .zero)
  oneRun : tally.halted + tally.failed = 1
  outcome : tally.halted = 1 ↔ verdict = .halted

theorem Carries.jumps_between {start reached : Machine}
    {trace : List (Instruction × Directive)}
    (carries : Carries start trace reached) :
    carriedOf trace .jmp ≤ (trace.countP fun entry => entry.2.isJump) ∧
      (trace.countP fun entry => entry.2.isJump) ≤
        trace.countP fun entry => entry.1.operation.opcode.isJump := by
  constructor
  · refine List.countP_mono_left ?_
    intro entry member always
    obtain ⟨before, after, performed⟩ := carries.performed entry member
    exact performed.isJump_of_jmp (of_decide_eq_true always)
  · refine List.countP_mono_left ?_
    intro entry member jumps
    obtain ⟨before, after, performed⟩ := carries.performed entry member
    exact performed.opcode_of_isJump jumps

theorem Carries.accounts {start reached final : Machine} {verdict : Verdict}
    {events : List Event}
    (carries : Carries start (events.map Event.carried) reached)
    (fromZero : start.steps = 0) (stops : Stops reached verdict final) :
    Accounts ((events.foldl Tally.record .zero).recordEnd verdict)
      (events.map Event.carried) verdict final := by
  have executed (opcode : Opcode) :
      ((events.foldl Tally.record .zero).recordEnd verdict).count opcode =
        carriedOf (events.map Event.carried) opcode := by
    rw [Tally.count_recordEnd, Tally.count_foldl_record, Tally.count_zero,
      Nat.zero_add]
    rfl
  have jumps : ((events.foldl Tally.record .zero).recordEnd verdict).jumps =
      (events.map Event.carried).countP fun entry => entry.2.isJump := by
    rw [Tally.jumps_recordEnd, Tally.jumps_foldl_record]
    exact Nat.zero_add _
  obtain ⟨least, most⟩ := carries.jumps_between
  obtain ⟨halted, failed⟩ := Tally.runs_foldl_record events .zero
  refine ⟨executed, ?_, jumps, ?_, ?_, ?_, ?_⟩
  · rw [funext executed, sum_carriedOf, stops.steps_eq, carries.steps_eq,
      fromZero, Nat.zero_add]
  · rw [executed, jumps]
    exact least
  · rw [executed, executed, executed, jumps, ← countP_isJump]
    exact most
  · cases stops with
    | halted _ | limited _ _ | faulted _ _ _ =>
        simp only [Tally.recordEnd, halted, failed]
        rfl
  · cases stops with
    | halted _ =>
        refine ⟨fun _ => rfl, fun _ => ?_⟩
        simp only [Tally.recordEnd, halted]
        rfl
    | limited _ _ | faulted _ _ _ =>
        refine ⟨fun one => ?_, fun same => Verdict.noConfusion same⟩
        simp only [Tally.recordEnd, halted] at one
        contradiction

/-- One execution of a machine with the parts of a built program, whatever its
registers, limits and echo.  What it carries out can be listed, and when it
returns its counters account for that list and for its end. -/
theorem metrics_account_for_execution {program : Program}
    (built : program.Built) {machine : Machine}
    (labels : machine.labels = program.labels)
    (instructions : machine.program = program.instructions) {fuel : Nat}
    (returns : (machine.execute fuel).1 ≠ .unfinished) :
    ∃ trace reached, Carries machine.rewind trace reached ∧
      Stops reached (machine.execute fuel).1 (machine.execute fuel).2 ∧
      Accounts (machine.metrics fuel) trace (machine.execute fuel).1
        (machine.execute fuel).2 := by
  have sameRun := proceed_view Tally.record (fun _ _ => ()) (fun _ => ())
    (fun _ _ => rfl) fuel machine.rewind .zero
  have verdict : (machine.execute fuel).1 =
      (proceed Tally.record fuel machine.rewind .zero).verdict :=
    congrArg Run.verdict sameRun
  have final : (machine.execute fuel).2 =
      (proceed Tally.record fuel machine.rewind .zero).machine :=
    congrArg Run.machine sameRun
  rw [verdict] at returns
  have watched := watched_proceed Tally.record fuel machine.rewind .zero returns
  rw [verdict, final, metrics, executeWatched]
  generalize proceed Tally.record fuel machine.rewind .zero = run at watched ⊢
  cases watched with
  | @halted events final stepped halts =>
      have carries := stepped.carries
      exact ⟨_, final, carries, .halted halts,
        carries.accounts rfl (.halted halts)⟩
  | @failed events reached final fault event stepped failure =>
      have inside : machine.rewind.LabelsInside :=
        labelsInside_of_built built labels instructions
      have inside := inside.after stepped.sameSetup
      obtain ⟨unmoved, stops⟩ := inside.stops failure
      subst unmoved
      exact ⟨_, reached, stepped.carries, stops,
        stepped.carries.accounts rfl stops⟩

theorem metrics_account_for_execution_of_full_sink :
    ∃ (program : Program) (machine final : Machine),
      Program.ofList
        [⟨some "top", .out .ebx⟩, ⟨none, .branch .nonzero .ebx "top"⟩] =
          .ok program ∧
      machine = ((ofProgram program).assign [(.ebx, 3)]).withEcho (.bounded 1) ∧
      machine.execute 9 =
        (.failed (.execution 0 (.io .sinkFull)), final) ∧
      final.steps = 2 ∧
      ∃ trace reached, Carries machine.rewind trace reached ∧
        Stops reached (.failed (.execution 0 (.io .sinkFull))) final ∧
        Accounts (machine.metrics 9) trace
          (.failed (.execution 0 (.io .sinkFull))) final := by
  let program : Program :=
    ⟨#[⟨some "top", .out .ebx⟩, ⟨none, .branch .nonzero .ebx "top"⟩],
      ⟨(∅ : Std.ExtTreeMap String Nat).insert "top" 0⟩⟩
  let machine := ((ofProgram program).assign [(.ebx, 3)]).withEcho (.bounded 1)
  have success : Program.ofList
      [⟨some "top", .out .ebx⟩, ⟨none, .branch .nonzero .ebx "top"⟩] =
        .ok program := rfl
  have labels : machine.labels = program.labels := rfl
  have instructions : machine.program = program.instructions := rfl
  have returns : (machine.execute 9).1 ≠ .unfinished := by decide
  exact ⟨program, machine, (machine.execute 9).2, success, rfl, rfl, rfl,
    metrics_account_for_execution (.ofList success) labels instructions
      returns⟩

end Machine

namespace CommandLine

/-- A session that is asked for metrics prints the counters of its run. -/
theorem metrics_reportRun {invocation : Invocation}
    (measured : invocation.metrics = true) (limits : Limits)
    (program : Program) :
    (invocation.reportRun limits program).metrics =
      ((invocation.machine limits program).metrics
        (limits.maxSteps + 1)).lines := by
  have sameRun := Machine.proceed_view
    (Journal.note (Log.Level.trace.isShown invocation.threshold)) Tally.record
    Journal.tally (fun _ _ => rfl) (limits.maxSteps + 1)
    (invocation.machine limits program).rewind ⟨.zero, []⟩
  rw [Machine.metrics, Machine.executeWatched, sameRun]
  exact if_pos measured

end CommandLine
end RegisterMachine
