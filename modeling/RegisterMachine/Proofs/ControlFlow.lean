/-
Control flow of programs that were built as a whole.

Building binds each label to the address of its own instruction, and running
changes neither the table nor the program.  Hence no history of a machine ends in
a step that jumps too far.
-/

import RegisterMachine.Proofs.Runs
import RegisterMachine.Proofs.SourceLanguage

namespace RegisterMachine

namespace Program

/-- The ways to build a program: from instructions, or from a source text with
an assembler that may have been used before. -/
inductive Built (program : Program) : Prop where
  | ofList {instructions : List Instruction}
      (success : Program.ofList instructions = .ok program)
  | assembled {assembler : Assembler} {source : String}
      (success : (assembler.assemble source).1 = .ok program)

theorem Built.wellLabelled {program : Program} (built : program.Built) :
    program.WellLabelled := by
  cases built with
  | ofList success => exact ((ofList_eq_ok_iff _ program).mp success).2
  | assembled success =>
      have parts := (Assembler.assemble_eq_ok_iff _ _ program).mp success
      obtain ⟨_, instructions, _, collected, _⟩ := parts
      exact ((ofList_eq_ok_iff instructions program).mp collected).2

theorem built_iff_wellLabelled (program : Program) :
    program.Built ↔ program.WellLabelled := by
  constructor
  · intro built
    exact built.wellLabelled
  · intro labelled
    have listed : program.instructions = program.instructions.toList.toArray :=
      rfl
    exact .ofList ((ofList_eq_ok_iff _ program).mpr ⟨listed, labelled⟩)

def TargetsLabelled (program : Program) : Prop :=
  ∀ instruction ∈ program.instructions, ∀ target,
    instruction.operation.target? = some target →
      ∃ labelled ∈ program.instructions, labelled.label = some target

theorem WellLabelled.get?_target_ne_none {program : Program}
    (labelled : program.WellLabelled) (targets : program.TargetsLabelled)
    {instruction : Instruction} (member : instruction ∈ program.instructions)
    {target : String}
    (jumps : instruction.operation.target? = some target) :
    program.labels.get? target ≠ none := by
  intro free
  obtain ⟨carrier, present, carries⟩ := targets instruction member target jumps
  have absent := (labelled.get?_eq_none_iff target).mp free
  apply absent
  rw [labelsOf, List.mem_filterMap]
  exact ⟨carrier, Array.mem_toList_iff.mpr present, carries⟩

end Program

namespace Machine

/-! ### Histories -/

inductive Action where
  | step
  | execute (fuel : Nat)
  | reset
  | write (registers : RegisterFile)

def act (machine : Machine) : Action → Machine
  | .step => machine.step.2
  | .execute fuel => (machine.execute fuel).2
  | .reset => machine.reset
  | .write registers => { machine with registers := registers }

def actAll (machine : Machine) (actions : List Action) : Machine :=
  actions.foldl act machine

theorem sameSetup_rewind (machine : Machine) :
    SameSetup machine machine.rewind :=
  ⟨rfl, rfl, rfl, rfl⟩

theorem SameSetup.step {start machine : Machine}
    (same : SameSetup start machine) : SameSetup start machine.step.2 :=
  same.trans (sameSetup_step machine)

theorem sameSetup_execute (machine : Machine) (fuel : Nat) :
    SameSetup machine (machine.execute fuel).2 :=
  proceed_invariant (fun _ _ => ()) (fun _ same => same.step) fuel
    machine.rewind () (sameSetup_rewind machine)

theorem sameSetup_act (machine : Machine) (action : Action) :
    SameSetup machine (machine.act action) := by
  cases action with
  | step => exact sameSetup_step machine
  | execute fuel => exact sameSetup_execute machine fuel
  | reset => exact ⟨rfl, rfl, rfl, rfl⟩
  | write registers => exact ⟨rfl, rfl, rfl, rfl⟩

theorem sameSetup_actAll (machine : Machine) (actions : List Action) :
    SameSetup machine (machine.actAll actions) := by
  induction actions generalizing machine with
  | nil => exact .refl machine
  | cons action rest ih =>
      have first := sameSetup_act machine action
      exact first.trans (ih (machine.act action))

/-! ### Failures -/

/-- The next step fails with the given fault, or an execution does. -/
def FailsWith (machine : Machine) (fault : Fault) : Prop :=
  (∃ event after, machine.step = (.failed fault event, after)) ∨
    ∃ fuel, (machine.execute fuel).1 = .failed fault

theorem FailsWith.exists_step {machine : Machine} {fault : Fault}
    (failed : machine.FailsWith fault) :
    ∃ reached event after, SameSetup machine reached ∧
      reached.step = (.failed fault event, after) := by
  rcases failed with stepped | executed
  · obtain ⟨event, after, outcome⟩ := stepped
    exact ⟨machine, event, after, .refl machine, outcome⟩
  · obtain ⟨fuel, verdict⟩ := executed
    exact exists_failed_step_of_proceed (fun _ _ => ())
      (fun _ same => same.step) fuel machine.rewind ()
      (sameSetup_rewind machine) verdict

theorem root_of_step_eq_failed {machine after : Machine} {fault : Fault}
    {event : Option Event}
    (failed : machine.step = (.failed fault event, after)) :
    (∃ divisor, fault.root = .divisionByZero divisor) ∨
      (machine.limits.isSome = true ∧ ∃ cause, fault.root = .limit cause) ∨
      (machine.echo.isSome = true ∧ ∃ cause, fault.root = .io cause) ∨
      (∃ instruction ∈ machine.program, ∃ target,
        instruction.operation.target? = some target ∧
          machine.labels.get? target = none ∧
            fault.root = .unknownLabel target) ∨
      ∃ target address, machine.labels.get? target = some address ∧
        machine.program.size < address ∧
          fault.root = .counterPastEnd address machine.program.size := by
  cases stepped_of_step failed with
  | limited _ attached _ =>
      refine .inr (.inl ⟨?_, _, rfl⟩)
      rw [attached]
      rfl
  | faulted fetched _ performed =>
      rcases perform_eq_error performed with division | unbound | refused
      · obtain ⟨divisor, cause⟩ := division
        exact .inl ⟨divisor, congrArg Fault.root cause⟩
      · obtain ⟨target, jumps, free, cause⟩ := unbound
        have member := Array.mem_of_getElem? fetched
        exact .inr (.inr (.inr (.inl
          ⟨_, member, target, jumps, free, congrArg Fault.root cause⟩)))
      · obtain ⟨attached, reason, cause⟩ := refused
        exact .inr (.inr (.inl
          ⟨attached, reason, congrArg Fault.root cause⟩))
  | overshot _ _ performed outside =>
      obtain ⟨target, _, bound⟩ := perform_eq_jump performed
      exact .inr (.inr (.inr (.inr ⟨target, _, bound, outside, rfl⟩)))

/-! ### Machines of built programs -/

/-- A machine of a built program, with any limits and any echo, after any
history: no step or execution fails by jumping past the end.  When every target
is carried by some instruction, none fails by an unknown label either, and what
remains are a division by zero, a passed limit when there are limits, and a
refused line when there is an echo. -/
theorem root_of_failsWith_of_built {program : Program} (built : program.Built)
    (limits : Option Limits) (echo : Option Sink) (actions : List Action)
    {fault : Fault}
    (failed : FailsWith
      (actAll { ofProgram program with limits := limits, echo := echo } actions)
      fault) :
    (∀ target length, fault.root ≠ .counterPastEnd target length) ∧
      (program.TargetsLabelled →
        (∀ label, fault.root ≠ .unknownLabel label) ∧
          ((∃ divisor, fault.root = .divisionByZero divisor) ∨
            (limits.isSome = true ∧ ∃ cause, fault.root = .limit cause) ∨
            (echo.isSome = true ∧ ∃ cause, fault.root = .io cause))) := by
  have labelled := built.wellLabelled
  obtain ⟨reached, event, after, onward, outcome⟩ := failed.exists_step
  have same := (sameSetup_actAll _ actions).trans onward
  have causes := root_of_step_eq_failed outcome
  rw [same.labels, same.program, same.limits, same.echo] at causes
  rcases causes with division | limited | refused | unbound | overshot
  · obtain ⟨divisor, cause⟩ := division
    rw [cause]
    refine ⟨nofun, ?_⟩
    intro _
    exact ⟨nofun, .inl ⟨divisor, rfl⟩⟩
  · obtain ⟨attached, reason, cause⟩ := limited
    rw [cause]
    refine ⟨nofun, ?_⟩
    intro _
    exact ⟨nofun, .inr (.inl ⟨attached, reason, rfl⟩)⟩
  · obtain ⟨attached, reason, cause⟩ := refused
    rw [cause]
    refine ⟨nofun, ?_⟩
    intro _
    exact ⟨nofun, .inr (.inr ⟨attached, reason, rfl⟩)⟩
  · obtain ⟨instruction, member, target, jumps, free, cause⟩ := unbound
    rw [cause]
    refine ⟨nofun, ?_⟩
    intro targets
    exact absurd free (labelled.get?_target_ne_none targets member jumps)
  · obtain ⟨target, address, bound, outside, _⟩ := overshot
    have inside := labelled.lt_size bound
    exact absurd outside (Nat.lt_asymm inside)

theorem root_of_failsWith_of_division :
    ∃ program, Program.ofList
        [⟨some "top", .mov .eax 7⟩, ⟨none, .binary .div .eax .ebx⟩,
          ⟨none, .jmp "top"⟩] = .ok program ∧
      program.TargetsLabelled ∧
      FailsWith
        (actAll
          { ofProgram program with
            limits := some .strict
            echo := some (.bounded 0) }
          [.execute 9, .reset, .write (.set .zero .eax 5), .step])
        (.execution 1 (.divisionByZero .ebx)) ∧
      ∀ label, Fault.root (.execution 1 (.divisionByZero .ebx)) ≠
        .unknownLabel label := by
  obtain ⟨program, success⟩ := (Program.ofList_isOk_iff
    [⟨some "top", .mov .eax 7⟩, ⟨none, .binary .div .eax .ebx⟩,
      ⟨none, .jmp "top"⟩]).mpr (by decide)
  obtain ⟨equality, _⟩ := (Program.ofList_eq_ok_iff _ program).mp success
  have targets : program.TargetsLabelled := by
    unfold Program.TargetsLabelled
    rw [equality]
    simp [Operation.target?]
  have failed : FailsWith
      (actAll
        { ofProgram program with
          limits := some .strict
          echo := some (.bounded 0) }
        [.execute 9, .reset, .write (.set .zero .eax 5), .step])
      (.execution 1 (.divisionByZero .ebx)) := by
    unfold ofProgram
    rw [equality]
    exact .inl ⟨none, _, rfl⟩
  refine ⟨program, success, targets, failed, ?_⟩
  exact ((root_of_failsWith_of_built (.ofList success) _ _ _ failed).2
    targets).1

end Machine
end RegisterMachine
