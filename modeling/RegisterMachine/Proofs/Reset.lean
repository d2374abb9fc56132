/-
Executions forget what came before them.

Of an earlier history an execution can only notice the registers, the sink and what
was settled when the machine was built.  Two machines of one build with the same
registers execute alike, and a reset machine executes like a new one.
-/

import RegisterMachine.Proofs.Echo
import RegisterMachine.Proofs.Histories

namespace RegisterMachine

theorem Sink.HasRoom.offered_succ {sink : Sink} (roomy : sink.HasRoom ⊤)
    (lines : List String) :
    HasRoom { sink with offered := sink.offered + 1, lines := lines } ⊤ := by
  intro later line
  have takes := roomy (1 + later) line
  rw [← Nat.add_assoc] at takes
  rw [takes]
  simp

namespace Machine

def TakesEveryLine (machine : Machine) : Prop :=
  ∀ sink, machine.echo = some sink → sink.HasRoom ⊤

/-- The machine has what was settled when the given one was built, and its sink
refuses nothing. -/
structure Descends (built machine : Machine) : Prop
    extends SameSetup built machine where
  takes : machine.TakesEveryLine

def Call.keepsSetup : Call → Bool
  | .withLimits _ => false
  | .withEcho _ => false
  | _ => true

/-! ### What a history keeps -/

section Histories

variable {built machine : Machine}

theorem Performed.takesEveryLine {after : Machine} {operation : Operation}
    {outcome : Except Fault Directive}
    (performed : Performed machine operation outcome after)
    (takes : machine.TakesEveryLine) : after.TakesEveryLine := by
  cases performed with
  | computed _ | dividedByZero _ | loaded | emitted _ | unbound _ _
  | jumped _ _ | passed _ => exact takes
  | @echoed source sink attached _ =>
      intro later same
      cases same
      exact (takes sink attached).offered_succ _
  | @refused source sink fault attached refuses =>
      have taken := (takes sink attached 0
        (echoLine (machine.registers.get source))).mpr (by simp)
      rw [Nat.add_zero, refuses] at taken
      contradiction

theorem Descends.perform (descends : Descends built machine)
    (operation : Operation) :
    Descends built (machine.perform operation).2 := by
  have performed : Performed machine operation (machine.perform operation).1
      (machine.perform operation).2 := performed_of_perform rfl
  exact ⟨descends.toSameSetup.trans performed.sameControl.toSameSetup,
    performed.takesEveryLine descends.takes⟩

theorem Descends.step (descends : Descends built machine) :
    Descends built machine.step.2 := by
  refine ⟨descends.toSameSetup.trans (sameSetup_step machine), ?_⟩
  cases outcome : machine.step with
  | mk result reached =>
      cases stepped_of_step outcome with
      | idle _ => exact descends.takes
      | limited _ _ _ => exact descends.takes
      | faulted _ _ performs | overshot _ _ performs _ | moved _ _ performs _ =>
          exact (performed_of_perform performs).takesEveryLine descends.takes

theorem Descends.execute (descends : Descends built machine) (fuel : Nat) :
    Descends built (machine.execute fuel).2 := by
  apply proceed_invariant (fun _ _ => ()) (fun _ kept => kept.step) fuel
  exact ⟨⟨descends.labels, descends.program, descends.limits, descends.echo⟩,
    descends.takes⟩

theorem Descends.call (descends : Descends built machine) {use : Call}
    (keeps : use.keepsSetup = true) : Descends built (machine.call use) := by
  have same := descends.toSameSetup
  cases use with
  | step => exact descends.step
  | execute fuel => exact descends.execute fuel
  | perform instruction => exact descends.perform instruction.operation
  | reset | setRegister _ _ | clearRegisters =>
      exact ⟨⟨same.labels, same.program, same.limits, same.echo⟩,
        descends.takes⟩
  | withLimits limits => contradiction
  | withEcho sink => contradiction

theorem Descends.callAll (descends : Descends built machine)
    {history : List Call}
    (keeps : ∀ use ∈ history, use.keepsSetup = true) :
    Descends built (machine.callAll history) := by
  induction history generalizing machine with
  | nil => exact descends
  | cons use rest ih =>
      apply ih (descends.call (keeps use List.mem_cons_self))
      intro other member
      exact keeps other (List.mem_cons_of_mem use member)

end Histories

/-! ### Executions without refusals -/

def echoText (machine : Machine) (output : Array Int32) : String :=
  if machine.echo.isSome then String.join (echoLines output) else ""

theorem withoutEcho_of_silent {machine : Machine}
    (silent : machine.echo = none) : machine.withoutEcho = machine := by
  cases machine
  cases silent
  rfl

theorem withEcho_of_attached {machine : Machine} {sink : Sink}
    (attached : machine.echo = some sink) :
    machine.withEcho sink = machine := by
  cases machine
  cases attached
  rfl

theorem echoed_of_silent {machine : Machine} (silent : machine.echo = none) :
    machine.echoed = "" := by
  rw [echoed, silent]

theorem execute_of_takesEveryLine {machine : Machine}
    (takes : machine.TakesEveryLine) (fuel : Nat) :
    (machine.execute fuel).1 = (machine.withoutEcho.execute fuel).1 ∧
      (machine.execute fuel).2.snapshot =
        (machine.withoutEcho.execute fuel).2.snapshot ∧
      (machine.execute fuel).2.echoed = machine.echoed ++
        machine.echoText (machine.withoutEcho.execute fuel).2.output := by
  cases attached : machine.echo with
  | none =>
      have itself : Descends machine machine := ⟨.refl machine, takes⟩
      have silent : (machine.execute fuel).2.echo = none :=
        (itself.execute fuel).silent attached
      rw [withoutEcho_of_silent attached]
      refine ⟨rfl, rfl, ?_⟩
      rw [echoed_of_silent silent, echoed_of_silent attached, echoText, attached]
      rfl
  | some sink =>
      have start : machine.rewind =
          machine.withoutEcho.rewind.echoing sink := by
        rw [← rewind_withEcho, withEcho_of_attached attached]
      obtain ⟨sameVerdict, final⟩ := proceed_echoing_of_le (fun _ _ => ())
        (takes sink attached) fuel machine.withoutEcho.rewind () rfl le_top
      rw [← start] at sameVerdict final
      have left : (machine.execute fuel).2 =
          (machine.withoutEcho.execute fuel).2.echoing sink := final
      rw [left]
      refine ⟨sameVerdict, rfl, ?_⟩
      rw [echoed_echoing, echoText, echoed, attached]
      rfl

/-! ### Executions of one build -/

structure ExecuteAlike (left right : Machine) (fuel : Nat) : Prop where
  verdict : (left.execute fuel).1 = (right.execute fuel).1
  state : (left.execute fuel).2.snapshot = (right.execute fuel).2.snapshot
  text : ∃ added, (left.execute fuel).2.echoed = left.echoed ++ added ∧
    (right.execute fuel).2.echoed = right.echoed ++ added

/-- Of all that a machine holds, an execution reads the registers and what was
settled when the machine was built. -/
theorem executeAlike_of_descends {built left right : Machine}
    (leftDescends : Descends built left) (rightDescends : Descends built right)
    (agree : right.registers = left.registers) (fuel : Nat) :
    ExecuteAlike left right fuel := by
  have start : right.withoutEcho.rewind = left.withoutEcho.rewind := by
    unfold withoutEcho rewind
    rw [leftDescends.labels, leftDescends.program, leftDescends.limits,
      rightDescends.labels, rightDescends.program, rightDescends.limits, agree]
  have runs : right.withoutEcho.execute fuel =
      left.withoutEcho.execute fuel := by
    unfold execute executeWatched
    rw [start]
  have kind (output : Array Int32) :
      right.echoText output = left.echoText output := by
    unfold echoText
    rw [leftDescends.echo, rightDescends.echo]
  obtain ⟨leftVerdict, leftState, leftText⟩ :=
    execute_of_takesEveryLine leftDescends.takes fuel
  obtain ⟨rightVerdict, rightState, rightText⟩ :=
    execute_of_takesEveryLine rightDescends.takes fuel
  rw [runs] at rightVerdict rightState rightText
  rw [kind] at rightText
  exact ⟨leftVerdict.trans rightVerdict.symm, leftState.trans rightState.symm,
    _, leftText, rightText⟩

def build (labels : LabelTable) (program : Array Instruction)
    (limits : Option Limits) (echo : Option Sink) : Machine :=
  { ofParts labels program with limits := limits, echo := echo }

/-- Two machines are built of the same parts and limits, both without a sink or both
with one that takes every line, and have histories that leave these attached.  When
one of them is reset, it executes like the other one fresh from its building;
without the reset, the histories matter only through the registers. -/
theorem executeAlike_of_histories (labels : LabelTable)
    (program : Array Instruction) (limits : Option Limits)
    {echo otherEcho : Option Sink} (history otherHistory : List Call)
    (sameKind : otherEcho.isSome = echo.isSome)
    (takes : (build labels program limits echo).TakesEveryLine)
    (otherTakes : (build labels program limits otherEcho).TakesEveryLine)
    (keeps : ∀ use ∈ history, use.keepsSetup = true)
    (otherKeeps : ∀ use ∈ otherHistory, use.keepsSetup = true) (fuel : Nat) :
    ExecuteAlike ((build labels program limits echo).callAll history).reset
        (build labels program limits otherEcho) fuel ∧
      (((build labels program limits otherEcho).callAll otherHistory).registers =
          ((build labels program limits echo).callAll history).registers →
        ExecuteAlike ((build labels program limits echo).callAll history)
          ((build labels program limits otherEcho).callAll otherHistory)
          fuel) := by
  have start : Descends (build labels program limits echo)
      (build labels program limits echo) := ⟨.refl _, takes⟩
  have otherStart : Descends (build labels program limits echo)
      (build labels program limits otherEcho) :=
    ⟨⟨rfl, rfl, rfl, sameKind⟩, otherTakes⟩
  have used := start.callAll keeps
  have otherUsed := otherStart.callAll otherKeeps
  constructor
  · have reset : Descends (build labels program limits echo)
        (((build labels program limits echo).callAll history).call .reset) :=
      used.call rfl
    exact executeAlike_of_descends reset otherStart rfl fuel
  · intro agree
    exact executeAlike_of_descends used otherUsed agree fuel

theorem executeAlike_of_histories_of_division :
    ∃ (program : Array Instruction) (history otherHistory : List Call),
      (build .empty program none (some .unbounded)).TakesEveryLine ∧
        (∀ use ∈ history, use.keepsSetup = true) ∧
        (∀ use ∈ otherHistory, use.keepsSetup = true) ∧
        ((build .empty program none (some .unbounded)).callAll
          history).echoed = "5\n0\n" ∧
        ExecuteAlike
          ((build .empty program none (some .unbounded)).callAll history).reset
          (build .empty program none (some .unbounded)) 9 ∧
        ExecuteAlike
          ((build .empty program none (some .unbounded)).callAll history)
          ((build .empty program none (some .unbounded)).callAll otherHistory)
          9 := by
  have takes : (build .empty #[⟨none, .out .eax⟩,
      ⟨none, .binary .div .eax .ebx⟩] none (some .unbounded)).TakesEveryLine := by
    intro sink attached
    cases attached
    exact Sink.hasRoom_unbounded
  obtain ⟨afterReset, onward⟩ := executeAlike_of_histories .empty
    #[⟨none, .out .eax⟩, ⟨none, .binary .div .eax .ebx⟩] none
    [.setRegister .eax 5, .execute 9, .perform ⟨none, .out .ebx⟩]
    [.step, .setRegister .eax 5] rfl takes takes (by decide) (by decide) 9
  exact ⟨_, _, _, takes, by decide, by decide, by rfl, afterReset,
    onward (by rfl)⟩

end Machine
end RegisterMachine
