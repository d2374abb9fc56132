/-
What one operation can do.

`Performed` lists the outcomes of an operation, each with the condition that leads
to it and the machine that it leaves.  Later proofs take an operation apart case by
case and never look into its definition.
-/

import RegisterMachine.Machine.Step

namespace RegisterMachine

inductive Operation.TakesJump (registers : RegisterFile) :
    Operation → String → Prop where
  | always {target : String} : TakesJump registers (.jmp target) target
  | nonzero {source : Register} {target : String}
      (tested : registers.get source ≠ 0) :
      TakesJump registers (.branch .nonzero source target) target
  | zero {source : Register} {target : String}
      (tested : registers.get source = 0) :
      TakesJump registers (.branch .zero source target) target

theorem BranchTest.takesJump_iff_holds (test : BranchTest)
    (registers : RegisterFile) (source : Register) (target : String) :
    Operation.TakesJump registers (.branch test source target) target ↔
      test.holds (registers.get source) = true := by
  cases test with
  | nonzero =>
      constructor
      · intro taken
        cases taken with
        | nonzero tested => simpa [holds] using tested
      · intro holds
        exact .nonzero (by simpa [BranchTest.holds] using holds)
  | zero =>
      constructor
      · intro taken
        cases taken with
        | zero tested => simpa [holds] using tested
      · intro holds
        exact .zero (by simpa [BranchTest.holds] using holds)

theorem BinaryOp.apply_eq_none_iff (op : BinaryOp) (left right : Int32) :
    op.apply left right = none ↔ op = .div ∧ right = 0 := by
  cases op with
  | div => simp [apply]
  | add | sub | mul | cmp => simp [apply]

namespace Sink

theorem offer_of_takes {sink : Sink} {line : String}
    (takes : sink.answer sink.offered line = none) :
    sink.offer line = (none,
      { sink with
        offered := sink.offered + 1
        lines := line :: sink.lines }) := by
  simp only [offer, takes]

theorem offer_of_refuses {sink : Sink} {line : String} {fault : IoFault}
    (refuses : sink.answer sink.offered line = some fault) :
    sink.offer line =
      (some fault, { sink with offered := sink.offered + 1 }) := by
  simp only [offer, refuses]

end Sink

namespace Machine

def echoLine (value : Int32) : String :=
  Text.writeWord value ++ "\n"

def putOut (machine : Machine) (value : Int32) : Machine :=
  { machine with output := machine.output.push value }

inductive Performed (machine : Machine) :
    Operation → Except Fault Directive → Machine → Prop where
  | computed {op : BinaryOp} {result source : Register} {value : Int32}
      (computes : op.apply (machine.registers.get result)
        (machine.registers.get source) = some value) :
      Performed machine (.binary op result source) (.ok .next)
        (machine.setRegister result value)
  | dividedByZero {result source : Register}
      (zero : machine.registers.get source = 0) :
      Performed machine (.binary .div result source)
        (.error (.divisionByZero source)) machine
  | loaded {result : Register} {value : Int32} :
      Performed machine (.mov result value) (.ok .next)
        (machine.setRegister result value)
  | emitted {source : Register} (silent : machine.echo = none) :
      Performed machine (.out source) (.ok .next)
        (machine.putOut (machine.registers.get source))
  | echoed {source : Register} {sink : Sink}
      (attached : machine.echo = some sink)
      (takes : sink.answer sink.offered
        (echoLine (machine.registers.get source)) = none) :
      Performed machine (.out source) (.ok .next)
        ((machine.putOut (machine.registers.get source)).withEcho
          { sink with
            offered := sink.offered + 1
            lines := echoLine (machine.registers.get source) :: sink.lines })
  | refused {source : Register} {sink : Sink} {fault : IoFault}
      (attached : machine.echo = some sink)
      (refuses : sink.answer sink.offered
        (echoLine (machine.registers.get source)) = some fault) :
      Performed machine (.out source) (.error (.io fault))
        ((machine.putOut (machine.registers.get source)).withEcho
          { sink with offered := sink.offered + 1 })
  | unbound {operation : Operation} {target : String}
      (taken : operation.TakesJump machine.registers target)
      (free : machine.labels.get? target = none) :
      Performed machine operation (.error (.unknownLabel target)) machine
  | jumped {operation : Operation} {target : String} {address : Nat}
      (taken : operation.TakesJump machine.registers target)
      (bound : machine.labels.get? target = some address) :
      Performed machine operation (.ok (.jump address)) machine
  | passed {test : BranchTest} {source : Register} {target : String}
      (untaken : test.holds (machine.registers.get source) = false) :
      Performed machine (.branch test source target) (.ok .next) machine

theorem performed_of_emit {machine after : Machine} {source : Register}
    {outcome : Except Fault Directive}
    (emitted : machine.emit (machine.registers.get source) =
      (outcome, after)) :
    Performed machine (.out source) outcome after := by
  unfold emit at emitted
  cases attached : machine.echo with
  | none =>
      simp only [attached] at emitted
      cases emitted
      have silent : Performed machine (.out source) (.ok .next)
          (machine.putOut (machine.registers.get source)) := .emitted attached
      rw [putOut, attached] at silent
      exact silent
  | some sink =>
      simp only [attached] at emitted
      cases answer : sink.answer sink.offered
          (echoLine (machine.registers.get source)) with
      | none =>
          have offered := Sink.offer_of_takes answer
          rw [echoLine] at offered
          rw [offered] at emitted
          cases emitted
          exact .echoed attached answer
      | some fault =>
          have offered := Sink.offer_of_refuses answer
          rw [echoLine] at offered
          rw [offered] at emitted
          cases emitted
          exact .refused attached answer

theorem performed_of_follow {machine after : Machine} {operation : Operation}
    {target : String} {outcome : Except Fault Directive}
    (taken : operation.TakesJump machine.registers target)
    (followed : machine.follow target = (outcome, after)) :
    Performed machine operation outcome after := by
  unfold follow LabelTable.resolve at followed
  cases lookup : machine.labels.get? target with
  | none =>
      rw [lookup] at followed
      cases followed
      exact .unbound taken lookup
  | some address =>
      rw [lookup] at followed
      cases followed
      exact .jumped taken lookup

theorem performed_of_perform {machine after : Machine} {operation : Operation}
    {outcome : Except Fault Directive}
    (performs : machine.perform operation = (outcome, after)) :
    Performed machine operation outcome after := by
  cases operation with
  | binary op result source =>
      simp only [perform] at performs
      cases computes : op.apply (machine.registers.get result)
          (machine.registers.get source) with
      | some value =>
          rw [computes] at performs
          cases performs
          exact .computed computes
      | none =>
          rw [computes] at performs
          cases performs
          obtain ⟨rfl, zero⟩ := (op.apply_eq_none_iff _ _).mp computes
          exact .dividedByZero zero
  | mov result value =>
      cases performs
      exact .loaded
  | out source => exact performed_of_emit performs
  | jmp target => exact performed_of_follow .always performs
  | branch test source target =>
      rw [perform] at performs
      cases holds : test.holds (machine.registers.get source) with
      | true =>
          rw [if_pos holds] at performs
          have taken := (test.takesJump_iff_holds machine.registers source
            target).mpr holds
          exact performed_of_follow taken performs
      | false =>
          rw [holds] at performs
          cases performs
          exact .passed holds

theorem perform_of_takesJump {machine : Machine} {operation : Operation}
    {target : String}
    (taken : operation.TakesJump machine.registers target) :
    machine.perform operation = machine.follow target := by
  cases taken with
  | always => rfl
  | nonzero tested =>
      have holds : BranchTest.nonzero.holds (machine.registers.get _) = true :=
        (BranchTest.nonzero.takesJump_iff_holds machine.registers _ target).mp
          (.nonzero tested)
      rw [perform, if_pos holds]
  | zero tested =>
      have holds : BranchTest.zero.holds (machine.registers.get _) = true :=
        (BranchTest.zero.takesJump_iff_holds machine.registers _ target).mp
          (.zero tested)
      rw [perform, if_pos holds]

theorem perform_of_performed {machine after : Machine} {operation : Operation}
    {outcome : Except Fault Directive}
    (performed : Performed machine operation outcome after) :
    machine.perform operation = (outcome, after) := by
  cases performed with
  | computed computes => simp only [perform, computes]
  | dividedByZero zero => simp only [perform, BinaryOp.apply, zero, if_pos]
  | loaded => rfl
  | emitted silent => simp only [perform, emit, silent, putOut]
  | echoed attached takes =>
      have offered := Sink.offer_of_takes takes
      rw [echoLine] at offered
      simp only [perform, emit, attached, offered]
      rfl
  | refused attached refuses =>
      have offered := Sink.offer_of_refuses refuses
      rw [echoLine] at offered
      simp only [perform, emit, attached, offered]
      rfl
  | unbound taken free =>
      rw [perform_of_takesJump taken]
      simp only [follow, LabelTable.resolve, free]
  | jumped taken bound =>
      rw [perform_of_takesJump taken]
      simp only [follow, LabelTable.resolve, bound]
  | passed untaken => simp [perform, untaken]

end Machine
end RegisterMachine
