/-
Runs that are repeated to a sink.

As long as the sink has room, the machine steps exactly as without it; the value
after that is in the output when the sink refuses its line.  Both facts are carried
along a run by induction on its fuel, so they hold also of runs that never end.
-/

import Mathlib.Data.ENat.Basic
import RegisterMachine.Machine.Snapshot
import RegisterMachine.Proofs.Runs

namespace RegisterMachine

/-! ### Sinks with room -/

namespace Sink

/-- The sink takes the given number of further lines, or all of them when the
number is infinite, and then refuses every line. -/
def HasRoom (sink : Sink) (room : ℕ∞) : Prop :=
  ∀ (later : Nat) (line : String),
    sink.answer (sink.offered + later) line = none ↔ (later : ℕ∞) < room

def taking (sink : Sink) (taken : List String) : Sink :=
  { sink with
    offered := sink.offered + taken.length
    lines := taken.reverse ++ sink.lines }

theorem hasRoom_unbounded : unbounded.HasRoom ⊤ := by
  intro later line
  simp [unbounded]

theorem hasRoom_bounded (room : Nat) : (bounded room).HasRoom room := by
  intro later line
  simp [bounded]

theorem taking_append_singleton (sink : Sink) (taken : List String)
    (line : String) :
    sink.taking (taken ++ [line]) =
      { sink.taking taken with
        offered := (sink.taking taken).offered + 1
        lines := line :: (sink.taking taken).lines } := by
  simp [taking, Nat.add_assoc]

theorem text_taking (sink : Sink) (taken : List String) :
    (sink.taking taken).text = sink.text ++ String.join taken := by
  simp [text, taking, String.join_append]

theorem HasRoom.takes {sink : Sink} {room : ℕ∞} (roomy : sink.HasRoom room)
    {taken : List String} (fits : (taken.length : ℕ∞) < room) (line : String) :
    (sink.taking taken).answer (sink.taking taken).offered line = none :=
  (roomy taken.length line).mpr fits

theorem HasRoom.refuses {sink : Sink} {room : ℕ∞} (roomy : sink.HasRoom room)
    {taken : List String} (full : room ≤ (taken.length : ℕ∞)) (line : String) :
    ∃ fault, (sink.taking taken).answer (sink.taking taken).offered line =
      some fault := by
  rw [← Option.ne_none_iff_exists']
  intro takes
  have fits := (roomy taken.length line).mp takes
  exact absurd fits (not_lt_of_ge full)

end Sink

namespace Machine

def withoutEcho (machine : Machine) : Machine :=
  { machine with echo := none }

def echoLines (output : Array Int32) : List String :=
  output.toList.map echoLine

def echoing (machine : Machine) (sink : Sink) : Machine :=
  machine.withEcho (sink.taking (echoLines machine.output))

@[simp] theorem length_echoLines (output : Array Int32) :
    (echoLines output).length = output.size := by
  simp [echoLines]

theorem echoLines_push (output : Array Int32) (value : Int32) :
    echoLines (output.push value) = echoLines output ++ [echoLine value] := by
  simp [echoLines]

/-! ### What a step puts out -/

theorem Performed.output_cases {machine after : Machine} {operation : Operation}
    {outcome : Except Fault Directive}
    (performed : Performed machine operation outcome after) :
    after.output = machine.output ∧ operation.opcode ≠ .out ∨
      ∃ source, operation = .out source ∧
        after.output = machine.output.push (machine.registers.get source) := by
  cases performed with
  | computed _ | dividedByZero _ | loaded | passed _ =>
      exact .inl ⟨rfl, Opcode.noConfusion⟩
  | emitted _ | echoed _ _ | refused _ _ => exact .inr ⟨_, rfl, rfl⟩
  | unbound taken _ | jumped taken _ =>
      refine .inl ⟨rfl, ?_⟩
      cases taken <;> exact Opcode.noConfusion

/-- Only an instruction that puts a value out changes the output. -/
theorem output_step_cases (machine : Machine) :
    machine.step.2.output = machine.output ∨
      ∃ label source,
        machine.program[machine.counter]? = some ⟨label, .out source⟩ ∧
          machine.checkStep = .ok () ∧
            machine.step.2.output =
              machine.output.push (machine.registers.get source) := by
  cases outcome : machine.step with
  | mk result reached =>
      cases stepped_of_step outcome with
      | idle _ => exact .inl rfl
      | limited _ _ _ => exact .inl rfl
      | @faulted instruction _ _ fetched allowed performs
      | @overshot instruction _ _ fetched allowed performs _
      | @moved instruction _ _ fetched allowed performs _ =>
          cases instruction with
          | mk label operation =>
              rcases (performed_of_perform performs).output_cases with
                kept | emitted
              · exact .inl kept.1
              · obtain ⟨source, rfl, pushed⟩ := emitted
                exact .inr ⟨label, source, fetched, allowed, pushed⟩

theorem output_prefix_step (machine : Machine) :
    machine.output.toList <+: machine.step.2.output.toList := by
  rcases output_step_cases machine with kept | emitted
  · exact kept.symm ▸ List.prefix_refl _
  · obtain ⟨_, _, _, _, pushed⟩ := emitted
    rw [pushed, Array.toList_push]
    exact List.prefix_append _ _

theorem output_step_prefix_proceed {σ : Type} (watch : σ → Event → σ)
    (fuel : Nat) (machine : Machine) (seen : σ) :
    machine.step.2.output.toList <+:
      (proceed watch (fuel + 1) machine seen).machine.output.toList := by
  cases outcome : machine.step with
  | mk result after =>
      cases result with
      | idle => simp [proceed, outcome]
      | failed fault event => cases event <;> simp [proceed, outcome]
      | ran event =>
          simp only [proceed, outcome]
          cases after.isHalted with
          | true => exact List.prefix_refl _
          | false =>
              have grows (reached : Machine)
                  (grown : after.output.toList <+: reached.output.toList) :
                  after.output.toList <+: reached.step.2.output.toList :=
                grown.trans (output_prefix_step reached)
              exact proceed_invariant watch grows fuel after (watch seen event)
                (List.prefix_refl _)

def outCount (events : List Event) : Nat :=
  events.countP fun event => event.instruction.operation.opcode = .out

theorem StepsTo.size_output {start reached : Machine} {events : List Event}
    (stepped : StepsTo start events reached) :
    reached.output.size = start.output.size + outCount events := by
  induction stepped with
  | refl machine => rfl
  | @cons start middle reached event events first _ ih =>
      rw [ih, outCount, outCount, List.countP_cons]
      cases stepped_of_step first with
      | moved _ _ performs _ =>
          rcases (performed_of_perform performs).output_cases with
            kept | emitted
          · simp [kept]
          · obtain ⟨source, isOut, pushed⟩ := emitted
            rw [pushed, Array.size_push, isOut]
            simp only [Operation.opcode, decide_true, if_true]
            omega

/-! ### One step beside a sink -/

section Step

variable {machine : Machine} {sink : Sink} {room : ℕ∞}

theorem Performed.echoing {after : Machine} {operation : Operation}
    {outcome : Except Fault Directive}
    (performed : Performed machine operation outcome after)
    (roomy : sink.HasRoom room) (silent : machine.echo = none)
    (fits : (after.output.size : ℕ∞) ≤ room) :
    Performed (machine.echoing sink) operation outcome
      (after.echoing sink) := by
  cases performed with
  | computed computes => exact .computed computes
  | dividedByZero zero => exact .dividedByZero zero
  | loaded => exact .loaded
  | @emitted source _ =>
      have free : ((echoLines machine.output).length : ℕ∞) < room := by
        refine lt_of_lt_of_le ?_ fits
        rw [length_echoLines, ENat.natCast_lt_natCast, putOut, Array.size_push]
        exact Nat.lt_succ_self _
      have takes := roomy.takes free (echoLine (machine.registers.get source))
      have echoed : Performed (machine.echoing sink) (.out source) (.ok .next)
        _ := .echoed rfl takes
      rw [← Sink.taking_append_singleton] at echoed
      unfold Machine.echoing putOut
      rw [echoLines_push]
      exact echoed
  | echoed attached _ | refused attached _ =>
      rw [silent] at attached
      contradiction
  | unbound taken free => exact .unbound taken free
  | jumped taken bound => exact .jumped taken bound
  | passed untaken => exact .passed untaken

theorem keepsControl_echoing :
    KeepsControl fun machine => machine.echoing sink :=
  ⟨fun _ => rfl, fun _ => rfl, fun _ => rfl, fun _ _ _ => rfl⟩

theorem output_step {instruction : Instruction}
    (fetched : machine.program[machine.counter]? = some instruction)
    (allowed : machine.checkStep = .ok ()) :
    machine.step.2.output =
      (machine.perform instruction.operation).2.output := by
  cases performs : machine.perform instruction.operation with
  | mk outcome after =>
      cases outcome with
      | error fault => rw [step_of_error fetched allowed performs]
      | ok directive =>
          rw [step_of_ok fetched allowed performs]
          cases directive with
          | next => rfl
          | jump target =>
              rw [advance]
              split <;> rfl

theorem step_echoing_of_le (roomy : sink.HasRoom room)
    (silent : machine.echo = none)
    (fits : (machine.step.2.output.size : ℕ∞) ≤ room) :
    (machine.echoing sink).step =
      (machine.step.1, machine.step.2.echoing sink) := by
  refine keepsControl_echoing.step rfl ?_
  intro instruction fetched allowed
  rw [output_step fetched allowed] at fits
  have performed : Performed machine instruction.operation
      (machine.perform instruction.operation).1
      (machine.perform instruction.operation).2 := performed_of_perform rfl
  exact perform_of_performed (performed.echoing roomy silent fits)

/-- The machine that a refused line leaves: its value has been put out, and the
sink is as it was but for the line it was offered. -/
def refusedBy (machine : Machine) (sink : Sink) (value : Int32) : Machine :=
  (machine.putOut value).withEcho
    { sink.taking (echoLines machine.output) with
      offered := (sink.taking (echoLines machine.output)).offered + 1 }

theorem step_echoing_of_full (roomy : sink.HasRoom room)
    (full : room ≤ (machine.output.size : ℕ∞)) {label : Option String}
    {source : Register}
    (fetched : machine.program[machine.counter]? = some ⟨label, .out source⟩)
    (allowed : machine.checkStep = .ok ()) :
    ∃ fault, (machine.echoing sink).step =
      (.failed (.execution machine.counter (.io fault)) none,
        machine.refusedBy sink (machine.registers.get source)) := by
  rw [← length_echoLines] at full
  obtain ⟨fault, refuses⟩ := roomy.refuses full
    (echoLine (machine.registers.get source))
  have refused : Performed (machine.echoing sink) (.out source)
      (.error (.io fault))
      (machine.refusedBy sink (machine.registers.get source)) :=
    .refused rfl refuses
  have stillFetched : (machine.echoing sink).program[machine.counter]? =
      some ⟨label, .out source⟩ := fetched
  have stillAllowed : (machine.echoing sink).checkStep = .ok () := allowed
  exact ⟨fault, step_of_error stillFetched stillAllowed
    (perform_of_performed refused)⟩

end Step

/-! ### Runs beside a sink -/

section Runs

variable {σ : Type} (watch : σ → Event → σ) {sink : Sink}

theorem size_output_step_le_proceed (fuel : Nat) (machine : Machine)
    (seen : σ) :
    machine.step.2.output.size ≤
      (proceed watch (fuel + 1) machine seen).machine.output.size :=
  (output_step_prefix_proceed watch fuel machine seen).length_le

theorem silent_of_step {machine after : Machine} {result : StepResult}
    (silent : machine.echo = none)
    (stepped : machine.step = (result, after)) : after.echo = none :=
  (sameSetup_of_step stepped).silent silent

theorem proceed_echoing_of_le {room : ℕ∞} (roomy : sink.HasRoom room)
    (fuel : Nat) (machine : Machine) (seen : σ) (silent : machine.echo = none)
    (fits : ((proceed watch fuel machine seen).machine.output.size : ℕ∞) ≤
      room) :
    (proceed watch fuel (machine.echoing sink) seen).verdict =
        (proceed watch fuel machine seen).verdict ∧
      (proceed watch fuel (machine.echoing sink) seen).machine =
        (proceed watch fuel machine seen).machine.echoing sink := by
  induction fuel generalizing machine seen with
  | zero => exact ⟨rfl, rfl⟩
  | succ fuel ih =>
      -- outputs only grow, so there is room after the first step already
      have grown : (machine.step.2.output.size : ℕ∞) ≤
          (proceed watch (fuel + 1) machine seen).machine.output.size :=
        ENat.natCast_le_natCast.mpr
          (size_output_step_le_proceed watch fuel machine seen)
      have steps := step_echoing_of_le roomy silent (grown.trans fits)
      cases outcome : machine.step with
      | mk result after =>
          rw [outcome] at steps
          cases result with
          | idle => simp [proceed, outcome, steps]
          | failed fault event => cases event <;> simp [proceed, outcome, steps]
          | ran event =>
              simp only [proceed, outcome, steps] at fits ⊢
              have sameHalt : (after.echoing sink).isHalted =
                after.isHalted := rfl
              rw [sameHalt]
              cases halts : after.isHalted with
              | true => exact ⟨rfl, rfl⟩
              | false =>
                  rw [halts] at fits
                  exact ih after (watch seen event)
                    (silent_of_step silent outcome) fits

/-- A run that puts out more than the sink has room for comes, after as many
values as there is room, to an instruction that puts out one more.  Beside the
sink it fails there. -/
theorem proceed_echoing_of_lt {lines : Nat} (roomy : sink.HasRoom lines)
    (fuel : Nat) (machine : Machine) (seen : σ) (silent : machine.echo = none)
    (within : machine.output.size ≤ lines)
    (beyond : lines < (proceed watch fuel machine seen).machine.output.size) :
    ∃ events before label source fault,
      StepsTo machine events before ∧
        before.program[before.counter]? = some ⟨label, .out source⟩ ∧
          before.output.size = lines ∧
            (before.output.push (before.registers.get source)).toList <+:
                (proceed watch fuel machine seen).machine.output.toList ∧
              (proceed watch fuel (machine.echoing sink) seen).verdict =
                  .failed (.execution before.counter (.io fault)) ∧
                (proceed watch fuel (machine.echoing sink) seen).machine =
                  before.refusedBy sink (before.registers.get source) := by
  induction fuel generalizing machine seen with
  | zero => exact absurd beyond (Nat.not_lt_of_le within)
  | succ fuel ih =>
      by_cases fits : machine.step.2.output.size ≤ lines
      · have steps := step_echoing_of_le roomy silent
          (ENat.natCast_le_natCast.mpr fits)
        cases outcome : machine.step with
        | mk result after =>
            rw [outcome] at steps
            have stays : after.output.size ≤ lines := by
              rw [outcome] at fits
              exact fits
            cases result with
            | idle =>
                simp only [proceed, outcome] at beyond
                omega
            | failed fault event =>
                cases event <;> simp only [proceed, outcome] at beyond <;> omega
            | ran event =>
                have sameHalt : (after.echoing sink).isHalted =
                  after.isHalted := rfl
                simp only [proceed, outcome, steps, sameHalt] at beyond ⊢
                cases halts : after.isHalted with
                | true =>
                    rw [halts, if_pos rfl] at beyond
                    exact absurd beyond (Nat.not_lt_of_le stays)
                | false =>
                    rw [halts] at beyond
                    obtain ⟨events, before, label, source, fault, reaches,
                      rest⟩ := ih after (watch seen event)
                        (silent_of_step silent outcome) stays beyond
                    exact ⟨event :: events, before, label, source, fault,
                      .cons outcome reaches, rest⟩
      · rcases output_step_cases machine with kept | emitted
        · rw [kept] at fits
          exact absurd within fits
        · obtain ⟨label, source, fetched, allowed, pushed⟩ := emitted
          have last : machine.output.size = lines := by
            rw [pushed, Array.size_push] at fits
            omega
          have full : (lines : ℕ∞) ≤ machine.output.size :=
            ENat.natCast_le_natCast.mpr (Nat.le_of_eq last.symm)
          obtain ⟨fault, fails⟩ :=
            step_echoing_of_full roomy full fetched allowed
          have grown := output_step_prefix_proceed watch fuel machine seen
          rw [pushed] at grown
          refine ⟨[], machine, label, source, fault, .refl machine, fetched,
            last, grown, ?_, ?_⟩
          · simp only [proceed, fails]
          · simp only [proceed, fails]

end Runs

/-! ### Executions beside a sink -/

theorem echoed_echoing (machine : Machine) (sink : Sink) :
    (machine.echoing sink).echoed =
      sink.text ++ String.join (echoLines machine.output) :=
  sink.text_taking (echoLines machine.output)

theorem echoed_refusedBy (machine : Machine) (sink : Sink) (value : Int32) :
    (machine.refusedBy sink value).echoed =
      sink.text ++ String.join (echoLines machine.output) :=
  sink.text_taking (echoLines machine.output)

theorem snapshot_refusedBy (machine : Machine) (sink : Sink) (value : Int32) :
    (machine.refusedBy sink value).snapshot =
      { machine.snapshot with output := machine.output.push value } :=
  rfl

theorem rewind_withEcho (machine : Machine) (sink : Sink) :
    (machine.withEcho sink).rewind = machine.withoutEcho.rewind.echoing sink :=
  rfl

theorem eq_take_of_prefix {front whole : Array Int32}
    (grown : front.toList <+: whole.toList) :
    front = whole.take front.size := by
  apply Array.ext'
  rw [List.prefix_iff_eq_take.mp grown]
  simp

/-- While no more is put out than the sink has room for, an execution beside it ends
as without it, and the sink has taken a line for each value.  Otherwise it fails
at the first instruction that puts out more: its value is in the output, the lines
before it are in the sink, and all else is as it was before this instruction. -/
theorem execute_withEcho_of_hasRoom (machine : Machine) {sink : Sink}
    {room : ℕ∞} (roomy : sink.HasRoom room) (fuel : Nat) :
    (((machine.withoutEcho.execute fuel).2.output.size : ℕ∞) ≤ room →
      ((machine.withEcho sink).execute fuel).1 =
          (machine.withoutEcho.execute fuel).1 ∧
        ((machine.withEcho sink).execute fuel).2.snapshot =
            (machine.withoutEcho.execute fuel).2.snapshot ∧
          ((machine.withEcho sink).execute fuel).2.echoed = sink.text ++
            String.join (echoLines (machine.withoutEcho.execute fuel).2.output)) ∧
      (∀ lines : Nat, room = lines →
        lines < (machine.withoutEcho.execute fuel).2.output.size →
          ∃ events before label source cause,
            StepsTo machine.withoutEcho.rewind events before ∧
              outCount events = lines ∧
              before.program[before.counter]? = some ⟨label, .out source⟩ ∧
              ((machine.withEcho sink).execute fuel).1 =
                .failed (.execution before.counter (.io cause)) ∧
              ((machine.withEcho sink).execute fuel).2.snapshot =
                { before.snapshot with
                  output := (machine.withoutEcho.execute fuel).2.output.take
                    (lines + 1) } ∧
              ((machine.withEcho sink).execute fuel).2.echoed = sink.text ++
                String.join (echoLines
                  ((machine.withoutEcho.execute fuel).2.output.take lines))) := by
  have start := rewind_withEcho machine sink
  constructor
  · intro fits
    obtain ⟨sameVerdict, final⟩ := proceed_echoing_of_le (fun _ _ => ()) roomy
      fuel machine.withoutEcho.rewind () rfl fits
    rw [← start] at sameVerdict final
    refine ⟨sameVerdict, ?_, ?_⟩
    · calc
        ((machine.withEcho sink).execute fuel).2.snapshot =
            ((machine.withoutEcho.execute fuel).2.echoing sink).snapshot :=
          congrArg snapshot final
        _ = (machine.withoutEcho.execute fuel).2.snapshot := rfl
    · exact (congrArg echoed final).trans (echoed_echoing _ sink)
  · intro lines finite beyond
    rw [finite] at roomy
    obtain ⟨events, before, label, source, cause, reaches, fetched, size, grown,
      verdict, final⟩ := proceed_echoing_of_lt (fun _ _ => ()) roomy fuel
        machine.withoutEcho.rewind () rfl (Nat.zero_le _) beyond
    rw [← start] at verdict final
    have counted : outCount events = lines := by
      have total := reaches.size_output
      rw [size] at total
      exact (total.trans (Nat.zero_add _)).symm
    have values := eq_take_of_prefix grown
    rw [Array.size_push, size] at values
    have shorter : before.output.toList <+:
        (machine.withoutEcho.execute fuel).2.output.toList := by
      refine List.IsPrefix.trans ?_ grown
      rw [Array.toList_push]
      exact List.prefix_append _ _
    have earlier := eq_take_of_prefix shorter
    rw [size] at earlier
    refine ⟨events, before, label, source, cause, reaches, counted, fetched,
      verdict, ?_, ?_⟩
    · refine (congrArg snapshot final).trans ?_
      rw [snapshot_refusedBy, values]
      rfl
    · refine (congrArg echoed final).trans ?_
      rw [echoed_refusedBy, ← earlier]

theorem execute_withEcho_of_hasRoom_full :
    (Sink.bounded 1).HasRoom ((1 : Nat) : ℕ∞) ∧ Sink.unbounded.HasRoom ⊤ ∧
      ∃ (machine : Machine) (address : Nat) (cause : IoFault),
        ((machine.withEcho (.bounded 1)).execute 9).1 =
          .failed (.execution address (.io cause)) ∧
        ((machine.withEcho (.bounded 1)).execute 9).2.output = #[-7, 0] ∧
        ((machine.withEcho (.bounded 1)).execute 9).2.echoed = "-7\n" ∧
        ((machine.withEcho .unbounded).execute 9).1 = .halted ∧
        ((machine.withEcho .unbounded).execute 9).2.echoed = "-7\n0\n" := by
  obtain ⟨_, full⟩ := execute_withEcho_of_hasRoom
    (ofParts .empty #[⟨none, .mov .eax (-7)⟩, ⟨none, .out .eax⟩,
      ⟨none, .out .ebx⟩]) (Sink.hasRoom_bounded 1) 9
  obtain ⟨_, before, _, _, cause, _, _, _, verdict, state, text⟩ :=
    full 1 rfl (by decide)
  obtain ⟨endless, _⟩ := execute_withEcho_of_hasRoom
    (ofParts .empty #[⟨none, .mov .eax (-7)⟩, ⟨none, .out .eax⟩,
      ⟨none, .out .ebx⟩]) Sink.hasRoom_unbounded 9
  obtain ⟨sameVerdict, _, whole⟩ := endless le_top
  refine ⟨Sink.hasRoom_bounded 1, Sink.hasRoom_unbounded, _, before.counter,
    cause, verdict, ?_, text, sameVerdict, whole⟩
  exact congrArg Snapshot.output state

end Machine
end RegisterMachine
