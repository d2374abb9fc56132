/-
Runs as sequences of steps.

`StepsTo` follows successful steps, `Ends` says how a run ends and how many
instructions it took.  A run that ends is found with any fuel that suffices, and
what every step preserves holds wherever a run stops.
-/

import RegisterMachine.Machine.Run
import RegisterMachine.Proofs.StepCases

namespace RegisterMachine
namespace Machine

inductive StepsTo : Machine → List Event → Machine → Prop where
  | refl (machine : Machine) : StepsTo machine [] machine
  | cons {start middle reached : Machine} {event : Event}
      {events : List Event} (first : start.step = (.ran event, middle))
      (others : StepsTo middle events reached) :
      StepsTo start (event :: events) reached

/-- The number counts the executed instructions, a failing one included. -/
inductive Ends : Machine → Nat → Verdict → Machine → Prop where
  | halted {machine : Machine} (halts : machine.isHalted = true) :
      Ends machine 0 .halted machine
  | failed {machine final : Machine} {fault : Fault} {event : Option Event}
      (failure : machine.step = (.failed fault event, final)) :
      Ends machine 1 (.failed fault) final
  | step {machine middle final : Machine} {event : Event} {executed : Nat}
      {verdict : Verdict} (ran : machine.step = (.ran event, middle))
      (later : Ends middle executed verdict final) :
      Ends machine (executed + 1) verdict final

/-! ### Sequences of steps -/

theorem StepsTo.steps_eq {start reached : Machine} {events : List Event}
    (stepped : StepsTo start events reached) :
    reached.steps = start.steps + events.length := by
  induction stepped with
  | refl machine => rfl
  | cons first _ ih =>
      have counted := steps_of_step_eq_ran first
      rw [List.length_cons]
      omega

theorem StepsTo.sameSetup {start reached : Machine} {events : List Event}
    (stepped : StepsTo start events reached) : SameSetup start reached := by
  induction stepped with
  | refl machine => exact .refl machine
  | cons first _ ih => exact (sameSetup_of_step first).trans ih

theorem StepsTo.continues {start first second : Machine}
    {early late : List Event} (earlier : StepsTo start early first)
    (later : StepsTo start late second) (le : early.length ≤ late.length) :
    ∃ rest, StepsTo first rest second ∧
      late.length = early.length + rest.length := by
  induction earlier generalizing late with
  | refl machine => exact ⟨late, later, (Nat.zero_add _).symm⟩
  | cons ran _ ih =>
      cases later with
      | refl => contradiction
      | cons also others =>
          rw [ran] at also
          cases also
          obtain ⟨rest, onward, total⟩ := ih others (Nat.le_of_succ_le_succ le)
          refine ⟨rest, onward, ?_⟩
          rw [List.length_cons, List.length_cons]
          omega

theorem StepsTo.ends {start reached final : Machine} {events : List Event}
    {executed : Nat} {verdict : Verdict}
    (stepped : StepsTo start events reached)
    (ended : Ends reached executed verdict final) :
    Ends start (events.length + executed) verdict final := by
  induction stepped with
  | refl machine =>
      rw [List.length_nil, Nat.zero_add]
      exact ended
  | @cons start middle reached event events first _ ih =>
      have later := ih ended
      have total : (event :: events).length + executed =
          events.length + executed + 1 := by
        rw [List.length_cons]
        omega
      rw [total]
      exact .step first later

theorem Ends.pos_of_running {machine final : Machine} {executed : Nat}
    {verdict : Verdict} (ended : Ends machine executed verdict final)
    (running : machine.isHalted = false) : 0 < executed := by
  cases ended with
  | halted halts =>
      rw [running] at halts
      contradiction
  | failed _ => exact Nat.one_pos
  | step _ _ => exact Nat.succ_pos _

theorem Ends.ne_unfinished {machine final : Machine} {executed : Nat}
    {verdict : Verdict} (ended : Ends machine executed verdict final) :
    verdict ≠ .unfinished := by
  induction ended with
  | halted _ => exact Verdict.noConfusion
  | failed _ => exact Verdict.noConfusion
  | step _ _ ih => exact ih

theorem Ends.steps_le {machine final : Machine} {executed : Nat}
    {verdict : Verdict} (ended : Ends machine executed verdict final) :
    final.steps ≤ machine.steps + executed := by
  induction ended with
  | halted _ => exact Nat.le_refl _
  | failed failure => exact steps_of_step_eq_failed failure
  | step ran _ ih =>
      have counted := steps_of_step_eq_ran ran
      omega

theorem StepsTo.length_lt_of_ends {start reached final : Machine}
    {events : List Event} {executed : Nat} {verdict : Verdict}
    (stepped : StepsTo start events reached)
    (running : reached.isHalted = false)
    (ended : Ends start executed verdict final) : events.length < executed := by
  induction stepped generalizing executed with
  | refl machine => exact ended.pos_of_running running
  | cons first _ ih =>
      cases ended with
      | halted halts =>
          rw [isHalted_of_step_eq_ran first] at halts
          contradiction
      | failed failure =>
          rw [first] at failure
          cases failure
      | step ran later =>
          rw [first] at ran
          cases ran
          exact Nat.succ_lt_succ (ih running later)

theorem ends_or_stepsTo (machine : Machine) (count : Nat) :
    (∃ executed verdict final, Ends machine executed verdict final ∧
        executed ≤ count) ∨
      ∃ events reached, StepsTo machine events reached ∧
        events.length = count ∧ reached.isHalted = false := by
  induction count generalizing machine with
  | zero =>
      cases halts : machine.isHalted with
      | true => exact .inl ⟨0, .halted, machine, .halted halts, Nat.le_refl 0⟩
      | false => exact .inr ⟨[], machine, .refl machine, rfl, halts⟩
  | succ count ih =>
      cases outcome : machine.step with
      | mk result middle =>
          cases result with
          | idle =>
              cases stepped_of_step outcome with
              | idle halts =>
                  exact .inl ⟨0, .halted, machine, .halted halts,
                    Nat.zero_le _⟩
          | failed fault event =>
              exact .inl ⟨1, .failed fault, middle, .failed outcome, by omega⟩
          | ran event =>
              rcases ih middle with ended | running
              · obtain ⟨executed, verdict, final, later, within⟩ := ended
                exact .inl ⟨executed + 1, verdict, final, .step outcome later,
                  by omega⟩
              · obtain ⟨events, reached, stepped, length, halts⟩ := running
                refine .inr ⟨event :: events, reached, .cons outcome stepped,
                  ?_, halts⟩
                rw [List.length_cons, length]

/-! ### Runs with fuel -/

/-- One unit of fuel is needed also when nothing is executed. -/
theorem proceed_of_ends {σ : Type} (watch : σ → Event → σ)
    {machine final : Machine} {executed fuel : Nat} {verdict : Verdict}
    (ended : Ends machine executed verdict final) (enough : executed ≤ fuel)
    (positive : 0 < fuel) (seen : σ) :
    (proceed watch fuel machine seen).verdict = verdict ∧
      (proceed watch fuel machine seen).machine = final := by
  induction ended generalizing fuel seen with
  | halted halts =>
      cases fuel with
      | zero => omega
      | succ fuel => simp [proceed, step_of_isHalted halts]
  | @failed machine final fault event failure =>
      cases fuel with
      | zero => omega
      | succ fuel => cases event <;> simp [proceed, failure]
  | @step machine middle final event executed verdict ran later ih =>
      cases fuel with
      | zero => omega
      | succ fuel =>
          simp only [proceed, ran]
          cases halts : middle.isHalted with
          | true =>
              cases later with
              | halted _ => exact ⟨rfl, rfl⟩
              | failed failure =>
                  rw [isHalted_of_step_eq_failed failure] at halts
                  contradiction
              | step again _ =>
                  rw [isHalted_of_step_eq_ran again] at halts
                  contradiction
          | false =>
              have more := later.pos_of_running halts
              exact ih (by omega) (by omega) (watch seen event)

theorem execute_of_ends {machine final : Machine} {executed fuel : Nat}
    {verdict : Verdict} (ended : Ends machine.rewind executed verdict final)
    (enough : executed ≤ fuel) (positive : 0 < fuel) :
    machine.execute fuel = (verdict, final) := by
  obtain ⟨sameVerdict, sameMachine⟩ :=
    proceed_of_ends (fun _ _ => ()) ended enough positive ()
  unfold execute executeWatched
  rw [← sameVerdict, ← sameMachine]

/-! ### Watchers -/

/-- The watcher has seen the events of the run and, when the failing step had carried
its instruction out, the event of that step. -/
inductive Watched {σ : Type} (watch : σ → Event → σ) (start : Machine)
    (seen : σ) : Run σ → Prop where
  | halted {events : List Event} {final : Machine}
      (stepped : StepsTo start events final) (halts : final.isHalted = true) :
      Watched watch start seen ⟨.halted, final, events.foldl watch seen⟩
  | failed {events : List Event} {reached final : Machine} {fault : Fault}
      {event : Option Event} (stepped : StepsTo start events reached)
      (failure : reached.step = (.failed fault event, final)) :
      Watched watch start seen
        ⟨.failed fault, final,
          event.toList.foldl watch (events.foldl watch seen)⟩

theorem Watched.after {σ : Type} {watch : σ → Event → σ}
    {start middle : Machine} {event : Event} {seen : σ} {run : Run σ}
    (ran : start.step = (.ran event, middle))
    (later : Watched watch middle (watch seen event) run) :
    Watched watch start seen run := by
  cases later with
  | halted stepped halts =>
      have halted : Watched watch start seen _ :=
        .halted (.cons ran stepped) halts
      exact halted
  | failed stepped failure =>
      have failed : Watched watch start seen _ :=
        .failed (.cons ran stepped) failure
      exact failed

theorem watched_proceed {σ : Type} (watch : σ → Event → σ) (fuel : Nat)
    (machine : Machine) (seen : σ)
    (ended : (proceed watch fuel machine seen).verdict ≠ .unfinished) :
    Watched watch machine seen (proceed watch fuel machine seen) := by
  induction fuel generalizing machine seen with
  | zero => exact absurd rfl ended
  | succ fuel ih =>
      cases outcome : machine.step with
      | mk result after =>
          cases result with
          | idle =>
              simp only [proceed, outcome]
              cases stepped_of_step outcome with
              | idle halts => exact .halted (.refl machine) halts
          | failed fault event =>
              have failed : Watched watch machine seen _ :=
                .failed (.refl machine) outcome
              cases event <;> simp only [proceed, outcome] <;> exact failed
          | ran event =>
              simp only [proceed, outcome] at ended ⊢
              cases halts : after.isHalted with
              | true =>
                  have halted : Watched watch machine seen _ :=
                    .halted (.cons outcome (.refl after)) halts
                  exact halted
              | false =>
                  rw [halts] at ended
                  exact (ih after (watch seen event) ended).after outcome

theorem proceed_view {σ τ : Type} (watch : σ → Event → σ)
    (other : τ → Event → τ) (view : σ → τ)
    (follows : ∀ seen event, view (watch seen event) = other (view seen) event)
    (fuel : Nat) (machine : Machine) (seen : σ) :
    proceed other fuel machine (view seen) =
      ⟨(proceed watch fuel machine seen).verdict,
        (proceed watch fuel machine seen).machine,
        view (proceed watch fuel machine seen).seen⟩ := by
  induction fuel generalizing machine seen with
  | zero => rfl
  | succ fuel ih =>
      cases outcome : machine.step with
      | mk result after =>
          cases result with
          | idle => simp only [proceed, outcome]
          | failed fault event =>
              cases event <;> simp only [proceed, outcome, follows]
          | ran event =>
              simp only [proceed, outcome, ← follows]
              cases after.isHalted with
              | true => rfl
              | false => exact ih after (watch seen event)

/-! ### Invariants of runs -/

section Invariants

variable {σ : Type} {invariant : Machine → Prop}

theorem proceed_invariant (watch : σ → Event → σ)
    (preserved : ∀ machine, invariant machine → invariant machine.step.2)
    (fuel : Nat) (machine : Machine) (seen : σ) (holds : invariant machine) :
    invariant (proceed watch fuel machine seen).machine := by
  induction fuel generalizing machine seen with
  | zero => exact holds
  | succ fuel ih =>
      have afterStep := preserved machine holds
      cases outcome : machine.step with
      | mk result after =>
          rw [outcome] at afterStep
          cases result with
          | idle => simpa [proceed, outcome] using afterStep
          | failed fault event =>
              cases event <;> simpa [proceed, outcome] using afterStep
          | ran event =>
              simp only [proceed, outcome]
              cases after.isHalted with
              | true => exact afterStep
              | false => exact ih after (watch seen event) afterStep

theorem StepsTo.preserves
    (preserved : ∀ machine, invariant machine → invariant machine.step.2)
    {start reached : Machine} {events : List Event}
    (stepped : StepsTo start events reached) (holds : invariant start) :
    invariant reached := by
  induction stepped with
  | refl machine => exact holds
  | cons first _ ih =>
      have afterStep := preserved _ holds
      rw [first] at afterStep
      exact ih afterStep

theorem exists_failed_step_of_proceed (watch : σ → Event → σ)
    (preserved : ∀ machine, invariant machine → invariant machine.step.2)
    (fuel : Nat) (machine : Machine) (seen : σ) (holds : invariant machine)
    {fault : Fault}
    (failed : (proceed watch fuel machine seen).verdict = .failed fault) :
    ∃ reached event after, invariant reached ∧
      reached.step = (.failed fault event, after) := by
  have ended : (proceed watch fuel machine seen).verdict ≠ .unfinished := by
    rw [failed]
    exact Verdict.noConfusion
  have watched := watched_proceed watch fuel machine seen ended
  generalize proceed watch fuel machine seen = run at failed watched
  cases watched with
  | halted _ _ => contradiction
  | @failed events reached final known event stepped failure =>
      cases failed
      exact ⟨reached, event, final, stepped.preserves preserved holds, failure⟩

end Invariants

end Machine
end RegisterMachine
