/-
Runs: steps repeated until the machine halts or fails.

A run need not end, so it is given fuel.  Its watcher folds the events of the run
into a value of its own and cannot influence it.
-/

import RegisterMachine.Machine.Step

namespace RegisterMachine

inductive Verdict where
  | halted
  | failed (fault : Fault)
  | unfinished
deriving DecidableEq

/-- `seen` is what the watcher made of the events. -/
structure Run (σ : Type) where
  verdict : Verdict
  machine : Machine
  seen : σ

namespace Machine

def proceed {σ : Type} (watch : σ → Event → σ) :
    (fuel : Nat) → Machine → σ → Run σ
  | 0, machine, seen => ⟨.unfinished, machine, seen⟩
  | fuel + 1, machine, seen =>
      match machine.step with
      | (.idle, after) => ⟨.halted, after, seen⟩
      | (.ran event, after) =>
          if after.isHalted then ⟨.halted, after, watch seen event⟩
          else proceed watch fuel after (watch seen event)
      | (.failed fault none, after) => ⟨.failed fault, after, seen⟩
      | (.failed fault (some event), after) =>
          ⟨.failed fault, after, watch seen event⟩

/-- The registers stay as they are. -/
def executeWatched {σ : Type} (watch : σ → Event → σ) (fuel : Nat)
    (machine : Machine) (seen : σ) : Run σ :=
  proceed watch fuel machine.rewind seen

def execute (fuel : Nat) (machine : Machine) : Verdict × Machine :=
  let run := executeWatched (fun _ _ => ()) fuel machine ()
  (run.verdict, run.machine)

/-- Returns how many steps left the machine running, and the fault that stopped it. -/
def stepMany : Nat → Machine → (count : Nat) → (Nat × Option Fault) × Machine
  | 0, machine, count => ((count, none), machine)
  | budget + 1, machine, count =>
      match machine.step with
      | (.idle, after) => ((count, none), after)
      | (.ran _, after) =>
          if after.isHalted then ((count, none), after)
          else stepMany budget after (count + 1)
      | (.failed fault _, after) => ((count, some fault), after)

end Machine
end RegisterMachine
