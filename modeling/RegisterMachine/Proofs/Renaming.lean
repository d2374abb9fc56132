/-
Renaming labels.

A renaming that keeps the names of a list of instructions apart is followed through
the building of a program and through the steps of a machine, up to the lookup of
each jump that is taken.
-/

import Mathlib.Data.Set.Function
import RegisterMachine.Machine.Snapshot
import RegisterMachine.Proofs.ProgramLabels
import RegisterMachine.Proofs.StepCases

namespace RegisterMachine

variable (f : String → String)

def Operation.rename : Operation → Operation
  | .jmp target => .jmp (f target)
  | .branch test source target => .branch test source (f target)
  | operation => operation

def Instruction.rename (instruction : Instruction) : Instruction :=
  ⟨instruction.label.map f, instruction.operation.rename f⟩

def Fault.rename : Fault → Fault
  | .duplicateLabel label existing => .duplicateLabel (f label) existing
  | .unknownLabel label => .unknownLabel (f label)
  | .execution address cause => .execution address cause.rename
  | fault => fault

def Event.rename (event : Event) : Event :=
  { event with instruction := event.instruction.rename f }

def StepResult.rename : StepResult → StepResult
  | .idle => .idle
  | .ran event => .ran (event.rename f)
  | .failed fault event => .failed (fault.rename f) (event.map (Event.rename f))

variable {f}

/-! ### Programs -/

namespace Program

/-- The names that occur among instructions, as labels or as jump targets. -/
def namesOf (instructions : List Instruction) : Set String :=
  {name | ∃ instruction ∈ instructions, instruction.label = some name ∨
    instruction.operation.target? = some name}

theorem mem_namesOf_of_mem_labelsOf {instructions : List Instruction}
    {name : String} (carried : name ∈ labelsOf instructions) :
    name ∈ namesOf instructions := by
  obtain ⟨instruction, member, label⟩ := List.mem_filterMap.mp carried
  exact ⟨instruction, member, .inl label⟩

section Rename

variable {program renamed : Program}

theorem labelAt?_rename
    (instructions : renamed.instructions =
      program.instructions.map (Instruction.rename f)) (address : Nat) :
    renamed.labelAt? address = (program.labelAt? address).map f := by
  unfold labelAt?
  rw [instructions, Array.getElem?_map]
  cases program.instructions[address]? <;> rfl

theorem WellLabelled.get?_rename (labelled : program.WellLabelled)
    (renamedLabelled : renamed.WellLabelled)
    (instructions : renamed.instructions =
      program.instructions.map (Instruction.rename f)) {name : String}
    (apart : ∀ other ∈ labelsOf program.instructions.toList,
      f other = f name → other = name) :
    renamed.labels.get? (f name) = program.labels.get? name := by
  apply Option.ext
  intro address
  rw [renamedLabelled (f name) address, labelled name address,
    labelAt?_rename instructions, Option.map_eq_some_iff]
  constructor
  · intro parts
    obtain ⟨other, atAddress, same⟩ := parts
    have carried : other ∈ labelsOf program.instructions.toList := by
      by_contra absent
      have free := (labelled.get?_eq_none_iff other).mpr absent
      rw [(labelled other address).mpr atAddress] at free
      contradiction
    rw [atAddress, apart other carried same]
  · intro atAddress
    exact ⟨name, atAddress, rfl⟩

/-- A refused instruction is refused at the same place, for the renamed label. -/
theorem pushAll_rename (labelled : program.WellLabelled)
    (renamedLabelled : renamed.WellLabelled)
    (instructions : renamed.instructions =
      program.instructions.map (Instruction.rename f))
    (rest : List Instruction)
    (injective : Set.InjOn f
      {name | name ∈ labelsOf (program.instructions.toList ++ rest)}) :
    ((∃ final, program.pushAll rest = .ok final) ∧
        ∃ final, renamed.pushAll (rest.map (Instruction.rename f)) =
          .ok final) ∨
      ∃ label existing,
        program.pushAll rest = .error (.duplicateLabel label existing) ∧
          renamed.pushAll (rest.map (Instruction.rename f)) =
            .error (.duplicateLabel (f label) existing) := by
  induction rest generalizing program renamed with
  | nil => exact .inl ⟨⟨program, rfl⟩, renamed, rfl⟩
  | cons instruction rest ih =>
      have lookup {label : String} (carried : instruction.label = some label) :
          renamed.labels.get? (f label) = program.labels.get? label := by
        apply labelled.get?_rename renamedLabelled instructions
        intro other member same
        refine injective ?_ ?_ same
        · rw [labelsOf, List.filterMap_append]
          exact List.mem_append_left _ member
        · rw [labelsOf, List.filterMap_append, List.filterMap_cons_some carried]
          exact List.mem_append_right _ List.mem_cons_self
      rw [List.map_cons]
      cases pushed : program.push instruction with
      | error fault =>
          obtain ⟨label, existing, carried, taken, rfl⟩ :=
            (push_eq_error_iff program instruction fault).mp pushed
          have refused : renamed.push (instruction.rename f) =
              .error (.duplicateLabel (f label) existing) := by
            refine (push_eq_error_iff renamed _ _).mpr
              ⟨f label, existing, ?_, (lookup carried).trans taken, rfl⟩
            rw [Instruction.rename, carried]
            rfl
          exact .inr ⟨label, existing, pushAll_cons_of_error pushed rest,
            pushAll_cons_of_error refused _⟩
      | ok result =>
          obtain ⟨address, extended⟩ := result
          have free := (push_isOk_iff program instruction).mp ⟨_, pushed⟩
          have freeToo : ∀ name, (instruction.rename f).label = some name →
              renamed.labels.get? name = none := by
            intro name carried
            obtain ⟨label, original, rfl⟩ := Option.map_eq_some_iff.mp carried
            exact (lookup original).trans (free label original)
          obtain ⟨⟨_, extendedToo⟩, accepted⟩ :=
            (push_isOk_iff renamed (instruction.rename f)).mpr freeToo
          have instructionsToo : extendedToo.instructions =
              extended.instructions.map (Instruction.rename f) := by
            rw [instructions_of_push accepted, instructions_of_push pushed,
              instructions, Array.map_push]
          have appended : extended.instructions.toList ++ rest =
              program.instructions.toList ++ instruction :: rest := by
            rw [instructions_of_push pushed]
            simp
          rw [pushAll_cons_of_ok pushed, pushAll_cons_of_ok accepted]
          apply ih (labelled.push pushed) (renamedLabelled.push accepted)
            instructionsToo
          rw [appended]
          exact injective

end Rename

theorem ofList_rename (instructions : List Instruction)
    (injective : Set.InjOn f (namesOf instructions)) :
    ((∃ program, ofList instructions = .ok program) ∧
        ∃ program, ofList (instructions.map (Instruction.rename f)) =
          .ok program) ∨
      ∃ label existing,
        ofList instructions = .error (.duplicateLabel label existing) ∧
          ofList (instructions.map (Instruction.rename f)) =
            .error (.duplicateLabel (f label) existing) := by
  apply pushAll_rename wellLabelled_empty wellLabelled_empty Array.map_empty.symm
  intro name carried other otherCarried same
  exact injective (mem_namesOf_of_mem_labelsOf carried)
    (mem_namesOf_of_mem_labelsOf otherCarried) same

end Program

/-! ### Machines -/

namespace Machine

def renamed (machine : Machine) (f : String → String) (table : LabelTable) :
    Machine :=
  { machine with
    labels := table
    program := machine.program.map (Instruction.rename f) }

/-- The tables bind the new targets as the old ones. -/
def LooksUpAlike (machine : Machine) (f : String → String)
    (table : LabelTable) : Prop :=
  ∀ instruction ∈ machine.program, ∀ target,
    instruction.operation.target? = some target →
      table.get? (f target) = machine.labels.get? target

section Step

variable {machine after : Machine} {table : LabelTable}

theorem takesJump_rename {registers : RegisterFile} {operation : Operation}
    {target : String} (taken : operation.TakesJump registers target) :
    (operation.rename f).TakesJump registers (f target) := by
  cases taken with
  | always => exact .always
  | nonzero tested => exact .nonzero tested
  | zero tested => exact .zero tested

theorem Performed.renamed {operation : Operation}
    {outcome : Except Fault Directive}
    (performed : Performed machine operation outcome after)
    (lookup : ∀ target, operation.target? = some target →
      table.get? (f target) = machine.labels.get? target) :
    Performed (machine.renamed f table) (operation.rename f)
      (outcome.mapError (Fault.rename f)) (after.renamed f table) := by
  cases performed with
  | computed computes => exact .computed computes
  | dividedByZero zero => exact .dividedByZero zero
  | loaded => exact .loaded
  | emitted silent => exact .emitted silent
  | echoed attached takes => exact .echoed attached takes
  | refused attached refuses => exact .refused attached refuses
  | @unbound _ target taken free =>
      have same := lookup target (target?_of_takesJump taken)
      exact .unbound (takesJump_rename taken) (same.trans free)
  | @jumped _ target address taken bound =>
      have same := lookup target (target?_of_takesJump taken)
      exact .jumped (takesJump_rename taken) (same.trans bound)
  | passed untaken => exact .passed untaken

theorem isHalted_renamed : (machine.renamed f table).isHalted =
    machine.isHalted := by
  unfold isHalted renamed
  rw [Array.size_map]

theorem advance_renamed (address : Nat) (instruction : Instruction)
    (directive : Directive) :
    (after.renamed f table).advance address (instruction.rename f) directive =
      ((after.advance address instruction directive).1.rename f,
        (after.advance address instruction directive).2.renamed f table) := by
  have sameSize : (after.renamed f table).program.size = after.program.size :=
    Array.size_map
  cases directive with
  | next => rfl
  | jump target =>
      rw [advance, advance, sameSize]
      by_cases inside : target ≤ after.program.size
      · rw [if_pos inside, if_pos inside]
        rfl
      · rw [if_neg inside, if_neg inside]
        rfl

theorem step_renamed (lookup : machine.LooksUpAlike f table) :
    (machine.renamed f table).step =
      (machine.step.1.rename f, machine.step.2.renamed f table) := by
  have sameFetch : (machine.renamed f table).program[machine.counter]? =
      machine.program[machine.counter]?.map (Instruction.rename f) :=
    Array.getElem?_map
  cases fetched : machine.program[machine.counter]? with
  | none =>
      rw [fetched] at sameFetch
      have halted : machine.isHalted = true := by
        simpa [isHalted] using Array.getElem?_eq_none_iff.mp fetched
      rw [step_of_isHalted halted,
        step_of_isHalted (isHalted_renamed.trans halted)]
      rfl
  | some instruction =>
      rw [fetched] at sameFetch
      have member := Array.mem_of_getElem? fetched
      cases check : machine.checkStep with
      | error fault =>
          have sameCheck : (machine.renamed f table).checkStep =
            .error fault := check
          rw [step_of_refused fetched check,
            step_of_refused sameFetch sameCheck]
          rcases checkStep_cases machine with allowed | refused
          · rw [check] at allowed
            contradiction
          · obtain ⟨limits, _, _, cause⟩ := refused
            rw [check] at cause
            cases cause
            rfl
      | ok allowed =>
          have sameCheck : (machine.renamed f table).checkStep =
            .ok () := check
          cases performs : machine.perform instruction.operation with
          | mk outcome after =>
              have performed := (performed_of_perform performs).renamed
                (lookup instruction member)
              have performsToo := perform_of_performed performed
              cases outcome with
              | error fault =>
                  rw [step_of_error fetched check performs,
                    step_of_error sameFetch sameCheck performsToo]
                  rfl
              | ok directive =>
                  rw [step_of_ok fetched check performs,
                    step_of_ok sameFetch sameCheck performsToo]
                  exact advance_renamed machine.counter instruction directive

theorem more_renamed (result : StepResult) :
    (result.rename f).more (after.renamed f table) =
      (result.more after).mapError (Fault.rename f) := by
  cases result with
  | idle => rfl
  | failed fault event => rfl
  | ran event =>
      simp only [StepResult.rename, StepResult.more, isHalted_renamed]
      rfl

end Step

/-! ### Any number of steps -/

def afterSteps : Nat → Machine → Machine
  | 0, machine => machine
  | count + 1, machine => afterSteps count machine.step.2

section Steps

variable {machine : Machine} {table : LabelTable}

theorem LooksUpAlike.step (lookup : machine.LooksUpAlike f table) :
    machine.step.2.LooksUpAlike f table := by
  have same := sameSetup_step machine
  unfold LooksUpAlike
  rw [same.program, same.labels]
  exact lookup

theorem LooksUpAlike.afterSteps (lookup : machine.LooksUpAlike f table)
    (count : Nat) : (machine.afterSteps count).LooksUpAlike f table := by
  induction count generalizing machine with
  | zero => exact lookup
  | succ count ih => exact ih lookup.step

theorem afterSteps_renamed (lookup : machine.LooksUpAlike f table)
    (count : Nat) :
    (machine.renamed f table).afterSteps count =
      (machine.afterSteps count).renamed f table := by
  induction count generalizing machine with
  | zero => rfl
  | succ count ih =>
      rw [Machine.afterSteps, Machine.afterSteps, step_renamed lookup]
      exact ih lookup.step

end Steps

/-! ### Machines of renamed programs -/

section Programs

variable {program other : Program} {instructions : List Instruction}

theorem instructions_of_ofList_rename
    (success : Program.ofList instructions = .ok program)
    (otherSuccess : Program.ofList (instructions.map (Instruction.rename f)) =
      .ok other) :
    other.instructions = program.instructions.map (Instruction.rename f) := by
  rw [((Program.ofList_eq_ok_iff _ other).mp otherSuccess).1,
    ((Program.ofList_eq_ok_iff _ program).mp success).1, List.map_toArray]

/-- Here the targets count as names too: the new name of an unbound target must
not be the new name of a label. -/
theorem looksUpAlike_of_ofList
    (injective : Set.InjOn f (Program.namesOf instructions))
    (success : Program.ofList instructions = .ok program)
    (otherSuccess : Program.ofList (instructions.map (Instruction.rename f)) =
      .ok other) {machine : Machine} (labels : machine.labels = program.labels)
    (held : machine.program = program.instructions) :
    machine.LooksUpAlike f other.labels := by
  obtain ⟨same, labelled⟩ := (Program.ofList_eq_ok_iff _ program).mp success
  have otherLabelled :=
    ((Program.ofList_eq_ok_iff _ other).mp otherSuccess).2
  intro instruction member target jumps
  rw [labels]
  apply labelled.get?_rename otherLabelled
    (instructions_of_ofList_rename success otherSuccess)
  intro name carried equal
  rw [held, same, List.mem_toArray] at member
  rw [same] at carried
  exact injective (Program.mem_namesOf_of_mem_labelsOf carried)
    ⟨instruction, member, .inr jumps⟩ equal

end Programs

/-- Two machines in the same state, whose next step returns the same but for the name
of a label that cannot be looked up. -/
structure AlikeButNames (f : String → String) (given other : Machine) :
    Prop where
  state : other.snapshot = given.snapshot
  echo : other.echo = given.echo
  result : other.step.1.more other.step.2 =
    (given.step.1.more given.step.2).mapError (Fault.rename f)

theorem alikeButNames_renamed {machine : Machine} {table : LabelTable}
    (lookup : machine.LooksUpAlike f table) :
    AlikeButNames f machine (machine.renamed f table) := by
  refine ⟨rfl, rfl, ?_⟩
  rw [step_renamed lookup]
  exact more_renamed _

end Machine

/-- A renaming that keeps the names of some instructions apart changes nothing but the
names.  The renamed instructions form a program exactly when the given ones do, and
the machines of both programs, with any limits, any sink and any registers, are
alike but for the names after any number of steps. -/
theorem runs_alike_of_injOn (instructions : List Instruction)
    (injective : Set.InjOn f (Program.namesOf instructions)) :
    ((∃ program, Program.ofList (instructions.map (Instruction.rename f)) =
          .ok program) ↔
        ∃ program, Program.ofList instructions = .ok program) ∧
      (∀ fault, Program.ofList instructions = .error fault →
        ∃ label existing, fault = .duplicateLabel label existing ∧
          Program.ofList (instructions.map (Instruction.rename f)) =
            .error (.duplicateLabel (f label) existing)) ∧
      ∀ program other, Program.ofList instructions = .ok program →
        Program.ofList (instructions.map (Instruction.rename f)) = .ok other →
          ∀ (limits : Option Limits) (echo : Option Sink)
              (registers : RegisterFile) (count : Nat),
            Machine.AlikeButNames f
              (Machine.afterSteps count
                { Machine.ofProgram program with
                  limits := limits, echo := echo, registers := registers })
              (Machine.afterSteps count
                { Machine.ofProgram other with
                  limits := limits, echo := echo, registers := registers }) := by
  have outcome := Program.ofList_rename instructions injective
  refine ⟨?_, ?_, ?_⟩
  · rcases outcome with both | neither
    · exact ⟨fun _ => both.1, fun _ => both.2⟩
    · obtain ⟨label, existing, refused, otherRefused⟩ := neither
      rw [refused, otherRefused]
      simp
  · intro fault failed
    rcases outcome with both | neither
    · obtain ⟨program, success⟩ := both.1
      rw [failed] at success
      contradiction
    · obtain ⟨label, existing, refused, otherRefused⟩ := neither
      rw [failed] at refused
      exact ⟨label, existing, Except.error.inj refused, otherRefused⟩
  · intro program other success otherSuccess limits echo registers count
    have lookup : Machine.LooksUpAlike
        { Machine.ofProgram program with
          limits := limits, echo := echo, registers := registers } f
        other.labels :=
      Machine.looksUpAlike_of_ofList injective success otherSuccess rfl rfl
    have start : { Machine.ofProgram other with
          limits := limits, echo := echo, registers := registers } =
        Machine.renamed { Machine.ofProgram program with
          limits := limits, echo := echo, registers := registers } f
          other.labels := by
      unfold Machine.renamed Machine.ofProgram Machine.ofParts
      rw [Machine.instructions_of_ofList_rename success otherSuccess]
    rw [start, Machine.afterSteps_renamed lookup]
    exact Machine.alikeButNames_renamed (lookup.afterSteps count)

theorem runs_alike_of_injOn_of_unbound :
    ∃ (f : String → String) (program other : Program),
      Set.InjOn f (Program.namesOf
          [⟨some "a", .mov .eax 1⟩, ⟨none, .branch .nonzero .eax "b"⟩]) ∧
        f "a" = "b" ∧ f "b" = "" ∧
        Program.ofList
          [⟨some "a", .mov .eax 1⟩, ⟨none, .branch .nonzero .eax "b"⟩] =
            .ok program ∧
        Program.ofList
          [⟨some "b", .mov .eax 1⟩, ⟨none, .branch .nonzero .eax ""⟩] =
            .ok other ∧
        Machine.AlikeButNames f
          (Machine.afterSteps 1 (Machine.ofProgram program))
          (Machine.afterSteps 1 (Machine.ofProgram other)) := by
  have injective : Set.InjOn (fun name => if name = "a" then "b" else "")
      (Program.namesOf
        [⟨some "a", .mov .eax 1⟩, ⟨none, .branch .nonzero .eax "b"⟩]) := by
    have two : ∀ name ∈ Program.namesOf
        [⟨some "a", .mov .eax 1⟩, ⟨none, .branch .nonzero .eax "b"⟩],
        name = "a" ∨ name = "b" := by
      intro name occurs
      simpa [Program.namesOf, Operation.target?, eq_comm] using occurs
    intro name occurs other otherOccurs same
    rcases two name occurs with rfl | rfl <;>
      rcases two other otherOccurs with rfl | rfl <;> simp at same ⊢
  obtain ⟨_, _, alike⟩ := runs_alike_of_injOn _ injective
  exact ⟨_, _, _, injective, rfl, rfl, rfl, rfl,
    alike _ _ rfl rfl none none .zero 1⟩

end RegisterMachine
