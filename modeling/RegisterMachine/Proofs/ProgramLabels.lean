/-
Programs and the labels of their instructions.

A program that was built by appending binds a name to an address exactly when the
instruction at that address carries the name as its label.  This decides which
lists of instructions form a program.
-/

import Mathlib.Data.List.Nodup
import RegisterMachine.Program

namespace RegisterMachine
namespace Program

/-! ### The correspondence -/

def labelAt? (program : Program) (address : Nat) : Option String :=
  program.instructions[address]?.bind Instruction.label

/-- The table binds exactly the labels of the instructions, each to the
address of the instruction that carries it. -/
def WellLabelled (program : Program) : Prop :=
  ∀ name address,
    program.labels.get? name = some address ↔
      program.labelAt? address = some name

def labelsOf (instructions : List Instruction) : List String :=
  instructions.filterMap Instruction.label

theorem WellLabelled.lt_size {program : Program}
    (labelled : program.WellLabelled) {name : String} {address : Nat}
    (bound : program.labels.get? name = some address) :
    address < program.size := by
  have atAddress := (labelled name address).mp bound
  unfold labelAt? at atAddress
  by_cases inside : address < program.instructions.size
  · exact inside
  · rw [Array.getElem?_eq_none (Nat.le_of_not_lt inside)] at atAddress
    contradiction

theorem WellLabelled.get?_eq_none_iff {program : Program}
    (labelled : program.WellLabelled) (name : String) :
    program.labels.get? name = none ↔
      name ∉ labelsOf program.instructions.toList := by
  rw [Option.eq_none_iff_forall_ne_some, labelsOf, List.mem_filterMap]
  constructor
  · intro free carried
    obtain ⟨instruction, member, label⟩ := carried
    obtain ⟨address, inside, equality⟩ := List.getElem_of_mem member
    refine free address ((labelled name address).mpr ?_)
    rw [labelAt?, ← Array.getElem?_toList, List.getElem?_eq_getElem inside,
      equality]
    exact label
  · intro absent address bound
    have atAddress := (labelled name address).mp bound
    rw [labelAt?, Option.bind_eq_some_iff] at atAddress
    obtain ⟨instruction, present, label⟩ := atAddress
    refine absent ⟨instruction, ?_, label⟩
    rw [← Array.getElem?_toList] at present
    exact List.mem_of_getElem? present

theorem WellLabelled.nodup {program : Program}
    (labelled : program.WellLabelled) :
    (labelsOf program.instructions.toList).Nodup := by
  have bound (address : Nat) (inside : address < program.instructions.toList.length)
      (name : String)
      (label : program.instructions.toList[address].label = some name) :
      program.labels.get? name = some address := by
    refine (labelled name address).mpr ?_
    rw [labelAt?, ← Array.getElem?_toList, List.getElem?_eq_getElem inside]
    exact label
  rw [labelsOf, List.Nodup, List.pairwise_filterMap, List.pairwise_iff_getElem]
  intro first second firstInside secondInside before name firstLabel other
    secondLabel equality
  subst equality
  have firstBound := bound first firstInside name firstLabel
  rw [bound second secondInside name secondLabel] at firstBound
  have same : second = first := Option.some.inj firstBound
  omega

theorem WellLabelled.ext {left right : Program}
    (leftLabelled : left.WellLabelled) (rightLabelled : right.WellLabelled)
    (equality : left.instructions = right.instructions) : left = right := by
  have sameLabels : ∀ address, left.labelAt? address = right.labelAt? address := by
    intro address
    rw [labelAt?, labelAt?, equality]
  have sameTables : left.labels = right.labels := by
    apply LabelTable.ext_get?
    intro name
    apply Option.ext
    intro address
    rw [leftLabelled name address, rightLabelled name address,
      sameLabels address]
  cases left
  cases right
  cases equality
  cases sameTables
  rfl

/-! ### Appending one instruction -/

theorem wellLabelled_empty : WellLabelled empty := by
  intro name address
  simp [empty, labelAt?]

theorem push_isOk_iff (program : Program) (instruction : Instruction) :
    (∃ result, program.push instruction = .ok result) ↔
      ∀ name, instruction.label = some name →
        program.labels.get? name = none := by
  unfold push bindLabel
  cases instruction.label with
  | none => simp
  | some label =>
      cases lookup : program.labels.get? label <;>
        simp [LabelTable.bind, lookup]

theorem push_eq_error_iff (program : Program) (instruction : Instruction)
    (fault : Fault) :
    program.push instruction = .error fault ↔
      ∃ label existing, instruction.label = some label ∧
        program.labels.get? label = some existing ∧
          fault = .duplicateLabel label existing := by
  unfold push bindLabel
  cases instruction.label with
  | none => simp
  | some label =>
      cases taken : program.labels.get? label with
      | none => simp [LabelTable.bind, taken]
      | some existing => simp [LabelTable.bind, taken, eq_comm]

theorem instructions_of_push {program extended : Program}
    {instruction : Instruction} {address : Nat}
    (success : program.push instruction = .ok (address, extended)) :
    extended.instructions = program.instructions.push instruction := by
  unfold push at success
  cases bound : program.bindLabel instruction.label with
  | error fault => simp [bound] at success
  | ok labels =>
      simp only [bound, Except.ok.injEq, Prod.mk.injEq] at success
      rw [← success.2]

theorem address_of_push {program extended : Program}
    {instruction : Instruction} {address : Nat}
    (success : program.push instruction = .ok (address, extended)) :
    address = program.size := by
  unfold push at success
  cases bound : program.bindLabel instruction.label with
  | error fault => simp [bound] at success
  | ok labels =>
      simp only [bound, Except.ok.injEq, Prod.mk.injEq] at success
      exact success.1.symm

theorem get?_of_push {program extended : Program}
    {instruction : Instruction} {address : Nat}
    (success : program.push instruction = .ok (address, extended))
    (name : String) :
    extended.labels.get? name =
      if instruction.label = some name then some program.size
      else program.labels.get? name := by
  unfold push bindLabel at success
  cases label : instruction.label with
  | none =>
      simp only [label, Except.ok.injEq, Prod.mk.injEq] at success
      rw [← success.2]
      simp
  | some carried =>
      simp only [label] at success
      cases bound : program.labels.bind carried program.size with
      | error fault => simp [bound] at success
      | ok labels =>
          simp only [bound, Except.ok.injEq, Prod.mk.injEq] at success
          rw [← success.2, LabelTable.get?_of_bind bound name]
          simp

theorem labelAt?_of_push {program extended : Program}
    {instruction : Instruction} {address : Nat}
    (success : program.push instruction = .ok (address, extended))
    (other : Nat) :
    extended.labelAt? other =
      if other = program.size then instruction.label
      else program.labelAt? other := by
  unfold labelAt?
  rw [instructions_of_push success, Array.getElem?_push]
  by_cases atEnd : other = program.size
  · subst atEnd
    simp [size]
  · have notSize : other ≠ program.instructions.size := atEnd
    rw [if_neg atEnd, if_neg notSize]

/-- The label of an accepted instruction was free, so it moves no bound name. -/
theorem WellLabelled.push {program extended : Program}
    {instruction : Instruction} {address : Nat}
    (labelled : program.WellLabelled)
    (success : program.push instruction = .ok (address, extended)) :
    extended.WellLabelled := by
  have free := (push_isOk_iff program instruction).mp ⟨_, success⟩
  intro name other
  rw [get?_of_push success name, labelAt?_of_push success other]
  by_cases carried : instruction.label = some name
  · rw [if_pos carried]
    by_cases atEnd : other = program.size
    · subst atEnd
      simp [carried]
    · rw [if_neg atEnd]
      constructor
      · intro equality
        exact absurd (Option.some.inj equality).symm atEnd
      · intro atOther
        have bound := (labelled name other).mpr atOther
        rw [free name carried] at bound
        contradiction
  · rw [if_neg carried]
    by_cases atEnd : other = program.size
    · rw [if_pos atEnd]
      constructor
      · intro bound
        have inside := labelled.lt_size bound
        omega
      · intro equality
        exact absurd equality carried
    · rw [if_neg atEnd]
      exact labelled name other

/-! ### Appending a list -/

def pushAll (program : Program) (instructions : List Instruction) :
    Except Fault Program :=
  instructions.foldlM
    (fun current instruction => Prod.snd <$> current.push instruction) program

theorem ofList_eq_pushAll (instructions : List Instruction) :
    ofList instructions = empty.pushAll instructions := rfl

@[simp] theorem pushAll_nil (program : Program) :
    program.pushAll [] = .ok program := rfl

theorem pushAll_cons_of_ok {program extended : Program}
    {instruction : Instruction} {address : Nat}
    (success : program.push instruction = .ok (address, extended))
    (rest : List Instruction) :
    program.pushAll (instruction :: rest) = extended.pushAll rest := by
  unfold pushAll
  rw [List.foldlM_cons, success]
  rfl

theorem pushAll_cons_of_error {program : Program} {instruction : Instruction}
    {fault : Fault} (failure : program.push instruction = .error fault)
    (rest : List Instruction) :
    program.pushAll (instruction :: rest) = .error fault := by
  unfold pushAll
  rw [List.foldlM_cons, failure]
  rfl

theorem instructions_of_pushAll {program final : Program}
    {instructions : List Instruction}
    (success : program.pushAll instructions = .ok final) :
    final.instructions = program.instructions ++ instructions.toArray := by
  induction instructions generalizing program with
  | nil =>
      rw [pushAll_nil] at success
      cases success
      simp
  | cons instruction rest ih =>
      cases pushed : program.push instruction with
      | error fault =>
          rw [pushAll_cons_of_error pushed] at success
          contradiction
      | ok result =>
          obtain ⟨address, extended⟩ := result
          rw [pushAll_cons_of_ok pushed] at success
          rw [ih success, instructions_of_push pushed]
          simp

theorem size_of_pushAll {program final : Program}
    {instructions : List Instruction}
    (success : program.pushAll instructions = .ok final) :
    final.size = program.size + instructions.length := by
  unfold size
  rw [instructions_of_pushAll success]
  simp

theorem WellLabelled.pushAll {program final : Program}
    {instructions : List Instruction} (labelled : program.WellLabelled)
    (success : program.pushAll instructions = .ok final) :
    final.WellLabelled := by
  induction instructions generalizing program with
  | nil =>
      rw [pushAll_nil] at success
      cases success
      exact labelled
  | cons instruction rest ih =>
      cases pushed : program.push instruction with
      | error fault =>
          rw [pushAll_cons_of_error pushed] at success
          contradiction
      | ok result =>
          obtain ⟨address, extended⟩ := result
          rw [pushAll_cons_of_ok pushed] at success
          exact ih (labelled.push pushed) success

/-- A list is accepted exactly when its labels are distinct from each other and
from those already carried. -/
theorem WellLabelled.pushAll_isOk_iff {program : Program}
    (labelled : program.WellLabelled) (instructions : List Instruction) :
    (∃ final, program.pushAll instructions = .ok final) ↔
      (labelsOf (program.instructions.toList ++ instructions)).Nodup := by
  induction instructions generalizing program with
  | nil => simpa using labelled.nodup
  | cons instruction rest ih =>
      cases pushed : program.push instruction with
      | ok result =>
          obtain ⟨address, extended⟩ := result
          have appended : extended.instructions.toList ++ rest =
              program.instructions.toList ++ instruction :: rest := by
            rw [instructions_of_push pushed]
            simp
          rw [pushAll_cons_of_ok pushed, ih (labelled.push pushed), appended]
      | error fault =>
          rw [pushAll_cons_of_error pushed]
          have refused :
              ¬ ∃ result, program.push instruction = .ok result := by
            intro parts
            obtain ⟨result, success⟩ := parts
            rw [pushed] at success
            contradiction
          rw [push_isOk_iff] at refused
          push Not at refused
          obtain ⟨name, carried, bound⟩ := refused
          have present : name ∈ labelsOf program.instructions.toList := by
            by_contra absent
            exact bound ((labelled.get?_eq_none_iff name).mpr absent)
          constructor
          · intro parts
            obtain ⟨final, impossible⟩ := parts
            contradiction
          · intro distinct
            rw [labelsOf, List.filterMap_append, List.filterMap_cons_some carried,
              List.nodup_append] at distinct
            exact absurd rfl (distinct.2.2 name present name List.mem_cons_self)

theorem ofList_eq_ok_iff (instructions : List Instruction) (program : Program) :
    ofList instructions = .ok program ↔
      program.instructions = instructions.toArray ∧ program.WellLabelled := by
  rw [ofList_eq_pushAll]
  constructor
  · intro success
    refine ⟨?_, wellLabelled_empty.pushAll success⟩
    rw [instructions_of_pushAll success]
    simp [empty]
  · intro parts
    obtain ⟨equality, labelled⟩ := parts
    have distinct := labelled.nodup
    rw [equality] at distinct
    obtain ⟨final, success⟩ :=
      (wellLabelled_empty.pushAll_isOk_iff instructions).mpr
        (by simpa [empty] using distinct)
    have same : final = program := by
      refine (wellLabelled_empty.pushAll success).ext labelled ?_
      rw [instructions_of_pushAll success, equality]
      simp [empty]
    rw [success, same]

theorem ofList_isOk_iff (instructions : List Instruction) :
    (∃ program, ofList instructions = .ok program) ↔
      (labelsOf instructions).Nodup := by
  have accepted := wellLabelled_empty.pushAll_isOk_iff instructions
  have nothingBefore :
      empty.instructions.toList ++ instructions = instructions := rfl
  rw [nothingBefore] at accepted
  exact accepted

end Program
end RegisterMachine
