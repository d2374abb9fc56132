/-
Building a program push by push.

A push works in place here, and a refused instruction is skipped.  What one push
preserves is the correspondence of labels and instructions.
-/

import RegisterMachine.Proofs.ProgramLabels

namespace RegisterMachine

namespace Program

/-! ### Pushes in place -/

/-- The program after pushes from left to right, refused ones skipped. -/
def offerAll (program : Program) (instructions : List Instruction) : Program :=
  instructions.foldl (fun current instruction => (current.offer instruction).2)
    program

def answers (program : Program) : List Instruction → List (Except Fault Nat)
  | [] => []
  | instruction :: rest =>
      (program.offer instruction).1 ::
        (program.offer instruction).2.answers rest

def refusal? : Except Fault Nat → Option Fault
  | .error fault => some fault
  | .ok _ => none

theorem offer_cases (program : Program) (instruction : Instruction) :
    (∃ fault, program.push instruction = .error fault ∧
        program.offer instruction = (.error fault, program)) ∨
      ∃ extended, program.push instruction = .ok (program.size, extended) ∧
        program.offer instruction = (.ok program.size, extended) := by
  rw [offer_eq]
  cases pushed : program.push instruction with
  | error fault => exact .inl ⟨fault, rfl, rfl⟩
  | ok result =>
      obtain ⟨address, extended⟩ := result
      have place := address_of_push pushed
      subst place
      exact .inr ⟨extended, rfl, rfl⟩

/-! ### One push -/

section Push

variable {program : Program}

theorem WellLabelled.offer (labelled : program.WellLabelled)
    (instruction : Instruction) :
    (program.offer instruction).2.WellLabelled := by
  rcases program.offer_cases instruction with refused | accepted
  · obtain ⟨fault, _, offered⟩ := refused
    rw [offered]
    exact labelled
  · obtain ⟨extended, pushed, offered⟩ := accepted
    rw [offered]
    exact labelled.push pushed

theorem WellLabelled.offer_eq_error_iff (labelled : program.WellLabelled)
    (instruction : Instruction) (fault : Fault) :
    (program.offer instruction).1 = .error fault ↔
      ∃ label existing, instruction.label = some label ∧
        program.labelAt? existing = some label ∧
          fault = .duplicateLabel label existing := by
  have refused := push_eq_error_iff program instruction fault
  simp only [labelled _ _] at refused
  rw [← refused]
  rcases program.offer_cases instruction with refused | accepted
  · obtain ⟨known, pushed, offered⟩ := refused
    simp [pushed, offered]
  · obtain ⟨extended, pushed, offered⟩ := accepted
    simp [pushed, offered]

theorem offer_eq_ok {instruction : Instruction} {address : Nat}
    (answered : (program.offer instruction).1 = .ok address) :
    address = program.size ∧ (program.offer instruction).2.instructions =
      program.instructions.push instruction := by
  rcases program.offer_cases instruction with refused | accepted
  · obtain ⟨fault, _, offered⟩ := refused
    rw [offered] at answered
    contradiction
  · obtain ⟨extended, pushed, offered⟩ := accepted
    rw [offered] at answered ⊢
    cases answered
    exact ⟨rfl, instructions_of_push pushed⟩

theorem offer_eq_error {instruction : Instruction} {fault : Fault}
    (answered : (program.offer instruction).1 = .error fault) :
    (program.offer instruction).2 = program := by
  rcases program.offer_cases instruction with refused | accepted
  · obtain ⟨known, _, offered⟩ := refused
    rw [offered]
  · obtain ⟨extended, _, offered⟩ := accepted
    rw [offered] at answered
    contradiction

end Push

/-! ### Lists of pushes -/

def sharesLabel (first later : Instruction) : Bool :=
  later.label.isSome ∧ later.label = first.label

/-- The instructions without those whose label an earlier one carries. -/
def firstOfLabels : List Instruction → List Instruction
  | [] => []
  | first :: rest =>
      first :: (firstOfLabels rest).filter fun later => !sharesLabel first later

def isFree (taken : List String) (instruction : Instruction) : Bool :=
  instruction.label.all fun label => label ∉ taken

theorem isFree_nil (instruction : Instruction) :
    isFree [] instruction = true := by
  cases carried : instruction.label <;> simp [isFree, carried]

theorem isFree_append_labelsOf (taken : List String)
    (first later : Instruction) :
    isFree (taken ++ labelsOf [first]) later =
      (isFree taken later && !sharesLabel first later) := by
  cases laterLabel : later.label with
  | none => simp [isFree, sharesLabel, laterLabel]
  | some label =>
      cases firstLabel : first.label with
      | none => simp [isFree, sharesLabel, labelsOf, laterLabel, firstLabel]
      | some other =>
          simp [isFree, sharesLabel, labelsOf, laterLabel, firstLabel]

theorem isFree_of_sharesLabel (taken : List String)
    {first later : Instruction} (shares : sharesLabel first later = true) :
    isFree taken later = isFree taken first := by
  have same := (of_decide_eq_true shares).2
  rw [isFree, isFree, same]

theorem WellLabelled.push_isOk_iff_isFree {program : Program}
    (labelled : program.WellLabelled) (instruction : Instruction) :
    (∃ result, program.push instruction = .ok result) ↔
      isFree (labelsOf program.instructions.toList) instruction = true := by
  rw [push_isOk_iff]
  cases carried : instruction.label with
  | none => simp [isFree, carried]
  | some label =>
      simp [isFree, carried, labelled.get?_eq_none_iff]

theorem WellLabelled.toList_offerAll {program : Program}
    (labelled : program.WellLabelled) (instructions : List Instruction) :
    (program.offerAll instructions).instructions.toList =
      program.instructions.toList ++
        (firstOfLabels instructions).filter
          (isFree (labelsOf program.instructions.toList)) := by
  induction instructions generalizing program with
  | nil => exact (List.append_nil _).symm
  | cons instruction rest ih =>
      have judged := labelled.push_isOk_iff_isFree instruction
      have onward : program.offerAll (instruction :: rest) =
          (program.offer instruction).2.offerAll rest := rfl
      rw [onward, ih (labelled.offer instruction), firstOfLabels]
      rcases program.offer_cases instruction with refused | accepted
      · obtain ⟨fault, pushed, offered⟩ := refused
        have taken : ¬ isFree (labelsOf program.instructions.toList)
            instruction = true := by
          intro free
          obtain ⟨result, success⟩ := judged.mpr free
          rw [pushed] at success
          contradiction
        rw [offered, List.filter_cons_of_neg taken, List.filter_filter]
        -- what shares the label of the refused instruction is not free either
        refine congrArg _ (List.filter_congr ?_)
        intro later _
        cases shares : sharesLabel instruction later with
        | false => simp
        | true => simp [isFree_of_sharesLabel _ shares, taken]
      · obtain ⟨extended, pushed, offered⟩ := accepted
        have free := judged.mp ⟨_, pushed⟩
        have labels : labelsOf (program.instructions.toList ++ [instruction]) =
            labelsOf program.instructions.toList ++ labelsOf [instruction] :=
          List.filterMap_append
        rw [offered, instructions_of_push pushed, Array.toList_push, labels,
          List.filter_cons_of_pos free, List.filter_filter, List.append_assoc,
          funext (isFree_append_labelsOf _ instruction)]
        rfl

theorem WellLabelled.offerAll {program : Program}
    (labelled : program.WellLabelled) (instructions : List Instruction) :
    (program.offerAll instructions).WellLabelled := by
  induction instructions generalizing program with
  | nil => exact labelled
  | cons instruction rest ih => exact ih (labelled.offer instruction)

/-- A list is refused as a whole with the first refusal among its pushes. -/
theorem pushAll_eq (program : Program) (instructions : List Instruction) :
    program.pushAll instructions =
      match (program.answers instructions).findSome? refusal? with
      | some fault => .error fault
      | none => .ok (program.offerAll instructions) := by
  induction instructions generalizing program with
  | nil => rfl
  | cons instruction rest ih =>
      rw [answers, List.findSome?_cons]
      rcases program.offer_cases instruction with refused | accepted
      · obtain ⟨fault, pushed, offered⟩ := refused
        rw [pushAll_cons_of_error pushed, offered]
        rfl
      · obtain ⟨extended, pushed, offered⟩ := accepted
        have same : program.offerAll (instruction :: rest) =
            extended.offerAll rest := by
          unfold offerAll
          rw [List.foldl_cons, offered]
        rw [pushAll_cons_of_ok pushed, offered, same]
        exact ih extended

/-! ### What pushes build -/

/-- The table binds exactly the labels of the accepted instructions.  The next push is
refused exactly when its label is carried already, and then nothing changes;
otherwise it appends its instruction and answers the address.  The accepted
instructions are those whose label no earlier one of the list carries. -/
structure BuiltFrom (instructions : List Instruction) (program : Program) :
    Prop where
  corresponds : ∀ name address, program.labels.get? name = some address ↔
    program.labelAt? address = some name
  refuses : ∀ instruction fault,
    (program.offer instruction).1 = .error fault ↔
      ∃ label existing, instruction.label = some label ∧
        program.labelAt? existing = some label ∧
          fault = .duplicateLabel label existing
  unchanged : ∀ instruction fault,
    (program.offer instruction).1 = .error fault →
      (program.offer instruction).2 = program
  appends : ∀ instruction address,
    (program.offer instruction).1 = .ok address →
      address = program.size ∧ (program.offer instruction).2.instructions =
        program.instructions.push instruction
  accepted : program.instructions.toList = firstOfLabels instructions

theorem builtFrom_offerAll (instructions : List Instruction) :
    BuiltFrom instructions (empty.offerAll instructions) := by
  have labelled := wellLabelled_empty.offerAll instructions
  refine ⟨labelled, labelled.offer_eq_error_iff, ?_, ?_, ?_⟩
  · intro instruction fault refused
    exact offer_eq_error refused
  · intro instruction address answered
    exact offer_eq_ok answered
  · have appended := wellLabelled_empty.toList_offerAll instructions
    have everyFree : (firstOfLabels instructions).filter (isFree []) =
        firstOfLabels instructions := by
      rw [List.filter_eq_self]
      intro instruction _
      exact isFree_nil instruction
    exact appended.trans everyFree

/-- Pushing any list onto the empty program builds what `BuiltFrom` says, after each of
its pushes.  Programs that are built so and have the same instructions are the
same.  A list forms a program exactly when its labels are pairwise distinct;
otherwise it fails with the first refusal. -/
theorem offerAll_builds (instructions : List Instruction) :
    BuiltFrom instructions (empty.offerAll instructions) ∧
      (∀ others, (empty.offerAll others).instructions =
          (empty.offerAll instructions).instructions →
        empty.offerAll others = empty.offerAll instructions) ∧
      ((∃ program, ofList instructions = .ok program) ↔
        (labelsOf instructions).Nodup) ∧
      ofList instructions =
        match (empty.answers instructions).findSome? refusal? with
        | some fault => .error fault
        | none => .ok (empty.offerAll instructions) := by
  refine ⟨builtFrom_offerAll instructions, ?_, ofList_isOk_iff instructions,
    pushAll_eq empty instructions⟩
  intro others same
  exact (wellLabelled_empty.offerAll others).ext
    (wellLabelled_empty.offerAll instructions) same

end Program
end RegisterMachine
