/-
The source language and the texts that are accepted.

A text denotes the instructions of its lines, in order; lines without a word are
passed over.  Assembling accepts exactly the texts whose lines all have the form of
an instruction, which keep within the limits and repeat no label.
-/

import RegisterMachine.Assembler
import RegisterMachine.Proofs.ProgramLabels
import RegisterMachine.Proofs.SourceLine

namespace RegisterMachine

/-! ### Texts -/

namespace Source

/-- The instructions that lines denote, one for each line that has a word. -/
inductive LinesDenote : List (List Char) → List Instruction → Prop where
  | done : LinesDenote [] []
  | skip {line : List Char} {rest : List (List Char)}
      {instructions : List Instruction} (empty : LineHasWords line [])
      (below : LinesDenote rest instructions) :
      LinesDenote (line :: rest) instructions
  | read {line : List Char} {rest : List (List Char)} {words : List String}
      {instruction : Instruction} {instructions : List Instruction}
      (has : LineHasWords line words) (form : LineForm words instruction)
      (below : LinesDenote rest instructions) :
      LinesDenote (line :: rest) (instruction :: instructions)

theorem linesDenote_cons_of_empty {line : List Char}
    (empty : LineHasWords line []) (rest : List (List Char))
    (instructions : List Instruction) :
    LinesDenote (line :: rest) instructions ↔
      LinesDenote rest instructions := by
  constructor
  · intro denoted
    cases denoted with
    | skip _ below => exact below
    | read has form _ =>
        have same := lineHasWords_unique has empty
        subst same
        cases form
  · intro below
    exact .skip empty below

theorem linesDenote_cons_of_words {line : List Char} {words : List String}
    (has : LineHasWords line words) (nonempty : words ≠ [])
    (rest : List (List Char)) (instructions : List Instruction) :
    LinesDenote (line :: rest) instructions ↔
      ∃ instruction others, instructions = instruction :: others ∧
        LineForm words instruction ∧ LinesDenote rest others := by
  constructor
  · intro denoted
    cases denoted with
    | skip empty _ => exact absurd (lineHasWords_unique has empty) nonempty
    | read known form below =>
        have same := lineHasWords_unique known has
        subst same
        exact ⟨_, _, rfl, form, below⟩
  · intro parts
    obtain ⟨instruction, others, rfl, form, below⟩ := parts
    exact .read has form below

end Source

/-! ### Assembling -/

namespace Assembler

open Source

theorem readLines_cons_of_empty {line : List Char}
    (empty : LineHasWords line []) (limits : Limits) (number : Nat)
    (program : Program) (pending : List Token) (rest : List (List Char)) :
    readLines limits number program pending (line :: rest) =
      readLines limits (number + 1) program [] rest := by
  have texts := (lineHasWords_iff number line []).mp empty
  have scanned : scan number line = [] := List.map_eq_nil_iff.mp texts
  rw [readLines, scanned]

theorem readLines_cons_eq_ok_iff {line : List Char} {words : List String}
    (has : LineHasWords line words) (nonempty : words ≠ []) (limits : Limits)
    (number : Nat) (program final : Program) (pending : List Token)
    (rest : List (List Char)) :
    (readLines limits number program pending (line :: rest)).1 = .ok final ↔
      ∃ instruction address extended, LineForm words instruction ∧
        program.push instruction = .ok (address, extended) ∧
          extended.size ≤ limits.maxInstructions ∧
            (readLines limits (number + 1) extended [] rest).1 =
              .ok final := by
  have texts := (lineHasWords_iff number line words).mp has
  cases scanned : scan number line with
  | nil =>
      rw [scanned] at texts
      exact absurd texts.symm nonempty
  | cons first others =>
      rw [scanned] at texts
      subst texts
      have readable := Reader.instruction_eq_ok_iff number (first :: others)
      simp only [readLines, scanned]
      constructor
      · intro finished
        cases read : Reader.instruction number (first :: others) with
        | error fault left =>
            rw [read] at finished
            contradiction
        | ok instruction left =>
            obtain ⟨nothingLeft, form⟩ := (readable left instruction).mp read
            subst nothingLeft
            rw [read] at finished
            simp only at finished
            cases pushed : program.push instruction with
            | error fault =>
                rw [pushed] at finished
                contradiction
            | ok result =>
                obtain ⟨address, extended⟩ := result
                rw [pushed] at finished
                simp only [Limits.checkInstructionCount] at finished
                by_cases counted : extended.size ≤ limits.maxInstructions
                · rw [if_pos counted] at finished
                  exact ⟨instruction, address, extended, form, pushed, counted,
                    finished⟩
                · rw [if_neg counted] at finished
                  contradiction
      · intro parts
        obtain ⟨instruction, address, extended, form, pushed, counted,
          finished⟩ := parts
        have read := (readable [] instruction).mpr ⟨rfl, form⟩
        rw [read]
        simp only [pushed, Limits.checkInstructionCount, if_pos counted]
        exact finished

/-- Lines are read onto a program exactly when they denote instructions that
can all be appended to it within the limit. -/
theorem readLines_eq_ok_iff (limits : Limits) (number : Nat)
    (program final : Program) (pending : List Token)
    (lines : List (List Char))
    (within : program.size ≤ limits.maxInstructions) :
    (readLines limits number program pending lines).1 = .ok final ↔
      ∃ instructions, LinesDenote lines instructions ∧
        program.pushAll instructions = .ok final ∧
          final.size ≤ limits.maxInstructions := by
  induction lines generalizing number program pending with
  | nil =>
      constructor
      · intro finished
        cases finished
        exact ⟨[], .done, rfl, within⟩
      · intro parts
        obtain ⟨instructions, denoted, pushed, _⟩ := parts
        cases denoted
        exact pushed
  | cons line rest ih =>
      obtain ⟨words, has⟩ := exists_lineHasWords line
      by_cases nonempty : words = []
      · subst nonempty
        rw [readLines_cons_of_empty has, ih (number + 1) program [] within]
        simp only [linesDenote_cons_of_empty has]
      · rw [readLines_cons_eq_ok_iff has nonempty]
        simp only [linesDenote_cons_of_words has nonempty]
        constructor
        · intro parts
          obtain ⟨instruction, address, extended, form, pushed, counted,
            finished⟩ := parts
          obtain ⟨others, below, appended, finalCount⟩ :=
            (ih (number + 1) extended [] counted).mp finished
          refine ⟨instruction :: others,
            ⟨instruction, others, rfl, form, below⟩, ?_, finalCount⟩
          rw [Program.pushAll_cons_of_ok pushed]
          exact appended
        · intro parts
          obtain ⟨_, ⟨instruction, others, equality, form, below⟩, appended,
            finalCount⟩ := parts
          subst equality
          cases pushed : program.push instruction with
          | error fault =>
              rw [Program.pushAll_cons_of_error pushed] at appended
              contradiction
          | ok result =>
              obtain ⟨address, extended⟩ := result
              rw [Program.pushAll_cons_of_ok pushed] at appended
              -- The count only grows, so the last check implies this one.
              have counted : extended.size ≤ limits.maxInstructions := by
                have grown := Program.size_of_pushAll appended
                omega
              exact ⟨instruction, address, extended, form, pushed, counted,
                (ih (number + 1) extended [] counted).mpr
                  ⟨others, below, appended, finalCount⟩⟩

theorem assemble_eq_ok_iff (assembler : Assembler) (source : String)
    (program : Program) :
    (assembler.assemble source).1 = .ok program ↔
      source.utf8ByteSize ≤ assembler.limits.maxSourceSize ∧
        ∃ instructions, LinesDenote (Text.lines source.toList) instructions ∧
          Program.ofList instructions = .ok program ∧
            program.size ≤ assembler.limits.maxInstructions := by
  unfold assemble
  simp only [Limits.checkSourceSize]
  by_cases small : source.utf8ByteSize ≤ assembler.limits.maxSourceSize
  · rw [if_pos small]
    simp only [small, true_and]
    exact readLines_eq_ok_iff assembler.limits 1 .empty program
      assembler.pending (Text.lines source.toList) (Nat.zero_le _)
  · rw [if_neg small]
    simp [small]

/-! ### The accepted texts -/

/-- Every line with words denotes one instruction. -/
structure Accepts (limits : Limits) (source : String)
    (instructions : List Instruction) : Prop where
  small : source.utf8ByteSize ≤ limits.maxSourceSize
  denoted : ∃ lines, Text.HasLines source.toList lines ∧
    LinesDenote lines instructions
  distinct : (Program.labelsOf instructions).Nodup
  counted : instructions.length ≤ limits.maxInstructions

theorem assemble_eq_ok_iff_denotes (assembler : Assembler) (source : String)
    (program : Program) :
    (assembler.assemble source).1 = .ok program ↔
      ∃ instructions, Accepts assembler.limits source instructions ∧
        program.instructions.toList = instructions ∧
          program.WellLabelled := by
  rw [assemble_eq_ok_iff]
  constructor
  · intro parts
    obtain ⟨small, instructions, denoted, built, counted⟩ := parts
    have form := (Program.ofList_eq_ok_iff instructions program).mp built
    refine ⟨instructions, ⟨small, ?_, ?_, ?_⟩, ?_, form.2⟩
    · exact ⟨_, Text.hasLines_lines source.toList, denoted⟩
    · exact (Program.ofList_isOk_iff instructions).mp ⟨program, built⟩
    · have size : program.size = instructions.length := by
        unfold Program.size
        rw [form.1]
        rfl
      omega
    · rw [form.1]
  · intro parts
    obtain ⟨instructions, accepted, equality, labelled⟩ := parts
    obtain ⟨lines, has, denoted⟩ := accepted.denoted
    rw [(Text.hasLines_iff source.toList lines).mp has]
    have array : program.instructions = instructions.toArray := by
      rw [← equality]
    refine ⟨accepted.small, instructions, denoted,
      (Program.ofList_eq_ok_iff instructions program).mpr ⟨array, labelled⟩,
      ?_⟩
    have counted := accepted.counted
    rw [← equality] at counted
    exact counted

theorem exists_assemble_of_accepts {assembler : Assembler} {source : String}
    {instructions : List Instruction}
    (accepted : Accepts assembler.limits source instructions) :
    ∃ program, (assembler.assemble source).1 = .ok program := by
  obtain ⟨program, built⟩ :=
    (Program.ofList_isOk_iff instructions).mpr accepted.distinct
  have form := (Program.ofList_eq_ok_iff instructions program).mp built
  refine ⟨program, (assemble_eq_ok_iff_denotes assembler source program).mpr
    ⟨instructions, accepted, ?_, form.2⟩⟩
  rw [form.1]

/-- Assembling accepts exactly the texts of the source language.  The program it returns
holds the denoted instructions in order, and binds a name to an address exactly when
the instruction at that address carries it as its label. -/
theorem assemble_eq_ok_iff_accepts (assembler : Assembler) (source : String) :
    (∀ program, (assembler.assemble source).1 = .ok program ↔
      ∃ instructions, Accepts assembler.limits source instructions ∧
        program.instructions.toList = instructions ∧ program.WellLabelled) ∧
    ((∃ program, (assembler.assemble source).1 = .ok program) ↔
      ∃ instructions, Accepts assembler.limits source instructions) := by
  refine ⟨assemble_eq_ok_iff_denotes assembler source, ?_⟩
  constructor
  · intro assembled
    obtain ⟨program, success⟩ := assembled
    obtain ⟨instructions, accepted, _⟩ :=
      (assemble_eq_ok_iff_denotes assembler source program).mp success
    exact ⟨instructions, accepted⟩
  · intro known
    obtain ⟨instructions, accepted⟩ := known
    exact exists_assemble_of_accepts accepted

end Assembler
end RegisterMachine
