/-
Programs written back as source text.

Labels and jump targets of a program that was not read from a text are arbitrary
strings.  The text of a program means that program exactly when all of its names
are legal label names.
-/

import Mathlib.Data.List.Basic
import RegisterMachine.Proofs.SourceLanguage

namespace RegisterMachine

open Source

/-! ### Plain words -/

def IsPlainChar (c : Char) : Prop :=
  isNameRest c = true ∨ c = '+' ∨ c = '-'

def IsPlainWord (word : String) : Prop :=
  word.toList ≠ [] ∧ ∀ c ∈ word.toList, IsPlainChar c

theorem isAlphanum_range {c : Char} (alphanumeric : c.isAlphanum = true) :
    (48 ≤ c.toNat ∧ c.toNat ≤ 57) ∨ (65 ≤ c.toNat ∧ c.toNat ≤ 90) ∨
      (97 ≤ c.toNat ∧ c.toNat ≤ 122) := by
  have joined : (c.isUpper || c.isLower || c.isDigit) = true := alphanumeric
  rw [Bool.or_eq_true, Bool.or_eq_true] at joined
  rcases joined with (capital | small) | digit
  · exact .inr (.inl (of_decide_eq_true capital))
  · obtain ⟨low, high⟩ := Bool.and_eq_true_iff.mp small
    exact .inr (.inr ⟨of_decide_eq_true low, of_decide_eq_true high⟩)
  · obtain ⟨low, high⟩ := Bool.and_eq_true_iff.mp digit
    exact .inl ⟨of_decide_eq_true low, of_decide_eq_true high⟩

theorem IsPlainChar.range {c : Char} (plain : IsPlainChar c) :
    c.toNat = 43 ∨ c.toNat = 45 ∨ c.toNat = 95 ∨
      (48 ≤ c.toNat ∧ c.toNat ≤ 57) ∨ (65 ≤ c.toNat ∧ c.toNat ≤ 90) ∨
        (97 ≤ c.toNat ∧ c.toNat ≤ 122) := by
  rcases plain with name | sign | sign
  · simp only [isNameRest, Bool.or_eq_true, beq_iff_eq] at name
    rcases name with alphanumeric | underscore
    · have range := isAlphanum_range alphanumeric
      omega
    · subst underscore
      decide
  · subst sign
    decide
  · subst sign
    decide

theorem IsPlainChar.isWordChar {c : Char} (plain : IsPlainChar c) :
    isWordChar c = true := by
  have range := plain.range
  have notColon : c ≠ ':' := by
    intro colon
    subst colon
    simp at range
  have notBlank : Text.isBlank c = false := by
    simp only [Text.isBlank, Text.blankRanges, List.any_cons, List.any_nil,
      Bool.or_eq_false_iff, Bool.and_eq_false_iff, decide_eq_false_iff_not,
      and_true]
    omega
  simp [Source.isWordChar, notBlank, notColon]

theorem isPlainWord_of_all {word : String} (nonempty : word.toList ≠ [])
    (named : word.toList.all isNameRest = true) : IsPlainWord word := by
  refine ⟨nonempty, ?_⟩
  intro c member
  exact .inl (List.all_eq_true.mp named c member)

theorem isPlainWord_name (register : Register) :
    IsPlainWord register.name := by
  apply isPlainWord_of_all
  · cases register <;> decide
  · cases register <;> decide

theorem isPlainWord_mnemonic (opcode : Opcode) :
    IsPlainWord opcode.mnemonic := by
  have listed : (Opcode.all.all fun member =>
      member.mnemonic.toList.all isNameRest &&
        !member.mnemonic.toList.isEmpty) = true := by
    decide
  have holds := List.all_eq_true.mp listed opcode (Opcode.mem_all opcode)
  rw [Bool.and_eq_true] at holds
  apply isPlainWord_of_all
  · simpa using holds.2
  · exact holds.1

theorem isPlainWord_of_isLabelName {name : String}
    (legal : isLabelName name = true) : IsPlainWord name := by
  unfold isLabelName at legal
  cases characters : name.toList with
  | nil => simp [characters] at legal
  | cons first rest =>
      rw [characters] at legal
      simp only [Bool.and_eq_true, List.all_eq_true] at legal
      refine ⟨by rw [characters]; exact List.cons_ne_nil first rest, ?_⟩
      intro c member
      rw [characters] at member
      rcases List.mem_cons.mp member with isFirst | later
      · subst isFirst
        have start := legal.1
        simp only [isNameStart, Bool.or_eq_true] at start
        refine .inl ?_
        simp only [isNameRest, Char.isAlphanum, Bool.or_eq_true]
        rcases start with letter | underscore
        · exact .inl (.inl letter)
        · exact .inr underscore
      · exact .inl (legal.2 c later)

theorem isPlainChar_of_isDigit {c : Char} (digit : c.isDigit = true) :
    IsPlainChar c := by
  refine .inl ?_
  simp [isNameRest, Char.isAlphanum, digit]

theorem isPlainWord_of_isLiteral {word : String} {value : Int32}
    (literal : Text.IsLiteral word.toList value) : IsPlainWord word := by
  unfold IsPlainWord
  generalize word.toList = characters at literal
  cases literal with
  | unsigned written _ =>
      exact ⟨written.1, fun c member => isPlainChar_of_isDigit (written.2 c member)⟩
  | plus written _ =>
      refine ⟨List.cons_ne_nil _ _, ?_⟩
      intro c member
      rcases List.mem_cons.mp member with sign | later
      · exact .inr (.inl sign)
      · exact isPlainChar_of_isDigit (written.2 c later)
  | minus written _ =>
      refine ⟨List.cons_ne_nil _ _, ?_⟩
      intro c member
      rcases List.mem_cons.mp member with sign | later
      · exact .inr (.inr sign)
      · exact isPlainChar_of_isDigit (written.2 c later)

/-! ### Rendered lines -/

def Instruction.words (instruction : Instruction) : List String :=
  let operation :=
    instruction.operation.opcode.mnemonic :: instruction.operation.operands
  match instruction.label with
  | none => operation
  | some label => label :: ":" :: operation

def Instruction.NamesLegal (instruction : Instruction) : Prop :=
  (∀ name ∈ instruction.label, isLabelName name = true) ∧
    ∀ name ∈ instruction.operation.target?, isLabelName name = true

theorem hasWords_plain_append {word : String} (plain : IsPlainWord word)
    (rest : List Char) {words : List String}
    (boundary : ∀ c ∈ rest.head?, isWordChar c = false)
    (after : HasWords rest words) :
    HasWords (word.toList ++ rest) (word :: words) := by
  have run := HasWords.run plain.1
    (fun c member => (plain.2 c member).isWordChar) boundary after
  rw [String.ofList_toList] at run
  exact run

theorem hasWords_intercalate (words : List String)
    (plain : ∀ word ∈ words, IsPlainWord word) :
    HasWords (" ".intercalate words).toList words := by
  have separates : Text.isBlank ' ' = true := by decide
  rw [String.toList_intercalate]
  induction words with
  | nil => exact .done
  | cons first rest ih =>
      have firstPlain := plain first List.mem_cons_self
      have below := ih (fun word member =>
        plain word (List.mem_cons_of_mem first member))
      cases rest with
      | nil =>
          have alone := hasWords_plain_append firstPlain [] (by simp) .done
          simpa using alone
      | cons second others =>
          have spaced := hasWords_plain_append firstPlain
            (' ' :: " ".toList.intercalate
              ((second :: others).map String.toList))
            (by simp [isWordChar_of_isBlank separates]) (.blank separates below)
          simpa using spaced

theorem operandForm_operands {operation : Operation}
    (legal : ∀ name ∈ operation.target?, isLabelName name = true) :
    OperandForm operation.operands operation := by
  have named := namesRegister_name
  cases operation with
  | binary op result source => exact .binary (named result) (named source)
  | mov result value => exact .mov (named result) (Text.isLiteral_writeWord value)
  | out source => exact .out (named source)
  | jmp target => exact .jmp (legal target rfl)
  | branch test source target => exact .branch (named source) (legal target rfl)

theorem lineForm_words {instruction : Instruction}
    (legal : instruction.NamesLegal) :
    LineForm instruction.words instruction := by
  have form := operandForm_operands legal.2
  obtain ⟨label, operation⟩ := instruction
  cases label with
  | none => exact .plain form
  | some name => exact .labelled (legal.1 name rfl) form

theorem isPlainWord_of_mem_operands {operation : Operation}
    (legal : ∀ name ∈ operation.target?, isLabelName name = true) :
    ∀ word ∈ operation.operands, IsPlainWord word := by
  intro word member
  cases operation with
  | binary op result source =>
      rcases List.mem_pair.mp member with same | same
      · rw [same]
        exact isPlainWord_name result
      · rw [same]
        exact isPlainWord_name source
  | mov result value =>
      rcases List.mem_pair.mp member with same | same
      · rw [same]
        exact isPlainWord_name result
      · rw [same]
        exact isPlainWord_of_isLiteral (Text.isLiteral_writeWord value)
  | out source =>
      rw [List.mem_singleton.mp member]
      exact isPlainWord_name source
  | jmp target =>
      rw [List.mem_singleton.mp member]
      exact isPlainWord_of_isLabelName (legal target rfl)
  | branch test source target =>
      rcases List.mem_pair.mp member with same | same
      · rw [same]
        exact isPlainWord_name source
      · rw [same]
        exact isPlainWord_of_isLabelName (legal target rfl)

theorem isPlainWord_of_mem_operation {operation : Operation}
    (legal : ∀ name ∈ operation.target?, isLabelName name = true) :
    ∀ word ∈ operation.opcode.mnemonic :: operation.operands,
      IsPlainWord word := by
  intro word member
  rcases List.mem_cons.mp member with mnemonic | operand
  · rw [mnemonic]
    exact isPlainWord_mnemonic operation.opcode
  · exact isPlainWord_of_mem_operands legal word operand

theorem mem_intercalate {words : List String} {c : Char}
    (member : c ∈ (" ".intercalate words).toList) :
    c = ' ' ∨ ∃ word ∈ words, c ∈ word.toList := by
  rw [String.toList_intercalate] at member
  induction words with
  | nil => simp at member
  | cons first rest ih =>
      cases rest with
      | nil =>
          refine .inr ⟨first, List.mem_singleton_self first, ?_⟩
          simpa using member
      | cons second others =>
          have split : c ∈ first.toList ∨ c = ' ' ∨
              c ∈ " ".toList.intercalate
                ((second :: others).map String.toList) := by
            simpa using member
          rcases split with inFirst | space | later
          · exact .inr ⟨first, List.mem_cons_self, inFirst⟩
          · exact .inl space
          · rcases ih later with space | ⟨word, present, inside⟩
            · exact .inl space
            · exact .inr ⟨word, List.mem_cons_of_mem first present, inside⟩

theorem mem_renderOperation {operation : Operation}
    (legal : ∀ name ∈ operation.target?, isLabelName name = true) {c : Char}
    (member : c ∈ operation.render.toList) : IsPlainChar c ∨ c = ' ' := by
  rcases mem_intercalate member with space | ⟨word, present, inside⟩
  · exact .inr space
  · exact .inl ((isPlainWord_of_mem_operation legal word present).2 c inside)

theorem mem_render {instruction : Instruction}
    (legal : instruction.NamesLegal) {c : Char}
    (member : c ∈ instruction.render.toList) :
    IsPlainChar c ∨ c = ' ' ∨ c = ':' := by
  obtain ⟨label, operation⟩ := instruction
  cases label with
  | none =>
      rcases mem_renderOperation legal.2 member with plain | space
      · exact .inl plain
      · exact .inr (.inl space)
  | some name =>
      have namePlain := isPlainWord_of_isLabelName (legal.1 name rfl)
      have split : c ∈ name.toList ∨ (c = ':' ∨ c = ' ') ∨
          c ∈ operation.render.toList := by
        simpa [Instruction.render, or_assoc] using member
      rcases split with inName | (colon | space) | inOperation
      · exact .inl (namePlain.2 c inName)
      · exact .inr (.inr colon)
      · exact .inr (.inl space)
      · rcases mem_renderOperation legal.2 inOperation with plain | space
        · exact .inl plain
        · exact .inr (.inl space)

theorem not_mem_render {instruction : Instruction}
    (legal : instruction.NamesLegal) {c : Char}
    (special : c = '#' ∨ c = '\n' ∨ c = '\r') :
    c ∉ instruction.render.toList := by
  intro member
  rcases mem_render legal member with plain | space | colon
  · have range := plain.range
    rcases special with same | same | same <;>
      · subst same
        simp at range
  · subst space
    simp at special
  · subst colon
    simp at special

theorem lineHasWords_render {instruction : Instruction}
    (legal : instruction.NamesLegal) :
    LineHasWords instruction.render.toList instruction.words := by
  refine ⟨instruction.render.toList,
    ⟨not_mem_render legal (.inl rfl), .inl rfl⟩, ?_⟩
  have operationWords := hasWords_intercalate _
    (isPlainWord_of_mem_operation legal.2)
  obtain ⟨label, operation⟩ := instruction
  cases label with
  | none => exact operationWords
  | some name =>
      have separates : Text.isBlank ' ' = true := by decide
      have labelled := hasWords_plain_append
        (isPlainWord_of_isLabelName (legal.1 name rfl))
        (':' :: ' ' :: operation.render.toList) (by simp [isWordChar_colon])
        (.colon (.blank separates operationWords))
      simpa [Instruction.render, Instruction.words] using labelled

/-! ### Rendered programs -/

def renderLines (instructions : List Instruction) : String :=
  String.join (instructions.map fun instruction => instruction.render ++ "\n")

theorem hasLines_renderLines (instructions : List Instruction)
    (legal : ∀ instruction ∈ instructions, instruction.NamesLegal) :
    Text.HasLines (renderLines instructions).toList
      (instructions.map fun instruction => instruction.render.toList) := by
  unfold renderLines
  rw [String.toList_join]
  induction instructions with
  | nil => exact .done
  | cons instruction rest ih =>
      have firstLegal := legal instruction List.mem_cons_self
      have below := ih (fun other member =>
        legal other (List.mem_cons_of_mem instruction member))
      have single := not_mem_render firstLegal (.inr (.inl rfl))
      have noReturn := not_mem_render firstLegal (.inr (.inr rfl))
      have bare : instruction.render.toList.getLast? ≠ some '\r' := by
        intro last
        exact noReturn (List.mem_of_getLast? last)
      have first := Text.HasLines.feed single bare below
      simpa using first

theorem linesDenote_render (instructions : List Instruction)
    (legal : ∀ instruction ∈ instructions, instruction.NamesLegal) :
    LinesDenote (instructions.map fun instruction => instruction.render.toList)
      instructions := by
  induction instructions with
  | nil => exact .done
  | cons instruction rest ih =>
      have firstLegal := legal instruction List.mem_cons_self
      exact .read (lineHasWords_render firstLegal) (lineForm_words firstLegal)
        (ih (fun other member =>
          legal other (List.mem_cons_of_mem instruction member)))

theorem namesLegal_of_lineForm {words : List String} {instruction : Instruction}
    (form : LineForm words instruction) : instruction.NamesLegal := by
  have targets {operands : List String} {operation : Operation}
      (operandForm : OperandForm operands operation) :
      ∀ name ∈ operation.target?, isLabelName name = true := by
    intro name member
    cases operandForm with
    | binary _ _ => contradiction
    | mov _ _ => contradiction
    | out _ => contradiction
    | jmp legal =>
        cases member
        exact legal
    | branch _ legal =>
        cases member
        exact legal
  cases form with
  | plain operandForm =>
      refine ⟨?_, targets operandForm⟩
      intro name member
      contradiction
  | labelled legal operandForm =>
      refine ⟨?_, targets operandForm⟩
      intro name member
      cases member
      exact legal

theorem namesLegal_of_linesDenote {lines : List (List Char)}
    {instructions : List Instruction}
    (denoted : LinesDenote lines instructions) :
    ∀ instruction ∈ instructions, instruction.NamesLegal := by
  induction denoted with
  | done =>
      intro instruction member
      contradiction
  | skip _ _ ih => exact ih
  | read _ form _ ih =>
      intro instruction member
      rcases List.mem_cons.mp member with first | later
      · rw [first]
        exact namesLegal_of_lineForm form
      · exact ih instruction later

namespace Program

def sourceText (program : Program) : String :=
  renderLines program.instructions.toList

def NamesLegal (program : Program) : Prop :=
  ∀ instruction ∈ program.instructions.toList, instruction.NamesLegal

theorem ofSource_eq_ok_iff (limits : Limits) (source : String)
    (program : Program) :
    ofSource limits source = .ok program ↔
      source.utf8ByteSize ≤ limits.maxSourceSize ∧
        ∃ instructions, LinesDenote (Text.lines source.toList) instructions ∧
          ofList instructions = .ok program ∧
            program.size ≤ limits.maxInstructions :=
  Assembler.assemble_eq_ok_iff { limits := limits } source program

theorem namesLegal_of_ofSource {limits : Limits} {source : String}
    {program : Program} (success : ofSource limits source = .ok program) :
    program.NamesLegal := by
  obtain ⟨_, instructions, denoted, built, _⟩ :=
    (ofSource_eq_ok_iff limits source program).mp success
  obtain ⟨equality, _⟩ := (ofList_eq_ok_iff instructions program).mp built
  intro instruction member
  rw [equality] at member
  exact namesLegal_of_linesDenote denoted instruction member

theorem ofSource_sourceText {limits : Limits} {program : Program}
    (labelled : program.WellLabelled) (legal : program.NamesLegal)
    (counted : program.size ≤ limits.maxInstructions)
    (small : program.sourceText.utf8ByteSize ≤ limits.maxSourceSize) :
    ofSource limits program.sourceText = .ok program := by
  have lines := (Text.hasLines_iff _ _).mp
    (hasLines_renderLines program.instructions.toList legal)
  refine (ofSource_eq_ok_iff limits program.sourceText program).mpr
    ⟨small, program.instructions.toList, ?_, ?_, counted⟩
  · unfold sourceText
    rw [lines]
    exact linesDenote_render program.instructions.toList legal
  · exact (ofList_eq_ok_iff _ program).mpr ⟨rfl, labelled⟩

/-- The text of a program within the limits is read back as that program
exactly when its names are legal.  A program that was read from a text has
legal names, so it always is read back. -/
theorem ofSource_sourceText_eq_ok_iff (program : Program) (limits : Limits)
    (counted : program.size ≤ limits.maxInstructions)
    (small : program.sourceText.utf8ByteSize ≤ limits.maxSourceSize) :
    ((∃ instructions, ofList instructions = .ok program) →
      (ofSource limits program.sourceText = .ok program ↔
        program.NamesLegal)) ∧
    ((∃ firstLimits source, ofSource firstLimits source = .ok program) →
      ofSource limits program.sourceText = .ok program) := by
  constructor
  · intro fromList
    obtain ⟨instructions, built⟩ := fromList
    obtain ⟨_, labelled⟩ := (ofList_eq_ok_iff instructions program).mp built
    constructor
    · intro readBack
      exact namesLegal_of_ofSource readBack
    · intro legal
      exact ofSource_sourceText labelled legal counted small
  · intro fromSource
    obtain ⟨firstLimits, source, success⟩ := fromSource
    obtain ⟨_, instructions, _, built, _⟩ :=
      (ofSource_eq_ok_iff firstLimits source program).mp success
    obtain ⟨_, labelled⟩ := (ofList_eq_ok_iff instructions program).mp built
    exact ofSource_sourceText labelled (namesLegal_of_ofSource success) counted
      small

theorem ofSource_sourceText_of_loop :
    ∃ program, ofList
        [⟨some "f0", .mov .eax (-12)⟩, ⟨none, .branch .zero .ebx "f0"⟩] =
          .ok program ∧
      program.size ≤ Limits.strict.maxInstructions ∧
      program.sourceText.utf8ByteSize ≤ Limits.strict.maxSourceSize ∧
      program.NamesLegal ∧
      ofSource .strict program.sourceText = .ok program := by
  obtain ⟨program, built⟩ := (ofList_isOk_iff
    [⟨some "f0", .mov .eax (-12)⟩, ⟨none, .branch .zero .ebx "f0"⟩]).mpr
      (by decide)
  obtain ⟨equality, _⟩ := (ofList_eq_ok_iff _ program).mp built
  have counted : program.size ≤ Limits.strict.maxInstructions := by
    rw [size, equality]
    decide
  have small :
      program.sourceText.utf8ByteSize ≤ Limits.strict.maxSourceSize := by
    rw [sourceText, equality]
    decide +kernel
  have legal : program.NamesLegal := by
    unfold NamesLegal Instruction.NamesLegal
    rw [equality]
    decide
  refine ⟨program, built, counted, small, legal, ?_⟩
  exact ((ofSource_sourceText_eq_ok_iff program .strict counted small).1
    ⟨_, built⟩).mpr legal

end Program
end RegisterMachine
