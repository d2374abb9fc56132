/-
The first fault of a source text.

Lines are read from the top, and the first one that cannot be added ends the work.
Its fault is decided by this line and by the program of the lines above it; nothing
below the line plays a part.
-/

import RegisterMachine.Proofs.SourceLanguage
import RegisterMachine.Proofs.SourcePlaces

namespace RegisterMachine

namespace Source

/-! ### Blame -/

/-- A word behind the last operand is wrong whatever it is. -/
def Unfit (word : String) : Rejection → Prop
  | .unknownOpcode => ∀ opcode : Opcode, word ≠ opcode.mnemonic
  | .unknownRegister => ∀ register, ¬ NamesRegister word register
  | .invalidLiteral => ∀ value, ¬ Text.IsLiteral word.toList value
  | .invalidLabel => isLabelName word = false
  | .unexpectedToken => True

/-- The fault names the line, and when it rejects a word, it gives the text and
the place of one of the tokens. -/
inductive Blames (number : Nat) (tokens : List Token) : Fault → Prop where
  | missing {wanted : Wanted} :
      Blames number tokens (.source (.missing wanted number))
  | rejected {token : Token} {why : Rejection} (member : token ∈ tokens)
      (unfit : Unfit token.text why) :
      Blames number tokens
        (.source (.rejected why token.text (some token.place)))

theorem Blames.of_subset {number : Nat} {tokens others : List Token}
    {fault : Fault} (blames : Blames number tokens fault)
    (subset : tokens ⊆ others) : Blames number others fault := by
  cases blames with
  | missing => exact .missing
  | rejected member unfit => exact .rejected (subset member) unfit

def RejectsUnfit {α : Type} (why : Rejection)
    (read : String → Option Place → Except Fault α) : Prop :=
  ∀ word place fault, read word place = .error fault →
    Unfit word why ∧ fault = .source (.rejected why word place)

theorem rejectsUnfit_register :
    RejectsUnfit .unknownRegister readRegister := by
  intro word place fault failed
  constructor
  · intro register named
    rw [(readRegister_eq_ok_iff word place register).mpr named] at failed
    contradiction
  · unfold readRegister at failed
    split at failed
    · contradiction
    · exact (Except.error.inj failed).symm

theorem rejectsUnfit_opcode : RejectsUnfit .unknownOpcode readOpcode := by
  intro word place fault failed
  constructor
  · intro opcode named
    rw [(readOpcode_eq_ok_iff word place opcode).mpr named] at failed
    contradiction
  · unfold readOpcode at failed
    split at failed
    · contradiction
    · exact (Except.error.inj failed).symm

theorem rejectsUnfit_literal : RejectsUnfit .invalidLiteral readLiteral := by
  intro word place fault failed
  constructor
  · intro value written
    rw [(readLiteral_eq_ok_iff word place value).mpr written] at failed
    contradiction
  · unfold readLiteral at failed
    split at failed
    · contradiction
    · exact (Except.error.inj failed).symm

theorem rejectsUnfit_label : RejectsUnfit .invalidLabel readLabel := by
  intro word place fault failed
  unfold readLabel at failed
  split at failed
  · contradiction
  · next illegal =>
      exact ⟨Bool.eq_false_iff.mpr illegal, (Except.error.inj failed).symm⟩

/-! ### Readers that blame their own tokens -/

namespace Reader

/-- The reader blames the tokens it was given, and gives back only such tokens. -/
structure Fair {α : Type} (number : Nat) (reader : Reader α) : Prop where
  blames : ∀ {tokens left fault}, reader tokens = .error fault left →
    Blames number tokens fault
  keeps : ∀ {tokens left value}, reader tokens = .ok value left →
    left ⊆ tokens

section Fair

variable {α β : Type} {number : Nat}

theorem fair_pure (value : α) : Fair number (pure value : Reader α) := by
  constructor
  · intro tokens left fault failed
    change EStateM.Result.ok value tokens = .error fault left at failed
    contradiction
  · intro tokens left result read
    rw [(pure_eq_ok_iff value result tokens left).mp read |>.2]
    exact List.Subset.refl left

theorem bind_eq_error_iff (first : Reader α) (second : α → Reader β)
    (tokens left : List Token) (fault : Fault) :
    (first >>= second) tokens = .error fault left ↔
      first tokens = .error fault left ∨
        ∃ value middle, first tokens = .ok value middle ∧
          second value middle = .error fault left := by
  change EStateM.bind first second tokens = .error fault left ↔ _
  unfold EStateM.bind
  cases first tokens with
  | ok value middle => simp
  | error cause middle => simp

/-- What the first reader leaves are some of the tokens of the whole. -/
theorem Fair.bind {first : Reader α} {second : α → Reader β}
    (fairFirst : Fair number first)
    (fairSecond : ∀ value, Fair number (second value)) :
    Fair number (first >>= second) := by
  constructor
  · intro tokens left fault failed
    rcases (bind_eq_error_iff first second tokens left fault).mp failed with
      early | late
    · exact fairFirst.blames early
    · obtain ⟨value, middle, read, refused⟩ := late
      exact ((fairSecond value).blames refused).of_subset
        (fairFirst.keeps read)
  · intro tokens left result read
    obtain ⟨value, middle, early, late⟩ :=
      (bind_eq_ok_iff first second tokens left result).mp read
    exact List.Subset.trans ((fairSecond value).keeps late)
      (fairFirst.keeps early)

theorem fair_word {why : Rejection}
    {read : String → Option Place → Except Fault α}
    (rejects : RejectsUnfit why read) (wanted : Wanted) :
    Fair number (word wanted number read) := by
  constructor
  · intro tokens left fault failed
    rcases (bind_eq_error_iff _ _ tokens left fault).mp failed with
      absent | refused
    · cases tokens with
      | nil =>
          cases absent
          exact .missing
      | cons token rest => contradiction
    · obtain ⟨token, rest, taken, rejected⟩ := refused
      cases tokens with
      | nil => contradiction
      | cons first others =>
          cases taken
          cases outcome : read token.text (some token.place) with
          | ok value =>
              rw [outcome] at rejected
              contradiction
          | error cause =>
              rw [outcome] at rejected
              cases rejected
              obtain ⟨unfit, rfl⟩ := rejects _ _ _ outcome
              exact .rejected List.mem_cons_self unfit
  · intro tokens left value accepted
    obtain ⟨token, rfl, _⟩ :=
      (word_eq_ok_iff wanted number read tokens left value).mp accepted
    exact List.subset_cons_self token left

theorem fair_label : Fair number label := by
  constructor
  · intro tokens left fault failed
    unfold label at failed
    split at failed
    · next name colon rest =>
        split at failed
        · cases outcome : readLabel name.text (some name.place) with
          | ok carried =>
              rw [outcome] at failed
              contradiction
          | error cause =>
              rw [outcome] at failed
              cases failed
              obtain ⟨unfit, rfl⟩ := rejectsUnfit_label _ _ _ outcome
              exact .rejected List.mem_cons_self unfit
        · contradiction
    · contradiction
  · intro tokens left value accepted
    unfold label at accepted
    split at accepted
    · next name colon rest =>
        split at accepted
        · cases outcome : readLabel name.text (some name.place) with
          | ok carried =>
              rw [outcome] at accepted
              cases accepted
              intro token member
              exact List.mem_cons_of_mem name (List.mem_cons_of_mem colon member)
          | error cause =>
              rw [outcome] at accepted
              contradiction
        · cases accepted
          exact List.Subset.refl _
    · cases accepted
      exact List.Subset.refl _

theorem fair_finish : Fair number finish := by
  constructor
  · intro tokens left fault failed
    cases tokens with
    | nil => contradiction
    | cons extra rest =>
        cases failed
        exact .rejected List.mem_cons_self trivial
  · intro tokens left value accepted
    rw [((finish_eq_ok_iff tokens left value).mp accepted).2]
    exact List.nil_subset tokens

theorem fair_operands (opcode : Opcode) :
    Fair number (operands number opcode) := by
  have register : Fair number (Reader.register number) :=
    fair_word rejectsUnfit_register .register
  have literal : Fair number (Reader.literal number) :=
    fair_word rejectsUnfit_literal .literal
  have target : Fair number (Reader.target number) :=
    fair_word rejectsUnfit_label .label
  cases opcode with
  | binary op =>
      exact register.bind fun _ => register.bind fun _ => fair_pure _
  | mov => exact register.bind fun _ => literal.bind fun _ => fair_pure _
  | out => exact register.bind fun _ => fair_pure _
  | jmp => exact target.bind fun _ => fair_pure _
  | branch test =>
      exact register.bind fun _ => target.bind fun _ => fair_pure _

theorem fair_instruction : Fair number (instruction number) := by
  have opcode : Fair number (Reader.opcode number) :=
    fair_word rejectsUnfit_opcode .opcode
  exact fair_label.bind fun _ => opcode.bind fun kind =>
    (fair_operands kind).bind fun _ => fair_finish.bind fun _ => fair_pure _

end Fair
end Reader
end Source

/-! ### Adding one line -/

namespace Program

theorem size_of_push {program extended : Program} {instruction : Instruction}
    {address : Nat}
    (success : program.push instruction = .ok (address, extended)) :
    extended.size = program.size + 1 := by
  unfold size
  rw [instructions_of_push success, Array.size_push]

end Program

namespace Assembler

open Source

def addInstruction (limits : Limits) (program : Program)
    (instruction : Instruction) : Except Fault Program :=
  match program.push instruction with
  | .error fault => .error fault
  | .ok (_, extended) =>
      match limits.checkInstructionCount extended.size with
      | .error fault => .error fault
      | .ok _ => .ok extended

def readLine (limits : Limits) (number : Nat) (program : Program)
    (line : List Char) : Except Fault Program :=
  match scan number line with
  | [] => .ok program
  | first :: others =>
      match Reader.instruction number (first :: others) with
      | .error fault _ => .error fault
      | .ok instruction _ => addInstruction limits program instruction

/-- Why a line cannot be read, as far as the fault tells: its number, and when a
word is quoted, a word of the line with its column. -/
inductive Misread (number : Nat) (line : List Char) : SourceFault → Prop where
  | missing {wanted : Wanted} : Misread number line (.missing wanted number)
  | rejected {why : Rejection} {word : String} {column : Nat}
      (stands : TokenAt line word column) (unfit : Unfit word why) :
      Misread number line (.rejected why word (some ⟨number, column⟩))

/-- The causes stand in the order in which they are tried. -/
inductive LineFails (limits : Limits) (number : Nat) (program : Program)
    (line : List Char) : Fault → Prop where
  | unreadable {words : List String} {cause : SourceFault}
      (has : LineHasWords line words) (nonempty : words ≠ [])
      (formless : ∀ instruction, ¬ LineForm words instruction)
      (misread : Misread number line cause) :
      LineFails limits number program line (.source cause)
  | labelTaken {words : List String} {instruction : Instruction}
      {label : String} {existing : Nat} (has : LineHasWords line words)
      (form : LineForm words instruction)
      (carried : instruction.label = some label)
      (taken : program.labelAt? existing = some label) :
      LineFails limits number program line (.duplicateLabel label existing)
  | tooMany {words : List String} {instruction : Instruction}
      (has : LineHasWords line words) (form : LineForm words instruction)
      (free : ∀ label, instruction.label = some label →
        ∀ address, program.labelAt? address ≠ some label)
      (full : program.size = limits.maxInstructions) :
      LineFails limits number program line
        (.limit (.instructionCount (limits.maxInstructions + 1)
          limits.maxInstructions))

section Lines

variable {limits : Limits} {number : Nat} {program : Program}

theorem misread_of_blames {line : List Char} {fault : Fault}
    (blames : Blames number (scan number line) fault) :
    ∃ cause, fault = .source cause ∧ Misread number line cause := by
  cases blames with
  | missing => exact ⟨_, rfl, .missing⟩
  | rejected member unfit =>
      obtain ⟨column, stands, place⟩ := tokenAt_of_mem_scan member
      rw [place]
      exact ⟨_, rfl, .rejected stands unfit⟩

theorem lineFails_of_addInstruction {line : List Char} {words : List String}
    {instruction : Instruction} {fault : Fault}
    (has : LineHasWords line words) (form : LineForm words instruction)
    (labelled : program.WellLabelled)
    (within : program.size ≤ limits.maxInstructions)
    (failed : addInstruction limits program instruction = .error fault) :
    LineFails limits number program line fault := by
  unfold addInstruction at failed
  cases pushed : program.push instruction with
  | error cause =>
      rw [pushed] at failed
      cases failed
      obtain ⟨label, existing, carried, taken, rfl⟩ :=
        (Program.push_eq_error_iff program instruction _).mp pushed
      exact .labelTaken has form carried ((labelled label existing).mp taken)
  | ok result =>
      obtain ⟨address, extended⟩ := result
      have free := (Program.push_isOk_iff program instruction).mp ⟨_, pushed⟩
      rw [pushed] at failed
      simp only [Limits.checkInstructionCount,
        Program.size_of_push pushed] at failed
      by_cases counted : program.size + 1 ≤ limits.maxInstructions
      · rw [if_pos counted] at failed
        contradiction
      · rw [if_neg counted] at failed
        have full : program.size = limits.maxInstructions := by omega
        rw [full] at failed
        cases failed
        refine .tooMany has form ?_ full
        intro label carried address atAddress
        have taken := (labelled label address).mpr atAddress
        rw [free label carried] at taken
        contradiction

theorem lineFails_of_readLine {line : List Char} {fault : Fault}
    (labelled : program.WellLabelled)
    (within : program.size ≤ limits.maxInstructions)
    (failed : readLine limits number program line = .error fault) :
    LineFails limits number program line fault := by
  have has := (lineHasWords_iff number line _).mpr rfl
  unfold readLine at failed
  cases scanned : scan number line with
  | nil =>
      rw [scanned] at failed
      contradiction
  | cons first others =>
      have readable := Reader.instruction_eq_ok_iff number (first :: others)
      rw [scanned] at failed has
      simp only at failed
      cases read : Reader.instruction number (first :: others) with
      | error cause left =>
          rw [read] at failed
          cases failed
          have blames := Reader.fair_instruction.blames read
          rw [← scanned] at blames
          obtain ⟨cause, rfl, misread⟩ := misread_of_blames blames
          refine .unreadable has (List.cons_ne_nil _ _) ?_ misread
          intro instruction form
          rw [(readable [] instruction).mpr ⟨rfl, form⟩] at read
          contradiction
      | ok instruction left =>
          obtain ⟨_, form⟩ := (readable left instruction).mp read
          rw [read] at failed
          exact lineFails_of_addInstruction has form labelled within failed

/-! ### Adding lines -/

theorem readLines_pending (pending : List Token) (lines : List (List Char)) :
    (readLines limits number program pending lines).1 =
      (readLines limits number program [] lines).1 := by
  cases lines with
  | nil => rfl
  | cons line rest => rfl

theorem readLines_cons (pending : List Token) (line : List Char)
    (rest : List (List Char)) :
    (readLines limits number program pending (line :: rest)).1 =
      match readLine limits number program line with
      | .error fault => .error fault
      | .ok extended =>
          (readLines limits (number + 1) extended [] rest).1 := by
  unfold readLine addInstruction
  rw [readLines]
  cases scan number line with
  | nil => rfl
  | cons first others =>
      simp only
      cases Reader.instruction number (first :: others) with
      | error fault left => rfl
      | ok instruction left =>
          simp only
          cases program.push instruction with
          | error fault => rfl
          | ok result =>
              simp only
              cases limits.checkInstructionCount result.2.size with
              | error fault => rfl
              | ok counted => exact readLines_pending left rest

theorem readLines_cons_of_ok {extended : Program} {line : List Char}
    (added : readLine limits number program line = .ok extended)
    (pending : List Token) (rest : List (List Char)) :
    (readLines limits number program pending (line :: rest)).1 =
      (readLines limits (number + 1) extended [] rest).1 := by
  rw [readLines_cons, added]

theorem readLines_cons_of_error {fault : Fault} {line : List Char}
    (failed : readLine limits number program line = .error fault)
    (pending : List Token) (rest : List (List Char)) :
    (readLines limits number program pending (line :: rest)).1 =
      .error fault := by
  rw [readLines_cons, failed]

theorem exists_readLine_eq_error (pending : List Token)
    (lines : List (List Char)) {fault : Fault}
    (failed : (readLines limits number program pending lines).1 =
      .error fault) :
    ∃ above line below reached, lines = above ++ line :: below ∧
      (readLines limits number program pending above).1 = .ok reached ∧
        readLine limits (number + above.length) reached line =
          .error fault := by
  induction lines generalizing number program pending with
  | nil => contradiction
  | cons line rest ih =>
      cases added : readLine limits number program line with
      | error cause =>
          rw [readLines_cons_of_error added] at failed
          cases failed
          exact ⟨[], line, rest, program, rfl, rfl, added⟩
      | ok extended =>
          rw [readLines_cons_of_ok added] at failed
          obtain ⟨above, other, below, reached, split, read, last⟩ :=
            ih [] failed
          refine ⟨line :: above, other, below, reached, ?_, ?_, ?_⟩
          · rw [split, List.cons_append]
          · rw [readLines_cons_of_ok added]
            exact read
          · rw [List.length_cons, Nat.add_comm above.length, ← Nat.add_assoc]
            exact last

theorem readLines_append_of_ok (pending : List Token)
    (above below : List (List Char)) {reached : Program}
    (added : (readLines limits number program pending above).1 =
      .ok reached) :
    (readLines limits number program pending (above ++ below)).1 =
      (readLines limits (number + above.length) reached [] below).1 := by
  induction above generalizing number program pending with
  | nil =>
      cases added
      exact readLines_pending pending below
  | cons line rest ih =>
      cases first : readLine limits number program line with
      | error cause =>
          rw [readLines_cons_of_error first] at added
          contradiction
      | ok extended =>
          rw [readLines_cons_of_ok first] at added
          rw [List.cons_append, readLines_cons_of_ok first, ih [] added,
            List.length_cons, Nat.add_comm rest.length, Nat.add_assoc]

/-! ### Lines that are joined or go on -/

theorem readLines_dropReturn_cons (pending : List Token) (line : List Char)
    (rest : List (List Char)) :
    (readLines limits number program pending
        (Text.dropReturn line :: rest)).1 =
      (readLines limits number program pending (line :: rest)).1 := by
  have same : readLine limits number program (Text.dropReturn line) =
      readLine limits number program line := by
    unfold readLine
    rw [scan_dropReturn]
  rw [readLines_cons, readLines_cons, same]

theorem readLine_nil :
    readLine limits number program [] = .ok program := by
  simp [readLine, scan, uncommented]

theorem readLines_lines_join (pending : List Token)
    (lines : List (List Char)) (single : ∀ line ∈ lines, '\n' ∉ line) :
    (readLines limits number program pending
        (Text.lines (List.intercalate ['\n'] lines))).1 =
      (readLines limits number program pending lines).1 := by
  induction lines generalizing number program pending with
  | nil => rw [List.intercalate_nil, Text.lines_nil]
  | cons line rest ih =>
      have lineSingle := single line List.mem_cons_self
      cases rest with
      | nil =>
          rw [List.intercalate_singleton, Text.lines_of_not_mem lineSingle]
          -- a single empty line is lost when joined, and adds nothing anyway
          cases line with
          | nil => rw [readLines_cons_of_ok readLine_nil]; rfl
          | cons c others => rfl
      | cons other others =>
          have below := fun extended => @ih (number + 1) extended []
            (fun line member => single line (List.mem_cons_of_mem _ member))
          rw [List.intercalate_cons_cons, List.append_assoc,
            List.singleton_append, Text.lines_append_feed lineSingle,
            readLines_dropReturn_cons, readLines_cons, readLines_cons]
          cases readLine limits number program line with
          | error fault => rfl
          | ok extended => exact below extended

theorem readLines_cons_error_of_rest {pending : List Token} {line : List Char}
    {rest others : List (List Char)} {fault : Fault}
    (failed : (readLines limits number program pending (line :: rest)).1 =
      .error fault)
    (onward : ∀ extended,
      (readLines limits (number + 1) extended [] rest).1 = .error fault →
        (readLines limits (number + 1) extended [] others).1 =
          .error fault) :
    (readLines limits number program pending (line :: others)).1 =
      .error fault := by
  cases added : readLine limits number program line with
  | error cause =>
      rw [readLines_cons_of_error added] at failed ⊢
      exact failed
  | ok extended =>
      rw [readLines_cons_of_ok added] at failed ⊢
      exact onward extended failed

theorem readLines_lines_append_of_error {text : List Char}
    {lines : List (List Char)} (known : Text.HasLines text lines)
    (pending : List Token) (more : List Char) {fault : Fault}
    (failed : (readLines limits number program pending lines).1 =
      .error fault) :
    (readLines limits number program pending
      (Text.lines (text ++ '\n' :: more))).1 = .error fault := by
  induction known generalizing number program pending with
  | done => contradiction
  | @unended line _ single =>
      -- the feed may turn a return at the end of this line into its ending
      rw [Text.lines_append_feed single, readLines_dropReturn_cons]
      refine readLines_cons_error_of_rest failed ?_
      intro extended impossible
      contradiction
  | @feed line rest others single bare _ ih =>
      rw [List.append_assoc, List.cons_append, Text.lines_append_feed single,
        readLines_dropReturn_cons]
      exact readLines_cons_error_of_rest failed fun _ => ih []
  | @returnFeed line rest others single _ ih =>
      have ended : '\n' ∉ line ++ ['\r'] := by
        simpa using single
      have regroup : line ++ '\r' :: '\n' :: rest ++ '\n' :: more =
          (line ++ ['\r']) ++ '\n' :: (rest ++ '\n' :: more) := by
        simp
      rw [regroup, Text.lines_append_feed ended, Text.dropReturn_append]
      exact readLines_cons_error_of_rest failed fun _ => ih []

end Lines

/-! ### Whole texts -/

theorem assemble_of_le {assembler : Assembler} {source : String}
    (small : source.utf8ByteSize ≤ assembler.limits.maxSourceSize) :
    (assembler.assemble source).1 =
      (readLines assembler.limits 1 .empty [] (Text.lines source.toList)).1 := by
  unfold assemble
  simp only [Limits.checkSourceSize, if_pos small]
  exact readLines_pending _ _

theorem message_of_lineFails {limits : Limits} {number : Nat}
    {program : Program} {line : List Char} {cause : SourceFault}
    (fails : LineFails limits number program line (.source cause)) :
    (∃ wanted : Wanted, (Fault.source cause).message =
        "Parse error: " ++ ("Expected " ++ wanted.message ++ " at line " ++
          Text.writeNat number)) ∨
      ∃ (why : Rejection) (word : String) (column : Nat),
        TokenAt line word column ∧ (Fault.source cause).message =
          "Parse error: " ++ (why.message ++ " '" ++ word ++ "'" ++
            (" at line " ++ Text.writeNat number ++ ":" ++
              Text.writeNat column)) := by
  cases fails with
  | unreadable _ _ _ misread =>
      cases misread with
      | missing => exact .inl ⟨_, rfl⟩
      | rejected stands _ => exact .inr ⟨_, _, _, stands, rfl⟩

/-- A text of admitted size that cannot be assembled fails at a first line: the lines
above it, joined again, make a program, to which this line cannot be added.  Every
text that begins with these lines, and every text that goes on after a line feed,
has the same fault. -/
theorem assemble_fails_at_first_line (assembler : Assembler) (source : String)
    (small : source.utf8ByteSize ≤ assembler.limits.maxSourceSize)
    {fault : Fault} (failed : (assembler.assemble source).1 = .error fault) :
    ∃ above line below program,
      Text.HasLines source.toList (above ++ line :: below) ∧
        (assembler.assemble
          (String.ofList (List.intercalate ['\n'] above))).1 = .ok program ∧
        LineFails assembler.limits (above.length + 1) program line fault ∧
        (∀ cause, fault = .source cause →
          (∃ wanted : Wanted, fault.message =
              "Parse error: " ++ ("Expected " ++ wanted.message ++
                " at line " ++ Text.writeNat (above.length + 1))) ∨
            ∃ (why : Rejection) (word : String) (column : Nat),
              TokenAt line word column ∧ fault.message =
                "Parse error: " ++ (why.message ++ " '" ++ word ++ "'" ++
                  (" at line " ++ Text.writeNat (above.length + 1) ++ ":" ++
                    Text.writeNat column))) ∧
        (∀ (other : String) (rest : List (List Char)),
          Text.HasLines other.toList (above ++ line :: rest) →
            other.utf8ByteSize ≤ assembler.limits.maxSourceSize →
              (assembler.assemble other).1 = .error fault) ∧
        ∀ more : String,
          (source ++ "\n" ++ more).utf8ByteSize ≤
              assembler.limits.maxSourceSize →
            (assembler.assemble (source ++ "\n" ++ more)).1 =
              .error fault := by
  rw [assemble_of_le small] at failed
  obtain ⟨above, line, below, program, split, read, last⟩ :=
    exists_readLine_eq_error [] (Text.lines source.toList) failed
  have known : Text.HasLines source.toList (above ++ line :: below) :=
    (Text.hasLines_iff _ _).mpr split
  obtain ⟨instructions, _, built, counted⟩ :=
    (readLines_eq_ok_iff assembler.limits 1 .empty program [] above
      (Nat.zero_le _)).mp read
  have labelled := Program.wellLabelled_empty.pushAll built
  have fails := lineFails_of_readLine labelled counted last
  rw [Nat.add_comm] at fails
  refine ⟨above, line, below, program, known, ?_, fails, ?_, ?_, ?_⟩
  · have smaller : (String.ofList
        (List.intercalate ['\n'] above)).utf8ByteSize ≤
          assembler.limits.maxSourceSize := by
      have part := known.join_take_sublist above.length
      rw [List.take_left] at part
      have size := Text.utf8ByteSize_le_of_sublist part
      rw [String.ofList_toList] at size
      exact size.trans small
    rw [assemble_of_le smaller, String.toList_ofList]
    refine (readLines_lines_join [] above ?_).trans read
    intro other member
    exact known.not_mem (List.mem_append_left _ member)
  · intro cause sourceFault
    rw [sourceFault] at fails ⊢
    exact message_of_lineFails fails
  · intro other rest begins fits
    rw [assemble_of_le fits, (Text.hasLines_iff _ _).mp begins,
      readLines_append_of_ok [] above _ read]
    exact readLines_cons_of_error last [] rest
  · intro more fits
    rw [assemble_of_le fits, String.toList_append, String.toList_append,
      List.append_assoc]
    exact readLines_lines_append_of_error (Text.hasLines_lines _) []
      more.toList failed

theorem assemble_fails_at_first_line_of_unknown_register :
    "go: mov EAX 1\nmov\u3000x 2\ngo: out EAX".utf8ByteSize ≤
        Limits.standard.maxSourceSize ∧
      (assemble { limits := .standard }
          "go: mov EAX 1\nmov\u3000x 2\ngo: out EAX").1 =
        .error (.source (.rejected .unknownRegister "x" (some ⟨2, 5⟩))) ∧
      ∀ more : String,
        ("go: mov EAX 1\nmov\u3000x 2\ngo: out EAX" ++ "\n" ++
            more).utf8ByteSize ≤ Limits.standard.maxSourceSize →
          (assemble { limits := .standard }
              ("go: mov EAX 1\nmov\u3000x 2\ngo: out EAX" ++ "\n" ++ more)).1 =
            .error (.source (.rejected .unknownRegister "x" (some ⟨2, 5⟩))) := by
  have small : "go: mov EAX 1\nmov\u3000x 2\ngo: out EAX".utf8ByteSize ≤
      Limits.standard.maxSourceSize := by
    decide
  have failed : (assemble { limits := .standard }
        "go: mov EAX 1\nmov\u3000x 2\ngo: out EAX").1 =
      .error (.source (.rejected .unknownRegister "x" (some ⟨2, 5⟩))) := by
    with_unfolding_all rfl
  obtain ⟨_, _, _, _, _, _, _, _, _, continues⟩ :=
    assemble_fails_at_first_line { limits := .standard } _ small failed
  exact ⟨small, failed, continues⟩

end Assembler
end RegisterMachine
