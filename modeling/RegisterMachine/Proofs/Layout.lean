/-
Layout.

What a source text denotes is decided by the words of those of its lines that have
any.  Two texts with the same words, line by line, make the same program or have
the same fault in different places; a place is passed on and is never looked at.
-/

import RegisterMachine.Proofs.FirstFault

namespace RegisterMachine

/-! ### Faults in other places -/

/-- The same fault, up to the place of the source text it was found in. -/
inductive Relocated : Fault → Fault → Prop where
  | missing {wanted : Wanted} {line twin : Nat} :
      Relocated (.source (.missing wanted line)) (.source (.missing wanted twin))
  | rejected {why : Rejection} {word : String} {place twin : Place} :
      Relocated (.source (.rejected why word (some place)))
        (.source (.rejected why word (some twin)))
  | placeless {fault : Fault} (elsewhere : ∀ cause, fault ≠ .source cause) :
      Relocated fault fault

/-- The same text up to a line number at its end, or up to line and column. -/
def SaidAlike (message twin : String) : Prop :=
  (∃ said line twinLine,
      message = "Parse error: " ++
          (said ++ " at line " ++ Text.writeNat line) ∧
        twin = "Parse error: " ++
          (said ++ " at line " ++ Text.writeNat twinLine)) ∨
    ∃ said line column twinLine twinColumn,
      message = "Parse error: " ++ (said ++
          (" at line " ++ Text.writeNat line ++ ":" ++
            Text.writeNat column)) ∧
        twin = "Parse error: " ++ (said ++
          (" at line " ++ Text.writeNat twinLine ++ ":" ++
            Text.writeNat twinColumn))

theorem Relocated.saidAlike {cause : SourceFault} {twin : Fault}
    (relocated : Relocated (.source cause) twin) :
    SaidAlike (Fault.source cause).message twin.message := by
  cases relocated with
  | missing => exact .inl ⟨_, _, _, rfl, rfl⟩
  | rejected => exact .inr ⟨_, _, _, _, _, rfl, rfl⟩
  | placeless elsewhere => exact absurd rfl (elsewhere cause)

inductive SameOutcome {α : Type} : Except Fault α → Except Fault α → Prop where
  | ok (value : α) : SameOutcome (.ok value) (.ok value)
  | error {fault twin : Fault} (relocated : Relocated fault twin) :
      SameOutcome (.error fault) (.error twin)

theorem SameOutcome.cases {α : Type} {outcome twin : Except Fault α}
    (same : SameOutcome outcome twin) :
    (∃ value, outcome = .ok value ∧ twin = .ok value) ∨
      ∃ fault other, outcome = .error fault ∧ twin = .error other ∧
        Relocated fault other := by
  cases same with
  | ok value => exact .inl ⟨value, rfl, rfl⟩
  | error relocated => exact .inr ⟨_, _, rfl, rfl, relocated⟩

namespace Source

/-! ### Words in other places -/

/-- The words of a line.  Its number is in the places of the tokens only. -/
def lineWords (line : List Char) : List String :=
  (scan 1 line).map Token.text

def wordLines (lines : List (List Char)) : List (List String) :=
  (lines.map lineWords).filter (· ≠ [])

theorem wordLines_cons_of_empty {line : List Char}
    (empty : lineWords line = []) (rest : List (List Char)) :
    wordLines (line :: rest) = wordLines rest := by
  unfold wordLines
  rw [List.map_cons, List.filter_cons_of_neg]
  simpa using empty

theorem wordLines_cons_of_words {line : List Char}
    (words : lineWords line ≠ []) (rest : List (List Char)) :
    wordLines (line :: rest) = lineWords line :: wordLines rest := by
  unfold wordLines
  rw [List.map_cons, List.filter_cons_of_pos]
  simpa using words

def SameWords (tokens others : List Token) : Prop :=
  List.Forall₂ (fun token other => token.text = other.text) tokens others

theorem map_scan (number : Nat) (line : List Char) :
    (scan number line).map Token.text = lineWords line := by
  have known : LineHasWords line (lineWords line) :=
    (lineHasWords_iff 1 line _).mpr rfl
  exact (lineHasWords_iff number line _).mp known

theorem sameWords_scan {line other : List Char}
    (same : lineWords line = lineWords other) (number twin : Nat) :
    SameWords (scan number line) (scan twin other) := by
  have texts : (scan number line).map Token.text =
      (scan twin other).map Token.text := by
    rw [map_scan, map_scan, same]
  rw [← List.forall₂_eq_eq_eq, List.forall₂_map_left_iff,
    List.forall₂_map_right_iff] at texts
  exact texts

def ReadsAnywhere {α : Type}
    (read : String → Option Place → Except Fault α) : Prop :=
  ∀ (word : String) (place twin : Place),
    SameOutcome (read word (some place)) (read word (some twin))

theorem readsAnywhere_register : ReadsAnywhere readRegister := by
  intro word place twin
  unfold readRegister
  cases Register.ofName? word with
  | some register => exact .ok register
  | none => exact .error .rejected

theorem readsAnywhere_opcode : ReadsAnywhere readOpcode := by
  intro word place twin
  unfold readOpcode
  cases Opcode.ofMnemonic? word with
  | some opcode => exact .ok opcode
  | none => exact .error .rejected

theorem readsAnywhere_literal : ReadsAnywhere readLiteral := by
  intro word place twin
  unfold readLiteral
  cases Text.readWord word.toList with
  | ok value => exact .ok value
  | error _ => exact .error .rejected

theorem readsAnywhere_label : ReadsAnywhere readLabel := by
  intro word place twin
  unfold readLabel
  by_cases legal : isLabelName word = true
  · rw [if_pos legal, if_pos legal]
    exact .ok word
  · rw [if_neg legal, if_neg legal]
    exact .error .rejected

/-! ### Readers that do not look at places -/

namespace Reader

/-- What a reader leaves when it fails is not read again. -/
inductive SameResult {α : Type} :
    EStateM.Result Fault (List Token) α →
      EStateM.Result Fault (List Token) α → Prop where
  | ok (value : α) {left others : List Token} (same : SameWords left others) :
      SameResult (.ok value left) (.ok value others)
  | error {fault twin : Fault} {left others : List Token}
      (relocated : Relocated fault twin) :
      SameResult (.error fault left) (.error twin others)

/-- Readers of two lines that take the same words alike. -/
def ReadAlike {α : Type} (reader twin : Reader α) : Prop :=
  ∀ tokens others, SameWords tokens others →
    SameResult (reader tokens) (twin others)

section ReadAlike

variable {α β : Type} {number twin : Nat}

theorem readAlike_pure (value : α) :
    ReadAlike (pure value : Reader α) (pure value) := by
  intro tokens others same
  exact .ok value same

theorem ReadAlike.bind {first firstTwin : Reader α}
    {second secondTwin : α → Reader β} (alike : ReadAlike first firstTwin)
    (onward : ∀ value, ReadAlike (second value) (secondTwin value)) :
    ReadAlike (first >>= second) (firstTwin >>= secondTwin) := by
  intro tokens others same
  change SameResult (EStateM.bind first second tokens)
    (EStateM.bind firstTwin secondTwin others)
  unfold EStateM.bind
  have results := alike tokens others same
  generalize first tokens = result at results ⊢
  generalize firstTwin others = twinResult at results ⊢
  cases results with
  | ok value left => exact onward value _ _ left
  | error relocated => exact .error relocated

theorem readAlike_word {read : String → Option Place → Except Fault α}
    (anywhere : ReadsAnywhere read) (wanted : Wanted) :
    ReadAlike (word wanted number read) (word wanted twin read) := by
  intro tokens others same
  cases same with
  | nil => exact .error .missing
  | @cons token other rest below text left =>
      simp only [word, next, bind, EStateM.bind, ← text]
      rcases (anywhere token.text token.place other.place).cases with
        ⟨value, here, there⟩ | ⟨fault, moved, here, there, relocated⟩
      · rw [here, there]
        exact .ok value left
      · rw [here, there]
        exact .error relocated

theorem readAlike_label : ReadAlike label label := by
  intro tokens others same
  cases same with
  | nil => exact .ok none .nil
  | @cons name other _ _ text left =>
      cases left with
      | nil => exact .ok none (.cons text .nil)
      | @cons colon twinColon rest below second more =>
          unfold label
          simp only [← second]
          by_cases labelled : colon.text = ":"
          · rw [if_pos labelled, if_pos labelled, ← text]
            rcases (readsAnywhere_label name.text name.place
                other.place).cases with
              ⟨value, here, there⟩ | ⟨fault, moved, here, there, relocated⟩
            · rw [here, there]
              exact .ok (some value) more
            · rw [here, there]
              exact .error relocated
          · rw [if_neg labelled, if_neg labelled]
            exact .ok none (.cons text (.cons second more))

theorem readAlike_finish : ReadAlike finish finish := by
  intro tokens others same
  cases same with
  | nil => exact .ok () .nil
  | @cons extra other _ _ text _ =>
      unfold finish
      simp only [← text]
      exact .error .rejected

theorem readAlike_operands (opcode : Opcode) :
    ReadAlike (operands number opcode) (operands twin opcode) := by
  have register : ReadAlike (Reader.register number) (Reader.register twin) :=
    readAlike_word readsAnywhere_register .register
  have literal : ReadAlike (Reader.literal number) (Reader.literal twin) :=
    readAlike_word readsAnywhere_literal .literal
  have target : ReadAlike (Reader.target number) (Reader.target twin) :=
    readAlike_word readsAnywhere_label .label
  cases opcode with
  | binary op =>
      exact register.bind fun _ => register.bind fun _ => readAlike_pure _
  | mov => exact register.bind fun _ => literal.bind fun _ => readAlike_pure _
  | out => exact register.bind fun _ => readAlike_pure _
  | jmp => exact target.bind fun _ => readAlike_pure _
  | branch test =>
      exact register.bind fun _ => target.bind fun _ => readAlike_pure _

theorem readAlike_instruction :
    ReadAlike (instruction number) (instruction twin) := by
  have opcode : ReadAlike (Reader.opcode number) (Reader.opcode twin) :=
    readAlike_word readsAnywhere_opcode .opcode
  exact readAlike_label.bind fun _ => opcode.bind fun kind =>
    (readAlike_operands kind).bind fun _ =>
      readAlike_finish.bind fun _ => readAlike_pure _

end ReadAlike
end Reader
end Source

namespace Text

def returnFeeds (text : List Char) : List Char :=
  text.flatMap fun c => if c = '\n' then ['\r', '\n'] else [c]

theorem returnFeeds_of_not_mem {text : List Char} (single : '\n' ∉ text) :
    returnFeeds text = text := by
  induction text with
  | nil => rfl
  | cons c rest ih =>
      rw [List.mem_cons, not_or] at single
      have kept : returnFeeds (c :: rest) = c :: returnFeeds rest := by
        simp [returnFeeds, Ne.symm single.1]
      rw [kept, ih single.2]

theorem lines_returnFeeds_append {line : List Char} (single : '\n' ∉ line)
    (rest : List Char) :
    lines (returnFeeds (line ++ '\n' :: rest)) =
      line :: lines (returnFeeds rest) := by
  have ended : '\n' ∉ line ++ ['\r'] := by
    simpa using single
  have regroup : returnFeeds (line ++ '\n' :: rest) =
      (line ++ ['\r']) ++ '\n' :: returnFeeds rest := by
    have front := returnFeeds_of_not_mem single
    unfold returnFeeds at front ⊢
    rw [List.flatMap_append, front, List.flatMap_cons]
    simp
  rw [regroup, lines_append_feed ended, dropReturn_append]

end Text

/-! ### Lines of the same words -/

namespace Assembler

open Source

section Lines

variable {limits : Limits} {number : Nat} {program : Program}

/-- An instruction is refused for its label or for the room there is, and
neither depends on the line it came from. -/
theorem sameOutcome_addInstruction (limits : Limits) (program : Program)
    (instruction : Instruction) :
    SameOutcome (addInstruction limits program instruction)
      (addInstruction limits program instruction) := by
  unfold addInstruction
  cases pushed : program.push instruction with
  | error fault =>
      obtain ⟨label, existing, _, _, rfl⟩ :=
        (Program.push_eq_error_iff program instruction fault).mp pushed
      exact .error (.placeless (by simp))
  | ok result =>
      simp only [Limits.checkInstructionCount]
      by_cases counted : result.2.size ≤ limits.maxInstructions
      · rw [if_pos counted]
        exact .ok result.2
      · rw [if_neg counted]
        exact .error (.placeless (by simp))

theorem sameOutcome_readLine {line other : List Char}
    (same : lineWords line = lineWords other) (limits : Limits)
    (number twin : Nat) (program : Program) :
    SameOutcome (readLine limits number program line)
      (readLine limits twin program other) := by
  have words := sameWords_scan same number twin
  unfold readLine
  generalize scan number line = tokens at words ⊢
  generalize scan twin other = others at words ⊢
  cases words with
  | nil => exact .ok program
  | @cons first firstTwin rest below text left =>
      have results := @Reader.readAlike_instruction number twin _ _
        (List.Forall₂.cons text left)
      simp only
      generalize Reader.instruction number (first :: rest) = result
        at results ⊢
      generalize Reader.instruction twin (firstTwin :: below) = twinResult
        at results ⊢
      cases results with
      | error relocated => exact .error relocated
      | ok instruction _ =>
          exact sameOutcome_addInstruction limits program instruction

theorem readLines_of_wordLines_nil {lines : List (List Char)}
    (wordless : wordLines lines = []) (pending : List Token) :
    (readLines limits number program pending lines).1 = .ok program := by
  induction lines generalizing number pending with
  | nil => rfl
  | cons line rest ih =>
      by_cases empty : lineWords line = []
      · rw [wordLines_cons_of_empty empty] at wordless
        rw [readLines_cons_of_empty ((lineHasWords_iff 1 line []).mpr empty)]
        exact ih wordless []
      · rw [wordLines_cons_of_words empty] at wordless
        contradiction

theorem exists_readLines_of_wordLines_cons {lines : List (List Char)}
    {words : List String} {more : List (List String)}
    (found : wordLines lines = words :: more) (pending : List Token) :
    ∃ reached line below, lineWords line = words ∧ wordLines below = more ∧
      (readLines limits number program pending lines).1 =
        (readLines limits reached program [] (line :: below)).1 := by
  induction lines generalizing number pending with
  | nil => contradiction
  | cons line rest ih =>
      by_cases empty : lineWords line = []
      · rw [wordLines_cons_of_empty empty] at found
        obtain ⟨reached, other, below, has, others, read⟩ :=
          @ih (number + 1) found []
        refine ⟨reached, other, below, has, others, ?_⟩
        rw [readLines_cons_of_empty ((lineHasWords_iff 1 line []).mpr empty)]
        exact read
      · rw [wordLines_cons_of_words empty] at found
        obtain ⟨has, others⟩ := List.cons.inj found
        exact ⟨number, line, rest, has, others, readLines_pending _ _⟩

/-- The induction is over the lines that have words; the program so far is the same
on both sides whenever it goes on. -/
theorem sameOutcome_readLines {lines others : List (List Char)}
    (same : wordLines lines = wordLines others) (number twin : Nat)
    (program : Program) (pending left : List Token) :
    SameOutcome (readLines limits number program pending lines).1
      (readLines limits twin program left others).1 := by
  generalize found : wordLines lines = contents at same
  induction contents generalizing lines others number twin program pending left with
  | nil =>
      rw [readLines_of_wordLines_nil found,
        readLines_of_wordLines_nil same.symm]
      exact .ok program
  | cons words more ih =>
      obtain ⟨reached, line, below, has, rest, read⟩ :=
        exists_readLines_of_wordLines_cons found pending
      obtain ⟨twinReached, other, twinBelow, twinHas, twinRest, twinRead⟩ :=
        exists_readLines_of_wordLines_cons same.symm left
      have step := sameOutcome_readLine (has.trans twinHas.symm) limits reached
        twinReached program
      rw [read, twinRead]
      rcases step.cases with
        ⟨extended, added, twinAdded⟩ | ⟨fault, moved, failed, twinFailed, relocated⟩
      · rw [readLines_cons_of_ok added, readLines_cons_of_ok twinAdded]
        exact ih (reached + 1) (twinReached + 1) extended [] [] rest
          twinRest.symm
      · rw [readLines_cons_of_error failed, readLines_cons_of_error twinFailed]
        exact .error relocated

/-! ### Line endings -/

/-- The line feed takes the new carriage return away; one that was there before then
stands at the end of the line, where it is a blank. -/
theorem readLines_lines_returnFeeds {text : List Char}
    {lines : List (List Char)} (known : Text.HasLines text lines)
    (pending : List Token) :
    (readLines limits number program pending
        (Text.lines (Text.returnFeeds text))).1 =
      (readLines limits number program pending lines).1 := by
  induction known generalizing number program pending with
  | done => rfl
  | @unended line nonempty single =>
      rw [Text.returnFeeds_of_not_mem single, (Text.hasLines_iff line [line]).mp
        (.unended nonempty single)]
  | @feed line rest others single _ _ ih =>
      rw [Text.lines_returnFeeds_append single, readLines_cons, readLines_cons]
      cases readLine limits number program line with
      | error fault => rfl
      | ok extended => exact ih []
  | @returnFeed line rest others single _ ih =>
      have ended : '\n' ∉ line ++ ['\r'] := by
        simpa using single
      have regroup : line ++ '\r' :: '\n' :: rest =
          (line ++ ['\r']) ++ '\n' :: rest := by
        simp
      rw [regroup, Text.lines_returnFeeds_append ended,
        ← readLines_dropReturn_cons, Text.dropReturn_append, readLines_cons,
        readLines_cons]
      cases readLine limits number program line with
      | error fault => rfl
      | ok extended => exact ih []

end Lines

/-! ### Whole texts -/

/-- Layout plays no part.  Two texts of admitted size with the same words, line by
line, make the same program or fail with the same fault, whose messages differ in
the place only.  A text whose line feeds get a carriage return each has the very
same outcome. -/
theorem assemble_alike_of_wordLines_eq (limits : Limits)
    (pending left : List Token) (source other : String)
    (small : source.utf8ByteSize ≤ limits.maxSourceSize)
    (otherSmall : other.utf8ByteSize ≤ limits.maxSourceSize) :
    (wordLines (Text.lines source.toList) =
          wordLines (Text.lines other.toList) →
        (∃ program,
            (assemble ⟨limits, pending⟩ source).1 = .ok program ∧
              (assemble ⟨limits, left⟩ other).1 = .ok program) ∨
          ∃ fault twin,
            (assemble ⟨limits, pending⟩ source).1 = .error fault ∧
              (assemble ⟨limits, left⟩ other).1 = .error twin ∧
              Relocated fault twin ∧
              ∀ cause, fault = .source cause →
                SaidAlike fault.message twin.message) ∧
      (other.toList = Text.returnFeeds source.toList →
        (assemble ⟨limits, left⟩ other).1 =
          (assemble ⟨limits, pending⟩ source).1) := by
  have read := @assemble_of_le ⟨limits, pending⟩ source small
  have otherRead := @assemble_of_le ⟨limits, left⟩ other otherSmall
  rw [read, otherRead]
  constructor
  · intro same
    have outcomes := @sameOutcome_readLines limits _ _ same 1 1 .empty [] []
    rcases outcomes.cases with made | ⟨fault, twin, failed, twinFailed, relocated⟩
    · exact .inl made
    · refine .inr ⟨fault, twin, failed, twinFailed, relocated, ?_⟩
      intro cause sourceFault
      rw [sourceFault] at relocated ⊢
      exact relocated.saidAlike
  · intro returned
    rw [returned]
    exact readLines_lines_returnFeeds (Text.hasLines_lines _) []

theorem assemble_alike_of_wordLines_eq_of_unknown_register :
    "go: out EAX\nout x".utf8ByteSize ≤ Limits.standard.maxSourceSize ∧
      "# x\n\ngo :out\tEAX#\r\n\u3000out x\r\n".utf8ByteSize ≤
        Limits.standard.maxSourceSize ∧
      wordLines (Text.lines "go: out EAX\nout x".toList) =
        wordLines (Text.lines
          "# x\n\ngo :out\tEAX#\r\n\u3000out x\r\n".toList) ∧
      (assemble ⟨.standard, []⟩ "go: out EAX\nout x").1 =
        .error (.source (.rejected .unknownRegister "x" (some ⟨2, 5⟩))) ∧
      (∃ twin,
        (assemble ⟨.standard, []⟩
            "# x\n\ngo :out\tEAX#\r\n\u3000out x\r\n").1 = .error twin ∧
          Relocated
            (.source (.rejected .unknownRegister "x" (some ⟨2, 5⟩))) twin) ∧
      (assemble ⟨.standard, []⟩ "go: out EAX\r\nout x").1 =
        (assemble ⟨.standard, []⟩ "go: out EAX\nout x").1 := by
  have small : "go: out EAX\nout x".utf8ByteSize ≤
      Limits.standard.maxSourceSize := by
    decide
  have otherSmall : "# x\n\ngo :out\tEAX#\r\n\u3000out x\r\n".utf8ByteSize ≤
      Limits.standard.maxSourceSize := by
    decide
  have same : wordLines (Text.lines "go: out EAX\nout x".toList) =
      wordLines (Text.lines
        "# x\n\ngo :out\tEAX#\r\n\u3000out x\r\n".toList) := by
    decide +kernel
  have failed : (assemble ⟨.standard, []⟩ "go: out EAX\nout x").1 =
      .error (.source (.rejected .unknownRegister "x" (some ⟨2, 5⟩))) := by
    with_unfolding_all rfl
  refine ⟨small, otherSmall, same, failed, ?_, ?_⟩
  · rcases (assemble_alike_of_wordLines_eq .standard [] [] _ _ small
        otherSmall).1 same with made | fails
    · obtain ⟨program, read, _⟩ := made
      rw [failed] at read
      contradiction
    · obtain ⟨fault, twin, read, otherRead, relocated, _⟩ := fails
      rw [failed] at read
      cases read
      exact ⟨twin, otherRead, relocated⟩
  · exact (assemble_alike_of_wordLines_eq .standard [] []
      "go: out EAX\nout x" "go: out EAX\r\nout x" small (by decide)).2
      (by decide)

end Assembler
end RegisterMachine
