/-
The form of a source line, as a grammar over its words.

A line that holds an instruction is an optional label with its colon, a mnemonic,
and the operands this mnemonic asks for.  The reader accepts exactly these lines.
-/

import Mathlib.Data.List.Forall2
import RegisterMachine.Proofs.Literal
import RegisterMachine.Proofs.SourceText
import RegisterMachine.Source.Line

namespace RegisterMachine
namespace Source

/-! ### The grammar -/

/-- Each letter is written in either case. -/
def NamesRegister (word : String) (register : Register) : Prop :=
  List.Forall₂ (fun written letter => written = letter ∨ written = letter.toLower)
    word.toList register.name.toList

inductive OperandForm : List String → Operation → Prop where
  | binary {first second : String} {op : BinaryOp} {result source : Register}
      (resultNamed : NamesRegister first result)
      (sourceNamed : NamesRegister second source) :
      OperandForm [first, second] (.binary op result source)
  | mov {first second : String} {result : Register} {value : Int32}
      (resultNamed : NamesRegister first result)
      (literal : Text.IsLiteral second.toList value) :
      OperandForm [first, second] (.mov result value)
  | out {word : String} {source : Register}
      (sourceNamed : NamesRegister word source) :
      OperandForm [word] (.out source)
  | jmp {target : String} (legal : isLabelName target = true) :
      OperandForm [target] (.jmp target)
  | branch {word target : String} {test : BranchTest} {source : Register}
      (sourceNamed : NamesRegister word source)
      (legal : isLabelName target = true) :
      OperandForm [word, target] (.branch test source target)

inductive LineForm : List String → Instruction → Prop where
  | plain {words : List String} {operation : Operation}
      (form : OperandForm words operation) :
      LineForm (operation.opcode.mnemonic :: words) ⟨none, operation⟩
  | labelled {name : String} {words : List String} {operation : Operation}
      (legal : isLabelName name = true)
      (form : OperandForm words operation) :
      LineForm (name :: ":" :: operation.opcode.mnemonic :: words)
        ⟨some name, operation⟩

/-! ### Words of one class -/

theorem toNat_toUpper (c : Char) :
    c.toUpper.toNat =
      if 97 ≤ c.toNat ∧ c.toNat ≤ 122 then c.toNat - 32 else c.toNat := by
  unfold Char.toUpper
  split
  · next small =>
      have range : 97 ≤ c.toNat ∧ c.toNat ≤ 122 := small
      rw [if_pos range]
      change (c.val + ('A'.val - 'a'.val)).toNat = c.toNat - 32
      rw [UInt32.toNat_add]
      change (c.toNat + 4294967264) % 4294967296 = c.toNat - 32
      omega
  · next other =>
      have range : ¬ (97 ≤ c.toNat ∧ c.toNat ≤ 122) := other
      rw [if_neg range]

theorem toNat_toLower (c : Char) :
    c.toLower.toNat =
      if 65 ≤ c.toNat ∧ c.toNat ≤ 90 then c.toNat + 32 else c.toNat := by
  unfold Char.toLower
  split
  · next capital =>
      have range : 65 ≤ c.toNat ∧ c.toNat ≤ 90 := capital
      rw [if_pos range]
      change (c.val + ('a'.val - 'A'.val)).toNat = c.toNat + 32
      rw [UInt32.toNat_add]
      change (c.toNat + 32) % 4294967296 = c.toNat + 32
      omega
  · next other =>
      have range : ¬ (65 ≤ c.toNat ∧ c.toNat ≤ 90) := other
      rw [if_neg range]

theorem toUpper_eq_iff {letter : Char} (capital : letter.isUpper = true)
    (written : Char) :
    written.toUpper = letter ↔ written = letter ∨ written = letter.toLower := by
  have range : 65 ≤ letter.toNat ∧ letter.toNat ≤ 90 :=
    of_decide_eq_true capital
  rw [← Char.toNat_inj, ← Char.toNat_inj, ← Char.toNat_inj, toNat_toUpper,
    toNat_toLower, if_pos range]
  split <;> omega

theorem isUpper_of_mem_name (register : Register) :
    ∀ letter ∈ register.name.toList, letter.isUpper = true := by
  apply List.all_eq_true.mp
  cases register <;> decide

theorem forall₂_eitherCase_iff (characters letters : List Char)
    (capitals : ∀ letter ∈ letters, letter.isUpper = true) :
    List.Forall₂ (fun written letter => written = letter ∨ written = letter.toLower)
        characters letters ↔
      letters = characters.map Char.toUpper := by
  induction characters generalizing letters with
  | nil => cases letters <;> simp
  | cons written others ih =>
      cases letters with
      | nil => simp
      | cons letter rest =>
          have first := toUpper_eq_iff (capitals letter List.mem_cons_self) written
          have below := ih rest
            (fun c member => capitals c (List.mem_cons_of_mem letter member))
          rw [List.forall₂_cons, ← first, below, List.map_cons, List.cons.injEq,
            eq_comm]

theorem namesRegister_iff (word : String) (register : Register) :
    NamesRegister word register ↔
      register.name.toList = word.toList.map Char.toUpper :=
  forall₂_eitherCase_iff word.toList register.name.toList
    (isUpper_of_mem_name register)

theorem namesRegister_name (register : Register) :
    NamesRegister register.name register := by
  unfold NamesRegister
  rw [List.forall₂_same]
  intro letter _
  exact .inl rfl

theorem name_injective {left right : Register}
    (equality : left.name = right.name) : left = right := by
  cases left <;> cases right <;> first | rfl | exact absurd equality (by decide)

theorem readRegister_eq_ok_iff (word : String) (place : Option Place)
    (register : Register) :
    readRegister word place = .ok register ↔ NamesRegister word register := by
  rw [namesRegister_iff]
  unfold readRegister Register.ofName?
  cases found : Register.all.find? fun register =>
      register.name.toList == word.toList.map Char.toUpper with
  | none =>
      have absent := List.find?_eq_none.mp found register
        (Register.mem_all register)
      simpa using absent
  | some named =>
      have matched := List.find?_some found
      rw [beq_iff_eq] at matched
      rw [Except.ok.injEq, ← matched, String.toList_inj]
      constructor
      · intro same
        rw [same]
      · intro same
        exact (name_injective same).symm

theorem mnemonic_injective {left right : Opcode}
    (equality : left.mnemonic = right.mnemonic) : left = right := by
  have listed : ∀ first ∈ Opcode.all, ∀ second ∈ Opcode.all,
      first.mnemonic = second.mnemonic → first = second := by
    decide
  exact listed left (Opcode.mem_all left) right (Opcode.mem_all right) equality

theorem readOpcode_eq_ok_iff (word : String) (place : Option Place)
    (opcode : Opcode) :
    readOpcode word place = .ok opcode ↔ word = opcode.mnemonic := by
  unfold readOpcode Opcode.ofMnemonic?
  cases found : Opcode.all.find? fun opcode => opcode.mnemonic == word with
  | none =>
      have absent := List.find?_eq_none.mp found opcode (Opcode.mem_all opcode)
      rw [beq_iff_eq] at absent
      constructor
      · intro impossible
        contradiction
      · intro same
        exact absurd same.symm absent
  | some named =>
      have matched := List.find?_some found
      rw [beq_iff_eq] at matched
      rw [Except.ok.injEq, ← matched]
      constructor
      · intro same
        rw [same]
      · intro same
        exact mnemonic_injective same

theorem readLiteral_eq_ok_iff (word : String) (place : Option Place)
    (value : Int32) :
    readLiteral word place = .ok value ↔ Text.IsLiteral word.toList value := by
  rw [← Text.readWord_eq_ok_iff]
  unfold readLiteral
  cases Text.readWord word.toList <;> simp

theorem readLabel_eq_ok_iff (word : String) (place : Option Place)
    (name : String) :
    readLabel word place = .ok name ↔ isLabelName word = true ∧ word = name := by
  unfold readLabel
  by_cases legal : isLabelName word = true
  · simp [legal]
  · simp [legal]

/-! ### Readers -/

namespace Reader

theorem bind_eq_ok_iff {α β : Type} (first : Reader α) (second : α → Reader β)
    (tokens left : List Token) (result : β) :
    (first >>= second) tokens = .ok result left ↔
      ∃ value middle, first tokens = .ok value middle ∧
        second value middle = .ok result left := by
  change EStateM.bind first second tokens = .ok result left ↔ _
  unfold EStateM.bind
  cases first tokens with
  | ok value middle =>
      constructor
      · intro read
        exact ⟨value, middle, rfl, read⟩
      · intro parts
        obtain ⟨_, _, equality, read⟩ := parts
        cases equality
        exact read
  | error fault middle => simp

theorem pure_eq_ok_iff {α : Type} (value result : α) (tokens left : List Token) :
    (pure value : Reader α) tokens = .ok result left ↔
      value = result ∧ tokens = left := by
  change EStateM.Result.ok value tokens = .ok result left ↔ _
  simp

theorem word_eq_ok_iff {α : Type} (wanted : Wanted) (line : Nat)
    (read : String → Option Place → Except Fault α)
    (tokens left : List Token) (value : α) :
    word wanted line read tokens = .ok value left ↔
      ∃ token, tokens = token :: left ∧
        read token.text (some token.place) = .ok value := by
  unfold word
  rw [bind_eq_ok_iff]
  cases tokens with
  | nil => simp [next]
  | cons token rest =>
      simp only [next, EStateM.Result.ok.injEq]
      constructor
      · intro parts
        obtain ⟨_, _, ⟨rfl, rfl⟩, finished⟩ := parts
        cases outcome : read token.text (some token.place) with
        | error fault =>
            rw [outcome] at finished
            contradiction
        | ok found =>
            rw [outcome, pure_eq_ok_iff] at finished
            obtain ⟨rfl, rfl⟩ := finished
            exact ⟨token, rfl, outcome⟩
      · intro parts
        obtain ⟨_, equality, outcome⟩ := parts
        cases equality
        refine ⟨token, _, ⟨rfl, rfl⟩, ?_⟩
        rw [outcome, pure_eq_ok_iff]
        exact ⟨rfl, rfl⟩

theorem finish_eq_ok_iff (tokens left : List Token) (value : Unit) :
    finish tokens = .ok value left ↔ tokens = [] ∧ left = [] := by
  cases tokens with
  | nil => simp [finish, eq_comm]
  | cons token rest => simp [finish]

theorem register_eq_ok_iff (line : Nat) (tokens left : List Token)
    (value : Register) :
    register line tokens = .ok value left ↔
      ∃ token, tokens = token :: left ∧ NamesRegister token.text value := by
  simp only [register, word_eq_ok_iff, readRegister_eq_ok_iff]

theorem literal_eq_ok_iff (line : Nat) (tokens left : List Token)
    (value : Int32) :
    literal line tokens = .ok value left ↔
      ∃ token, tokens = token :: left ∧
        Text.IsLiteral token.text.toList value := by
  simp only [literal, word_eq_ok_iff, readLiteral_eq_ok_iff]

theorem target_eq_ok_iff (line : Nat) (tokens left : List Token)
    (value : String) :
    target line tokens = .ok value left ↔
      ∃ token, tokens = token :: left ∧ isLabelName token.text = true ∧
        token.text = value := by
  simp only [target, word_eq_ok_iff, readLabel_eq_ok_iff]

theorem opcode_eq_ok_iff (line : Nat) (tokens left : List Token)
    (value : Opcode) :
    opcode line tokens = .ok value left ↔
      ∃ token, tokens = token :: left ∧ token.text = value.mnemonic := by
  simp only [opcode, word_eq_ok_iff, readOpcode_eq_ok_iff]

theorem opcode_of_operands {line : Nat} {opcode : Opcode}
    {tokens left : List Token} {operation : Operation}
    (read : operands line opcode tokens = .ok operation left) :
    operation.opcode = opcode := by
  cases opcode with
  | binary op | mov | branch test =>
      simp only [operands, bind_eq_ok_iff, pure_eq_ok_iff] at read
      obtain ⟨_, _, _, _, _, _, rfl, _⟩ := read
      rfl
  | out | jmp =>
      simp only [operands, bind_eq_ok_iff, pure_eq_ok_iff] at read
      obtain ⟨_, _, _, rfl, _⟩ := read
      rfl

theorem two_of_map {tokens : List Token} {first second : String}
    (texts : tokens.map Token.text = [first, second]) :
    ∃ left right : Token, tokens = [left, right] ∧ left.text = first ∧
      right.text = second := by
  obtain ⟨left, others, rfl, leftText, otherTexts⟩ :=
    List.map_eq_cons_iff.mp texts
  obtain ⟨right, rfl, rightText⟩ := List.map_eq_singleton_iff.mp otherTexts
  exact ⟨left, right, rfl, leftText, rightText⟩

theorem operands_eq_ok_iff (line : Nat) (tokens : List Token)
    (operation : Operation) :
    operands line operation.opcode tokens = .ok operation [] ↔
      OperandForm (tokens.map Token.text) operation := by
  generalize texts : tokens.map Token.text = words
  cases operation with
  | binary op result source =>
      simp only [Operation.opcode, operands, bind_eq_ok_iff, pure_eq_ok_iff,
        register_eq_ok_iff]
      constructor
      · intro parts
        obtain ⟨_, _, ⟨first, rfl, resultNamed⟩, _, _, ⟨second, rfl,
          sourceNamed⟩, equality, rfl⟩ := parts
        cases equality
        cases texts
        exact .binary resultNamed sourceNamed
      · intro form
        cases form with
        | binary resultNamed sourceNamed =>
            obtain ⟨first, second, rfl, rfl, rfl⟩ := two_of_map texts
            exact ⟨_, _, ⟨first, rfl, resultNamed⟩, _, _,
              ⟨second, rfl, sourceNamed⟩, rfl, rfl⟩
  | mov result value =>
      simp only [Operation.opcode, operands, bind_eq_ok_iff, pure_eq_ok_iff,
        register_eq_ok_iff, literal_eq_ok_iff]
      constructor
      · intro parts
        obtain ⟨_, _, ⟨first, rfl, resultNamed⟩, _, _, ⟨second, rfl,
          isLiteral⟩, equality, rfl⟩ := parts
        cases equality
        cases texts
        exact .mov resultNamed isLiteral
      · intro form
        cases form with
        | mov resultNamed isLiteral =>
            obtain ⟨first, second, rfl, rfl, rfl⟩ := two_of_map texts
            exact ⟨_, _, ⟨first, rfl, resultNamed⟩, _, _,
              ⟨second, rfl, isLiteral⟩, rfl, rfl⟩
  | out source =>
      simp only [Operation.opcode, operands, bind_eq_ok_iff, pure_eq_ok_iff,
        register_eq_ok_iff]
      constructor
      · intro parts
        obtain ⟨_, _, ⟨only, rfl, sourceNamed⟩, equality, rfl⟩ := parts
        cases equality
        cases texts
        exact .out sourceNamed
      · intro form
        cases form with
        | out sourceNamed =>
            obtain ⟨only, rfl, rfl⟩ := List.map_eq_singleton_iff.mp texts
            exact ⟨_, _, ⟨only, rfl, sourceNamed⟩, rfl, rfl⟩
  | jmp goal =>
      simp only [Operation.opcode, operands, bind_eq_ok_iff, pure_eq_ok_iff,
        target_eq_ok_iff]
      constructor
      · intro parts
        obtain ⟨_, _, ⟨only, rfl, legal, rfl⟩, equality, rfl⟩ := parts
        cases equality
        cases texts
        exact .jmp legal
      · intro form
        cases form with
        | jmp legal =>
            obtain ⟨only, rfl, rfl⟩ := List.map_eq_singleton_iff.mp texts
            exact ⟨_, _, ⟨only, rfl, legal, rfl⟩, rfl, rfl⟩
  | branch test source goal =>
      simp only [Operation.opcode, operands, bind_eq_ok_iff, pure_eq_ok_iff,
        register_eq_ok_iff, target_eq_ok_iff]
      constructor
      · intro parts
        obtain ⟨_, _, ⟨first, rfl, sourceNamed⟩, _, _, ⟨second, rfl, legal,
          rfl⟩, equality, rfl⟩ := parts
        cases equality
        cases texts
        exact .branch sourceNamed legal
      · intro form
        cases form with
        | branch sourceNamed legal =>
            obtain ⟨first, second, rfl, rfl, rfl⟩ := two_of_map texts
            exact ⟨_, _, ⟨first, rfl, sourceNamed⟩, _, _,
              ⟨second, rfl, legal, rfl⟩, rfl, rfl⟩

/-- The part of a line after its label, with nothing left. -/
theorem operation_eq_ok_iff (line : Nat) (label : Option String)
    (tokens left : List Token) (instruction : Instruction) :
    (do
        let opcode ← opcode line
        let operation ← operands line opcode
        finish
        pure (⟨label, operation⟩ : Instruction) : Reader Instruction) tokens =
        .ok instruction left ↔
      left = [] ∧ ∃ words operation,
        tokens.map Token.text = operation.opcode.mnemonic :: words ∧
          OperandForm words operation ∧ instruction = ⟨label, operation⟩ := by
  simp only [bind_eq_ok_iff, pure_eq_ok_iff, opcode_eq_ok_iff, finish_eq_ok_iff]
  constructor
  · intro parts
    obtain ⟨_, rest, ⟨mnemonic, rfl, named⟩, operation, _, read, _, _, ⟨rfl,
      rfl⟩, rfl, rfl⟩ := parts
    have kind := opcode_of_operands read
    subst kind
    refine ⟨rfl, rest.map Token.text, operation, ?_,
      (operands_eq_ok_iff line rest operation).mp read, rfl⟩
    rw [List.map_cons, named]
  · intro parts
    obtain ⟨rfl, words, operation, texts, form, rfl⟩ := parts
    obtain ⟨mnemonic, rest, rfl, named, rfl⟩ := List.map_eq_cons_iff.mp texts
    exact ⟨operation.opcode, rest, ⟨mnemonic, rfl, named⟩, operation, [],
      (operands_eq_ok_iff line rest operation).mpr form, (), [], ⟨rfl, rfl⟩,
      rfl, rfl⟩

/-- No operand is a colon, so a line whose second word is one has a label. -/
theorem head_ne_colon {first : String} {words : List String}
    {operation : Operation} (form : OperandForm (first :: words) operation) :
    first ≠ ":" := by
  have noRegister (register : Register) : ¬ NamesRegister ":" register := by
    rw [namesRegister_iff]
    cases register <;> decide
  have noName : isLabelName ":" = false := by decide
  intro colon
  subst colon
  cases form with
  | binary resultNamed _ => exact noRegister _ resultNamed
  | mov resultNamed _ => exact noRegister _ resultNamed
  | out sourceNamed => exact noRegister _ sourceNamed
  | jmp legal =>
      rw [noName] at legal
      contradiction
  | branch sourceNamed _ => exact noRegister _ sourceNamed

theorem instruction_eq_ok_iff (line : Nat) (tokens left : List Token)
    (result : Instruction) :
    instruction line tokens = .ok result left ↔
      left = [] ∧ LineForm (tokens.map Token.text) result := by
  unfold instruction
  rw [bind_eq_ok_iff]
  constructor
  · intro parts
    obtain ⟨found, middle, labelled, read⟩ := parts
    obtain ⟨rfl, words, operation, texts, form, rfl⟩ :=
      (operation_eq_ok_iff line found middle left result).mp read
    refine ⟨rfl, ?_⟩
    unfold label at labelled
    split at labelled
    · next name colon rest =>
        split at labelled
        · next isColon =>
            cases outcome : readLabel name.text (some name.place) with
            | error fault =>
                rw [outcome] at labelled
                contradiction
            | ok carried =>
                rw [outcome] at labelled
                cases labelled
                obtain ⟨legal, rfl⟩ :=
                  (readLabel_eq_ok_iff name.text _ carried).mp outcome
                rw [List.map_cons, List.map_cons, isColon, texts]
                exact .labelled legal form
        · cases labelled
          rw [texts]
          exact .plain form
    · cases labelled
      rw [texts]
      exact .plain form
  · intro parts
    obtain ⟨rfl, form⟩ := parts
    generalize texts : tokens.map Token.text = words at form
    cases form with
    | @plain words operation form =>
        refine ⟨none, tokens, ?_,
          (operation_eq_ok_iff line none tokens [] _).mpr
            ⟨rfl, words, operation, texts, form, rfl⟩⟩
        unfold label
        split
        · next name colon rest =>
            rw [List.map_cons, List.map_cons, List.cons.injEq] at texts
            have second : colon.text ≠ ":" := by
              rw [← texts.2] at form
              exact head_ne_colon form
            rw [if_neg second]
        · rfl
    | @labelled carried words operation legal form =>
        obtain ⟨name, others, rfl, rfl, otherTexts⟩ :=
          List.map_eq_cons_iff.mp texts
        obtain ⟨colon, rest, rfl, isColon, restTexts⟩ :=
          List.map_eq_cons_iff.mp otherTexts
        refine ⟨some name.text, rest, ?_,
          (operation_eq_ok_iff line _ rest [] _).mpr
            ⟨rfl, words, operation, restTexts, form, rfl⟩⟩
        have accepted := (readLabel_eq_ok_iff name.text (some name.place)
          name.text).mpr ⟨legal, rfl⟩
        simp only [label, isColon, if_true, accepted]

end Reader

end Source
end RegisterMachine
