/-
Register assignments as a grammar.

Reading accepts exactly the texts of this form, each as the register named and
the word written.
-/

import Mathlib.Data.List.DropRight
import RegisterMachine.CommandLine.Assignment
import RegisterMachine.Proofs.Rendering

namespace RegisterMachine

namespace Text

/-! ### Blanks at both ends -/

def IsBlanks (text : List Char) : Prop :=
  ∀ c ∈ text, isBlank c = true

theorem dropWhile_blanks {blanks : List Char} (blank : IsBlanks blanks) :
    blanks.dropWhile isBlank = [] :=
  List.dropWhile_eq_nil_iff.mpr blank

theorem dropWhile_blanks_append {blanks : List Char} (blank : IsBlanks blanks)
    {c : Char} (visible : isBlank c = false) (rest : List Char) :
    (blanks ++ c :: rest).dropWhile isBlank = c :: rest := by
  have stays : ¬ isBlank c = true := by
    rw [visible]
    exact Bool.false_ne_true
  rw [List.dropWhile_append_of_pos blank, List.dropWhile_cons_of_neg stays]

theorem exists_blanks_around_trim (text : List Char) :
    ∃ front back, IsBlanks front ∧ IsBlanks back ∧
      text = front ++ (trim text ++ back) := by
  refine ⟨text.takeWhile isBlank, (text.dropWhile isBlank).rtakeWhile isBlank,
    ?_, ?_, ?_⟩
  · intro c member
    exact List.mem_takeWhile_imp member
  · intro c member
    exact List.mem_rtakeWhile_imp member
  · have kept : trim text = (text.dropWhile isBlank).rdropWhile isBlank := rfl
    rw [kept, List.rdropWhile_append_rtakeWhile, List.takeWhile_append_dropWhile]

/-- Trimming takes all blanks around a word that has none inside. -/
theorem trim_blanks_around {front back word : List Char}
    (blankFront : IsBlanks front) (blankBack : IsBlanks back)
    (visible : ∀ c ∈ word, isBlank c = false) :
    trim (front ++ (word ++ back)) = word := by
  unfold trim
  cases word with
  | nil =>
      rw [List.nil_append, List.dropWhile_append_of_pos blankFront,
        dropWhile_blanks blankBack]
      rfl
  | cons first rest =>
      have firstVisible := visible first List.mem_cons_self
      rw [List.cons_append, dropWhile_blanks_append blankFront firstVisible,
        ← List.cons_append, List.reverse_append]
      -- from the right, the first visible character is the last of the word
      have blankReverse : IsBlanks back.reverse := by
        intro c member
        exact blankBack c (List.mem_reverse.mp member)
      cases turned : (first :: rest).reverse with
      | nil => exact absurd turned (by simp)
      | cons last others =>
          have lastMember : last ∈ first :: rest := by
            rw [← List.mem_reverse, turned]
            exact List.mem_cons_self
          rw [dropWhile_blanks_append blankReverse (visible last lastMember),
            ← turned, List.reverse_reverse]

end Text

namespace Source

/-! ### Words without blanks -/

theorem isNameRest_of_mem_name (register : Register) :
    ∀ letter ∈ register.name.toList,
      isNameRest letter = true ∧ isNameRest letter.toLower = true := by
  have listed : (register.name.toList.all fun letter =>
      isNameRest letter && isNameRest letter.toLower) = true := by
    cases register <;> decide
  intro letter member
  exact Bool.and_eq_true_iff.mp (List.all_eq_true.mp listed letter member)

theorem isPlainChar_of_namesRegister {name : String} {register : Register}
    (named : NamesRegister name register) :
    ∀ c ∈ name.toList, IsPlainChar c := by
  intro c member
  have letter : c.toUpper ∈ register.name.toList := by
    rw [(namesRegister_iff name register).mp named]
    exact List.mem_map_of_mem member
  have plain := isNameRest_of_mem_name register c.toUpper letter
  have capital := isUpper_of_mem_name register c.toUpper letter
  rcases (toUpper_eq_iff capital c).mp rfl with same | small
  · rw [same]
    exact .inl plain.1
  · rw [small]
    exact .inl plain.2

theorem isPlainChar_of_isLiteral {literal : List Char} {value : Int32}
    (written : Text.IsLiteral literal value) : ∀ c ∈ literal, IsPlainChar c := by
  have word : IsPlainWord (String.ofList literal) := by
    apply isPlainWord_of_isLiteral
    rw [String.toList_ofList]
    exact written
  have plain := word.2
  rw [String.toList_ofList] at plain
  exact plain

end Source

namespace CommandLine

open Source Text

/-! ### The form of an assignment -/

inductive AssignmentForm : List Char → Register → Int32 → Prop where
  | assign {before after ahead behind literal : List Char} {name : String}
      {register : Register} {value : Int32}
      (blankBefore : IsBlanks before) (named : NamesRegister name register)
      (blankAfter : IsBlanks after) (blankAhead : IsBlanks ahead)
      (written : IsLiteral literal value) (blankBehind : IsBlanks behind) :
      AssignmentForm
        (before ++ (name.toList ++ after) ++
          '=' :: (ahead ++ (literal ++ behind)))
        register value

/-! ### The two sides -/

theorem splitEquals?_eq_some_iff (text left right : List Char) :
    splitEquals? text = some (left, right) ↔
      '=' ∉ left ∧ text = left ++ '=' :: right := by
  unfold splitEquals?
  constructor
  · intro divided
    by_cases marked : '=' ∈ text
    · obtain ⟨front, after, split, absent⟩ := List.eq_append_cons_of_mem marked
      subst split
      rw [dropWhile_before_mark absent, takeWhile_before_mark absent] at divided
      simp only [Option.some.injEq, Prod.mk.injEq] at divided
      obtain ⟨rfl, rfl⟩ := divided
      exact ⟨absent, rfl⟩
    · rw [List.dropWhile_eq_nil_iff.mpr (ne_mark_of_not_mem marked)] at divided
      contradiction
  · intro parts
    obtain ⟨absent, rfl⟩ := parts
    rw [dropWhile_before_mark absent, takeWhile_before_mark absent]

/-- Reading succeeds with the register that the left side names and the word
that the right side is a literal of, both sides without their outer blanks. -/
theorem readAssignment_eq_ok_iff_sides (text : String) (register : Register)
    (value : Int32) :
    readAssignment text = .ok (register, value) ↔
      ∃ left right, splitEquals? text.toList = some (left, right) ∧
        NamesRegister (String.ofList (trim left)) register ∧
          IsLiteral (trim right) value := by
  unfold readAssignment
  cases divided : splitEquals? text.toList with
  | none => simp
  | some sides =>
      obtain ⟨left, right⟩ := sides
      have registers := readRegister_eq_ok_iff (String.ofList (trim left)) none
      have words := readWord_eq_ok_iff (trim right)
      have only (claim : List Char → List Char → Prop) :
          (∃ first second, some (left, right) = some (first, second) ∧
            claim first second) ↔ claim left right := by
        simp
      rw [only, ← registers, ← words]
      dsimp only
      cases readRegister (String.ofList (trim left)) none with
      | error fault => simp
      | ok named => cases readWord (trim right) <;> simp

/-! ### Reading an assignment -/

theorem equals_not_mem_side {before after : List Char} {name : String}
    {register : Register} (blankBefore : IsBlanks before)
    (named : NamesRegister name register) (blankAfter : IsBlanks after) :
    '=' ∉ before ++ (name.toList ++ after) := by
  have noBlank : isBlank '=' = false := by decide
  have notPlain : ¬ IsPlainChar '=' := by
    unfold IsPlainChar
    decide
  intro member
  rw [List.mem_append, List.mem_append] at member
  rcases member with inFront | inName | behind
  · have blank := blankBefore '=' inFront
    rw [noBlank] at blank
    contradiction
  · exact notPlain (isPlainChar_of_namesRegister named '=' inName)
  · have blank := blankAfter '=' behind
    rw [noBlank] at blank
    contradiction

theorem readAssignment_eq_ok_iff_form (text : String) (register : Register)
    (value : Int32) :
    readAssignment text = .ok (register, value) ↔
      AssignmentForm text.toList register value := by
  rw [readAssignment_eq_ok_iff_sides]
  constructor
  · intro parts
    obtain ⟨left, right, divided, named, written⟩ := parts
    obtain ⟨_, joined⟩ := (splitEquals?_eq_some_iff _ _ _).mp divided
    obtain ⟨before, after, blankBefore, blankAfter, leftSide⟩ :=
      exists_blanks_around_trim left
    obtain ⟨ahead, behind, blankAhead, blankBehind, rightSide⟩ :=
      exists_blanks_around_trim right
    have form := AssignmentForm.assign blankBefore named blankAfter blankAhead
      written blankBehind
    rw [String.toList_ofList, ← leftSide, ← rightSide, ← joined] at form
    exact form
  · intro form
    generalize characters : text.toList = whole at form
    cases form with
    | @assign before after ahead behind literal name _ _ blankBefore named
        blankAfter blankAhead written blankBehind =>
        refine ⟨before ++ (name.toList ++ after), ahead ++ (literal ++ behind),
          ?_, ?_, ?_⟩
        · rw [splitEquals?_eq_some_iff]
          exact ⟨equals_not_mem_side blankBefore named blankAfter, rfl⟩
        · rw [trim_blanks_around blankBefore blankAfter, String.ofList_toList]
          · exact named
          · intro c member
            have plain := isPlainChar_of_namesRegister named c member
            exact isBlank_of_isWordChar plain.isWordChar
        · rw [trim_blanks_around blankAhead blankBehind]
          · exact written
          · intro c member
            have plain := isPlainChar_of_isLiteral written c member
            exact isBlank_of_isWordChar plain.isWordChar

theorem assignmentForm_written (register : Register) (value : Int32) :
    AssignmentForm (register.name ++ "=" ++ writeWord value).toList register
      value := by
  have noBlanks : IsBlanks [] := by
    intro c member
    contradiction
  have form := AssignmentForm.assign noBlanks (namesRegister_name register) noBlanks
    noBlanks (isLiteral_writeWord value) noBlanks
  simpa using form

/-- Reading accepts exactly the assignments, each as the register named and the
word written.  The name of a register, an equals sign and the numeral of a word
are read back as this register and this word. -/
theorem readAssignment_accepts_assignments :
    (∀ text register value, readAssignment text = .ok (register, value) ↔
      AssignmentForm text.toList register value) ∧
    ∀ register value,
      readAssignment (register.name ++ "=" ++ writeWord value) =
        .ok (register, value) := by
  refine ⟨readAssignment_eq_ok_iff_form, ?_⟩
  intro register value
  rw [readAssignment_eq_ok_iff_form]
  exact assignmentForm_written register value

end CommandLine
end RegisterMachine
