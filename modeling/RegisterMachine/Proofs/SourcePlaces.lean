/-
Where the words of a source line stand, and what of a line is never looked at.

The column of a token is true: as many characters of the line stand before the word
as the column says, and the word goes as far as it can to both sides.
-/

import RegisterMachine.Proofs.SourceText

namespace RegisterMachine

namespace Source

/-! ### Columns -/

/-- A colon or a longest run of word characters stands in a text, after the
given number of characters. -/
def WordAt (text : List Char) (word : String) (offset : Nat) : Prop :=
  ∃ before rest, text = before ++ (word.toList ++ rest) ∧
    before.length = offset ∧
      (word = ":" ∨
        (word.toList ≠ [] ∧ (∀ c ∈ word.toList, isWordChar c = true) ∧
          (∀ c ∈ before.getLast?, isWordChar c = false) ∧
            ∀ c ∈ rest.head?, isWordChar c = false))

/-- A word of a line, outside of its comment; columns are counted from one. -/
def TokenAt (line : List Char) (word : String) (column : Nat) : Prop :=
  ∃ body offset, IsUncommented line body ∧ WordAt body word offset ∧
    column = offset + 1

/-- The front ends where no run of word characters goes on. -/
theorem WordAt.append_left {text : List Char} {word : String} {offset : Nat}
    (stands : WordAt text word offset) (front : List Char)
    (apart : (∀ c ∈ front.getLast?, isWordChar c = false) ∨
      ∀ c ∈ text.head?, isWordChar c = false) :
    WordAt (front ++ text) word (front.length + offset) := by
  obtain ⟨before, rest, split, length, shape⟩ := stands
  refine ⟨front ++ before, rest, ?_, ?_, ?_⟩
  · rw [split, List.append_assoc]
  · rw [List.length_append, length]
  · rcases shape with colon | run
    · exact .inl colon
    · obtain ⟨nonempty, inside, left, right⟩ := run
      refine .inr ⟨nonempty, inside, ?_, right⟩
      rw [List.getLast?_append]
      cases before with
      | cons c others => simpa using left
      | nil =>
          rcases apart with ends | begins
          · simpa using ends
          · -- then the word itself begins with a character of no word
            rw [split, List.nil_append, List.head?_append] at begins
            cases characters : word.toList with
            | nil => exact absurd characters nonempty
            | cons c others =>
                rw [characters] at begins inside
                have outside := begins c rfl
                rw [inside c List.mem_cons_self] at outside
                cases outside

theorem WordAt.cons {text : List Char} {word : String} {offset : Nat}
    (stands : WordAt text word offset) {c : Char}
    (outside : isWordChar c = false) :
    WordAt (c :: text) word (offset + 1) := by
  have behind := stands.append_left [c] (.inl (by simpa using outside))
  rw [List.length_singleton, Nat.add_comm] at behind
  exact behind

theorem wordAt_of_mem_scanOnto {text : List Char} {words : List String}
    (known : HasWords text words) (line column : Nat) {token : Token}
    (member : token ∈ scanOnto line [] column text) :
    ∃ offset, WordAt text token.text offset ∧
      token.place = ⟨line, column + offset⟩ := by
  induction known generalizing column with
  | done =>
      rw [scanOnto_nil] at member
      contradiction
  | @blank c rest words separates _ ih =>
      rw [scanOnto_blank line column _ separates] at member
      obtain ⟨offset, stands, place⟩ := ih (column + 1) member
      refine ⟨offset + 1, stands.cons (isWordChar_of_isBlank separates), ?_⟩
      rw [place, Nat.add_assoc, Nat.add_comm 1]
  | @colon rest words _ ih =>
      rw [scanOnto_colon] at member
      rcases List.mem_cons.mp member with first | later
      · rw [first]
        exact ⟨0, ⟨[], rest, by simp, rfl, .inl rfl⟩, rfl⟩
      · obtain ⟨offset, stands, place⟩ := ih (column + 1) later
        refine ⟨offset + 1, stands.cons isWordChar_colon, ?_⟩
        rw [place, Nat.add_assoc, Nat.add_comm 1]
  | @run characters rest words nonempty inside longest _ ih =>
      rw [scanOnto_run line column nonempty inside longest] at member
      rcases List.mem_cons.mp member with first | later
      · rw [first]
        refine ⟨0, ⟨[], rest, ?_, rfl, .inr ⟨?_, ?_, ?_, longest⟩⟩, rfl⟩
        · rw [String.toList_ofList, List.nil_append]
        · rw [String.toList_ofList]
          exact nonempty
        · rw [String.toList_ofList]
          exact inside
        · simp
      · obtain ⟨offset, stands, place⟩ := ih (column + characters.length) later
        refine ⟨characters.length + offset,
          stands.append_left characters (.inr longest), ?_⟩
        rw [place, Nat.add_assoc]

theorem tokenAt_of_mem_scan {number : Nat} {line : List Char} {token : Token}
    (member : token ∈ scan number line) :
    ∃ column, TokenAt line token.text column ∧
      token.place = ⟨number, column⟩ := by
  obtain ⟨words, known⟩ := exists_hasWords (uncommented line)
  obtain ⟨offset, stands, place⟩ :=
    wordAt_of_mem_scanOnto known number 1 member
  refine ⟨offset + 1, ⟨uncommented line, offset, ?_, stands, rfl⟩, ?_⟩
  · exact (isUncommented_iff line _).mpr rfl
  · rw [place, Nat.add_comm]

/-! ### The end of a line -/

theorem scanOnto_append_blank {text : List Char} {words : List String}
    (known : HasWords text words) (line column : Nat) {c : Char}
    (separates : Text.isBlank c = true) :
    scanOnto line [] column (text ++ [c]) = scanOnto line [] column text := by
  induction known generalizing column with
  | done =>
      rw [List.nil_append, scanOnto_blank line column [] separates,
        scanOnto_nil, scanOnto_nil]
  | blank first _ ih =>
      rw [List.cons_append, scanOnto_blank line column _ first,
        scanOnto_blank line column _ first, ih]
  | colon _ ih => rw [List.cons_append, scanOnto_colon, scanOnto_colon, ih]
  | @run characters rest words nonempty inside longest _ ih =>
      have stillLongest : ∀ d ∈ (rest ++ [c]).head?, isWordChar d = false := by
        cases rest with
        | nil => simp [isWordChar_of_isBlank separates]
        | cons d tail => exact longest
      rw [List.append_assoc, scanOnto_run line column nonempty inside
        stillLongest, scanOnto_run line column nonempty inside longest, ih]

theorem scan_append_blank (number : Nat) (line : List Char) {c : Char}
    (separates : Text.isBlank c = true) :
    scan number (line ++ [c]) = scan number line := by
  have noSign : (c != '#') = true := by
    rw [bne_iff_ne]
    intro sign
    subst sign
    revert separates
    decide
  unfold scan uncommented
  rw [List.takeWhile_append]
  split
  · next whole =>
      have clean := List.IsPrefix.eq_of_length
        (List.takeWhile_prefix (· != '#')) whole
      obtain ⟨words, known⟩ := exists_hasWords line
      have kept : List.takeWhile (· != '#') [c] = [c] := by
        simp [noSign]
      rw [clean, kept]
      exact scanOnto_append_blank known number 1 separates
  · rfl

/-- A carriage return at the end of a line is a blank, whatever it belongs to. -/
theorem scan_dropReturn (number : Nat) (line : List Char) :
    scan number (Text.dropReturn line) = scan number line := by
  by_cases returned : line.getLast? = some '\r'
  · obtain ⟨front, split⟩ := List.getLast?_eq_some_iff.mp returned
    have blank : Text.isBlank '\r' = true := by decide
    rw [split, Text.dropReturn_append, scan_append_blank number front blank]
  · rw [Text.dropReturn_of_getLast?_ne returned]

end Source

namespace Text

/-! ### Lines joined again -/

theorem HasLines.not_mem {text : List Char} {found : List (List Char)}
    (known : HasLines text found) {line : List Char} (member : line ∈ found) :
    '\n' ∉ line := by
  induction known with
  | done => contradiction
  | unended _ single =>
      rw [List.mem_singleton.mp member]
      exact single
  | feed single _ _ ih | returnFeed single _ ih =>
      rcases List.mem_cons.mp member with first | later
      · rw [first]
        exact single
      · exact ih later

theorem intercalate_cons_sublist (separator line : List Char)
    (others : List (List Char)) :
    (List.intercalate separator (line :: others)).Sublist
      (line ++ (separator ++ List.intercalate separator others)) := by
  cases others with
  | nil =>
      rw [List.intercalate_singleton]
      exact List.sublist_append_left _ _
  | cons other rest =>
      have same : List.intercalate separator (line :: other :: rest) =
          line ++ (separator ++ List.intercalate separator (other :: rest)) := by
        rw [List.intercalate_cons_cons, List.append_assoc]
      exact same ▸ List.Sublist.refl _

theorem HasLines.join_take_sublist {text : List Char}
    {found : List (List Char)} (known : HasLines text found) (count : Nat) :
    (List.intercalate ['\n'] (found.take count)).Sublist text := by
  induction known generalizing count with
  | done => simp
  | unended _ _ =>
      cases count with
      | zero => simp
      | succ count => simp
  | @feed line rest others _ _ _ ih =>
      cases count with
      | zero => simp
      | succ count =>
          refine (intercalate_cons_sublist ['\n'] line _).trans ?_
          exact ((ih count).cons_cons '\n').append_left line
  | @returnFeed line rest others _ _ ih =>
      cases count with
      | zero => simp
      | succ count =>
          refine (intercalate_cons_sublist ['\n'] line _).trans ?_
          exact (((ih count).cons_cons '\n').cons '\r').append_left line

theorem utf8ByteSize_le_of_sublist {left right : List Char}
    (part : left.Sublist right) :
    (String.ofList left).utf8ByteSize ≤ (String.ofList right).utf8ByteSize := by
  have size (c : Char) (others : List Char) :
      (String.ofList (c :: others)).utf8ByteSize =
        [c].utf8Encode.size + (String.ofList others).utf8ByteSize := by
    rw [← String.size_toByteArray, ← String.size_toByteArray,
      String.toByteArray_ofList, String.toByteArray_ofList,
      List.utf8Encode_cons, ByteArray.size_append]
  induction part with
  | slnil => exact Nat.le_refl _
  | cons c _ ih =>
      rw [size]
      omega
  | cons_cons c _ ih =>
      rw [size, size]
      omega

end Text
end RegisterMachine
