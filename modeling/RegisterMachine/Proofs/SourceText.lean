/-
How a source text falls apart: into lines, and each line into words.

Both rules are stated as relations that say nothing about the order in which
characters are looked at.
-/

import Mathlib.Data.List.TakeWhile
import RegisterMachine.Source.Token
import RegisterMachine.Text.Line

namespace RegisterMachine

namespace Text

/-! ### Runs -/

theorem takeWhile_eq_nil_of_head {p : Char → Bool} {rest : List Char}
    (ends : ∀ c ∈ rest.head?, p c = false) : rest.takeWhile p = [] := by
  cases rest with
  | nil => rfl
  | cons c later => simp [ends c rfl]

theorem dropWhile_eq_self_of_head {p : Char → Bool} {rest : List Char}
    (ends : ∀ c ∈ rest.head?, p c = false) : rest.dropWhile p = rest := by
  cases rest with
  | nil => rfl
  | cons c later => simp [ends c rfl]

theorem append_inj_of_run {p : Char → Bool} {front twin rest other : List Char}
    (inFront : ∀ c ∈ front, p c = true) (inTwin : ∀ c ∈ twin, p c = true)
    (ends : ∀ c ∈ rest.head?, p c = false) (endsOther : ∀ c ∈ other.head?, p c = false)
    (same : front ++ rest = twin ++ other) : front = twin ∧ rest = other := by
  have taken := congrArg (List.takeWhile p) same
  rw [List.takeWhile_append_of_pos inFront, List.takeWhile_append_of_pos inTwin,
    takeWhile_eq_nil_of_head ends, takeWhile_eq_nil_of_head endsOther,
    List.append_nil, List.append_nil] at taken
  rw [taken] at same
  exact ⟨taken, List.append_cancel_left same⟩

section Marks

variable {mark : Char} {front : List Char}

theorem ne_mark_of_not_mem (absent : mark ∉ front) :
    ∀ c ∈ front, (c != mark) = true := by
  intro c member
  simpa using ne_of_mem_of_not_mem member absent

theorem takeWhile_before_mark (absent : mark ∉ front) (rest : List Char) :
    (front ++ mark :: rest).takeWhile (· != mark) = front := by
  rw [List.takeWhile_append_of_pos (ne_mark_of_not_mem absent)]
  simp

theorem dropWhile_before_mark (absent : mark ∉ front) (rest : List Char) :
    (front ++ mark :: rest).dropWhile (· != mark) = mark :: rest := by
  rw [List.dropWhile_append_of_pos (ne_mark_of_not_mem absent)]
  simp

end Marks

/-! ### Lines -/

/-- A carriage return directly before the line feed belongs to the ending; what follows
the last line feed is a line of its own unless it is empty. -/
inductive HasLines : List Char → List (List Char) → Prop where
  | done : HasLines [] []
  | unended {line : List Char} (nonempty : line ≠ [])
      (single : '\n' ∉ line) : HasLines line [line]
  | feed {line rest : List Char} {others : List (List Char)}
      (single : '\n' ∉ line) (bare : line.getLast? ≠ some '\r')
      (below : HasLines rest others) :
      HasLines (line ++ '\n' :: rest) (line :: others)
  | returnFeed {line rest : List Char} {others : List (List Char)}
      (single : '\n' ∉ line) (below : HasLines rest others) :
      HasLines (line ++ '\r' :: '\n' :: rest) (line :: others)

theorem lines_of_not_mem {text : List Char} (single : '\n' ∉ text) :
    lines text = openLine text := by
  unfold lines
  rw [List.splitOn_eq_singleton single]
  rfl

theorem lines_append_feed {line : List Char} (single : '\n' ∉ line)
    (rest : List Char) :
    lines (line ++ '\n' :: rest) = dropReturn line :: lines rest := by
  unfold lines
  rw [List.splitOn_append_cons_self_of_not_mem single]
  cases pieces : rest.splitOn '\n' with
  | nil => exact absurd pieces (List.splitOn_ne_nil '\n' rest)
  | cons piece others => simp

theorem dropReturn_of_getLast?_ne {line : List Char}
    (bare : line.getLast? ≠ some '\r') : dropReturn line = line := by
  unfold dropReturn
  rw [if_neg bare]

theorem dropReturn_append (line : List Char) :
    dropReturn (line ++ ['\r']) = line := by
  simp [dropReturn]

theorem hasLines_lines (text : List Char) : HasLines text (lines text) := by
  induction measure : text.length using Nat.strong_induction_on generalizing text with
  | _ size ih =>
      by_cases ended : '\n' ∈ text
      · obtain ⟨line, rest, equality, single⟩ :=
          List.eq_append_cons_of_mem ended
        subst equality
        rw [lines_append_feed single]
        have below : HasLines rest (lines rest) := by
          refine ih rest.length ?_ rest rfl
          rw [← measure, List.length_append, List.length_cons]
          omega
        by_cases returned : line.getLast? = some '\r'
        · obtain ⟨front, split⟩ := List.getLast?_eq_some_iff.mp returned
          subst split
          rw [dropReturn_append, List.append_assoc]
          refine .returnFeed ?_ below
          intro inside
          exact single (List.mem_append_left ['\r'] inside)
        · rw [dropReturn_of_getLast?_ne returned]
          exact .feed single returned below
      · rw [lines_of_not_mem ended]
        cases text with
        | nil => exact .done
        | cons c rest => exact .unended (List.cons_ne_nil c rest) ended

theorem hasLines_iff (text : List Char) (found : List (List Char)) :
    HasLines text found ↔ lines text = found := by
  constructor
  · intro known
    induction known with
    | done => exact lines_nil
    | unended nonempty single =>
        rw [lines_of_not_mem single, openLine, if_neg]
        simpa using nonempty
    | feed single bare _ ih =>
        rw [lines_append_feed single, dropReturn_of_getLast?_ne bare, ih]
    | @returnFeed line rest others single _ ih =>
        have ended : '\n' ∉ line ++ ['\r'] := by
          simpa using single
        have regroup : line ++ '\r' :: '\n' :: rest =
            (line ++ ['\r']) ++ '\n' :: rest := by
          simp
        rw [regroup, lines_append_feed ended, dropReturn_append, ih]
  · intro equality
    rw [← equality]
    exact hasLines_lines text

end Text

namespace Source

/-! ### Characters of words -/

theorem isWordChar_colon : isWordChar ':' = false := by
  simp [isWordChar]

theorem isWordChar_of_isBlank {c : Char} (separates : Text.isBlank c = true) :
    isWordChar c = false := by
  simp [isWordChar, separates]

theorem isBlank_of_isWordChar {c : Char} (inWord : isWordChar c = true) :
    Text.isBlank c = false := by
  rw [isWordChar, Bool.not_eq_true', Bool.or_eq_false_iff] at inWord
  exact inWord.1

/-! ### Words -/

def IsUncommented (line body : List Char) : Prop :=
  '#' ∉ body ∧ (line = body ∨ ∃ comment, line = body ++ '#' :: comment)

/-- A colon is a word, a longest run of characters that are neither blanks nor colons is
a word, and blanks belong to no word. -/
inductive HasWords : List Char → List String → Prop where
  | done : HasWords [] []
  | blank {c : Char} {rest : List Char} {words : List String}
      (separates : Text.isBlank c = true) (after : HasWords rest words) :
      HasWords (c :: rest) words
  | colon {rest : List Char} {words : List String}
      (after : HasWords rest words) : HasWords (':' :: rest) (":" :: words)
  | run {characters rest : List Char} {words : List String}
      (nonempty : characters ≠ [])
      (inside : ∀ c ∈ characters, isWordChar c = true)
      (longest : ∀ c ∈ rest.head?, isWordChar c = false)
      (after : HasWords rest words) :
      HasWords (characters ++ rest) (String.ofList characters :: words)

def LineHasWords (line : List Char) (words : List String) : Prop :=
  ∃ body, IsUncommented line body ∧ HasWords body words

theorem isUncommented_iff (line body : List Char) :
    IsUncommented line body ↔ uncommented line = body := by
  unfold IsUncommented uncommented
  constructor
  · intro parts
    obtain ⟨clean, shape⟩ := parts
    rcases shape with whole | ⟨comment, split⟩
    · subst whole
      rw [List.takeWhile_eq_self_iff]
      exact Text.ne_mark_of_not_mem clean
    · subst split
      exact Text.takeWhile_before_mark clean comment
  · intro equality
    subst equality
    by_cases commented : '#' ∈ line
    · obtain ⟨body, comment, split, clean⟩ :=
        List.eq_append_cons_of_mem commented
      subst split
      rw [Text.takeWhile_before_mark clean]
      exact ⟨clean, .inr ⟨comment, rfl⟩⟩
    · rw [List.takeWhile_eq_self_iff.mpr (Text.ne_mark_of_not_mem commented)]
      exact ⟨commented, .inl rfl⟩

/-! ### Scanning -/

/-- The induction is on the length, since a word takes many characters at once. -/
theorem scanOnto_eq_append (line : Nat) (found : List Token) (column : Nat)
    (text : List Char) :
    scanOnto line found column text =
      found.reverse ++ scanOnto line [] column text := by
  induction measure : text.length using Nat.strong_induction_on
    generalizing found column text with
  | _ size ih =>
      cases text with
      | nil => simp [scanOnto]
      | cons c rest =>
          rw [List.length_cons] at measure
          have shorter : (rest.dropWhile isWordChar).length < size := by
            have bound := (List.dropWhile_suffix (l := rest) isWordChar).length_le
            omega
          rw [scanOnto, scanOnto]
          by_cases separates : Text.isBlank c = true
          · rw [if_pos separates, if_pos separates]
            exact ih rest.length (by omega) found (column + 1) rest rfl
          · rw [if_neg separates, if_neg separates]
            by_cases colon : (c == ':') = true
            · rw [if_pos colon, if_pos colon,
                ih rest.length (by omega) (_ :: found) (column + 1) rest rfl,
                ih rest.length (by omega) [_] (column + 1) rest rfl]
              simp
            · rw [if_neg colon, if_neg colon, ih _ shorter (_ :: found) _ _ rfl,
                ih _ shorter [_] _ _ rfl]
              simp

@[simp] theorem scanOnto_nil (line column : Nat) :
    scanOnto line [] column [] = [] := by
  simp [scanOnto]

theorem scanOnto_blank (line column : Nat) {c : Char} (rest : List Char)
    (separates : Text.isBlank c = true) :
    scanOnto line [] column (c :: rest) =
      scanOnto line [] (column + 1) rest := by
  rw [scanOnto, if_pos separates]

theorem scanOnto_colon (line column : Nat) (rest : List Char) :
    scanOnto line [] column (':' :: rest) =
      ⟨":", ⟨line, column⟩⟩ :: scanOnto line [] (column + 1) rest := by
  have notBlank : ¬ Text.isBlank ':' = true := by decide
  rw [scanOnto, if_neg notBlank, if_pos (beq_self_eq_true ':'),
    scanOnto_eq_append]
  rfl

theorem scanOnto_run (line column : Nat) {characters rest : List Char}
    (nonempty : characters ≠ [])
    (inside : ∀ c ∈ characters, isWordChar c = true)
    (longest : ∀ c ∈ rest.head?, isWordChar c = false) :
    scanOnto line [] column (characters ++ rest) =
      ⟨String.ofList characters, ⟨line, column⟩⟩ ::
        scanOnto line [] (column + characters.length) rest := by
  cases characters with
  | nil => exact absurd rfl nonempty
  | cons c others =>
      have first : isWordChar c = true := inside c List.mem_cons_self
      have notBlank : ¬ Text.isBlank c = true :=
        Bool.not_eq_true _ |>.mpr (isBlank_of_isWordChar first)
      have notColon : ¬ (c == ':') = true := by
        intro colon
        simp [isWordChar, colon] at first
      have remaining : ∀ d ∈ others, isWordChar d = true :=
        fun d member => inside d (List.mem_cons_of_mem c member)
      rw [List.cons_append, scanOnto, if_neg notBlank, if_neg notColon,
        List.takeWhile_append_of_pos remaining,
        Text.takeWhile_eq_nil_of_head longest, List.append_nil,
        List.dropWhile_append_of_pos remaining,
        Text.dropWhile_eq_self_of_head longest, scanOnto_eq_append]
      rfl

theorem map_scanOnto_of_hasWords {text : List Char} {words : List String}
    (known : HasWords text words) (line column : Nat) :
    (scanOnto line [] column text).map Token.text = words := by
  induction known generalizing column with
  | done => simp
  | blank separates _ ih => rw [scanOnto_blank line column _ separates, ih]
  | colon _ ih => rw [scanOnto_colon, List.map_cons, ih]
  | run nonempty inside longest _ ih =>
      rw [scanOnto_run line column nonempty inside longest, List.map_cons, ih]

theorem exists_hasWords (text : List Char) : ∃ words, HasWords text words := by
  induction measure : text.length using Nat.strong_induction_on generalizing text with
  | _ size ih =>
      cases text with
      | nil => exact ⟨[], .done⟩
      | cons c rest =>
          rw [List.length_cons] at measure
          by_cases separates : Text.isBlank c = true
          · obtain ⟨words, after⟩ := ih rest.length (by omega) rest rfl
            exact ⟨words, .blank separates after⟩
          · by_cases colon : c = ':'
            · subst colon
              obtain ⟨words, after⟩ := ih rest.length (by omega) rest rfl
              exact ⟨":" :: words, .colon after⟩
            · have shorter : (rest.dropWhile isWordChar).length < size := by
                have bound :=
                  (List.dropWhile_suffix (l := rest) isWordChar).length_le
                omega
              obtain ⟨words, after⟩ := ih _ shorter _ rfl
              have split : c :: rest =
                  (c :: rest.takeWhile isWordChar) ++
                    rest.dropWhile isWordChar := by
                rw [List.cons_append, List.takeWhile_append_dropWhile]
              rw [split]
              refine ⟨_, .run (List.cons_ne_nil _ _) ?_ ?_ after⟩
              · intro d member
                rcases List.mem_cons.mp member with first | later
                · subst first
                  simp [isWordChar, separates, colon]
                · exact List.mem_takeWhile_imp later
              · intro d stops
                have stopped := List.head?_dropWhile_not isWordChar rest
                rw [Option.mem_def.mp stops] at stopped
                exact stopped

theorem lineHasWords_iff (number : Nat) (line : List Char)
    (words : List String) :
    LineHasWords line words ↔ (scan number line).map Token.text = words := by
  unfold scan
  constructor
  · intro parts
    obtain ⟨body, before, known⟩ := parts
    rw [(isUncommented_iff line body).mp before]
    exact map_scanOnto_of_hasWords known number 1
  · intro equality
    obtain ⟨known, has⟩ := exists_hasWords (uncommented line)
    have same : known = words := by
      rw [← map_scanOnto_of_hasWords has number 1]
      exact equality
    rw [← same]
    exact ⟨uncommented line, (isUncommented_iff line _).mpr rfl, has⟩

theorem exists_lineHasWords (line : List Char) :
    ∃ words, LineHasWords line words :=
  ⟨_, (lineHasWords_iff 1 line _).mpr rfl⟩

theorem lineHasWords_unique {line : List Char} {left right : List String}
    (leftHas : LineHasWords line left) (rightHas : LineHasWords line right) :
    left = right := by
  rw [← (lineHasWords_iff 1 line left).mp leftHas,
    (lineHasWords_iff 1 line right).mp rightHas]

end Source
end RegisterMachine
