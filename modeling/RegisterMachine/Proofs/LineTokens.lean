/-
The tokens of a line, all of them and each in its place.

Scanning finds every colon and every longest run of word characters outside of the
comment, and this determines the list of tokens.  The same list is found by reading
the line one character after the other with a word that has begun and not yet
ended.
-/

import Mathlib.Data.List.Sort
import RegisterMachine.Proofs.SourcePlaces

namespace RegisterMachine
namespace Source

/-! ### What the tokens of a line are -/

def Token.endColumn (token : Token) : Nat :=
  token.place.column + token.text.length

theorem Token.endColumn_ofList (characters : List Char) (place : Place) :
    Token.endColumn ⟨String.ofList characters, place⟩ =
      place.column + characters.length := by
  rw [endColumn, String.length_ofList]

theorem Token.endColumn_colon (place : Place) :
    Token.endColumn ⟨":", place⟩ = place.column + 1 :=
  Token.endColumn_ofList [':'] place

/-- The tokens of a line: every colon and every longest run of word characters
before the comment, each with its column, from left to right. -/
structure TokensOf (number : Nat) (line : List Char) (tokens : List Token) :
    Prop where
  exact : ∀ token, token ∈ tokens ↔
    token.place.line = number ∧ TokenAt line token.text token.place.column
  rising : tokens.Pairwise fun first later =>
    first.place.column < later.place.column

/-- No character of a line is lost or taken twice by its tokens. -/
structure SplitsLine (line : List Char) (tokens : List Token) : Prop where
  nonempty : ∀ token ∈ tokens, token.text ≠ ""
  visible : ∀ token ∈ tokens, ∀ c ∈ token.text.toList,
    Text.isBlank c = false ∧ c ≠ '#'
  single : ∀ token ∈ tokens, ':' ∈ token.text.toList → token.text = ":"
  content : ∀ token ∈ tokens, 1 ≤ token.place.column ∧
    token.text.toList <+: line.drop (token.place.column - 1)
  apart : tokens.Pairwise fun first later =>
    first.endColumn ≤ later.place.column
  rest : ∀ body, IsUncommented line body → ∀ position c,
    body[position]? = some c →
      (∀ token ∈ tokens, ¬ (token.place.column ≤ position + 1 ∧
        position + 1 < token.endColumn)) → Text.isBlank c = true

/-! ### Words that stand in a text -/

theorem WordAt.of_append {front text : List Char} {word : String}
    {offset : Nat}
    (stands : WordAt (front ++ text) word (front.length + offset)) :
    WordAt text word offset := by
  obtain ⟨before, rest, split, length, shape⟩ := stands
  have beforeIn : before <+: front ++ text := by
    rw [split]
    exact List.prefix_append before _
  have inFront : front <+: before :=
    List.prefix_of_prefix_length_le (List.prefix_append front text) beforeIn
      (by omega)
  obtain ⟨behind, rfl⟩ := inFront
  rw [List.append_assoc] at split
  rw [List.length_append] at length
  refine ⟨behind, rest, List.append_cancel_left split, by omega, ?_⟩
  rcases shape with colon | run
  · exact .inl colon
  · obtain ⟨nonempty, inside, left, right⟩ := run
    refine .inr ⟨nonempty, inside, ?_, right⟩
    intro c last
    apply left c
    rw [List.getLast?_append, Option.mem_def.mp last]
    rfl

theorem WordAt.begins {text : List Char} {word : String}
    (stands : WordAt text word 0) :
    (word = ":" ∧ text.head? = some ':') ∨
      ∃ c ∈ text.head?, isWordChar c = true := by
  obtain ⟨before, rest, split, length, shape⟩ := stands
  have first := List.length_eq_zero_iff.mp length
  rw [split, first, List.nil_append]
  rcases shape with colon | run
  · left
    rw [colon]
    exact ⟨rfl, rfl⟩
  · obtain ⟨nonempty, inside, _, _⟩ := run
    right
    cases characters : word.toList with
    | nil => exact absurd characters nonempty
    | cons c others =>
        rw [characters] at inside
        exact ⟨c, rfl, inside c List.mem_cons_self⟩

theorem WordAt.cons_cases {c : Char} {rest : List Char} {word : String}
    {offset : Nat} (outside : isWordChar c = false)
    (stands : WordAt (c :: rest) word offset) :
    (offset = 0 ∧ word = ":" ∧ c = ':') ∨
      ∃ later, offset = later + 1 ∧ WordAt rest word later := by
  cases offset with
  | zero =>
      rcases stands.begins with colon | inWord
      · exact .inl ⟨rfl, colon.1, Option.some.inj colon.2⟩
      · obtain ⟨first, present, inside⟩ := inWord
        rw [List.head?_cons, Option.mem_some] at present
        rw [← present, outside] at inside
        contradiction
  | succ later =>
      refine .inr ⟨later, rfl, ?_⟩
      rw [Nat.add_comm] at stands
      exact @WordAt.of_append [c] rest word later stands

/-- In front of a longest run stands no word but the run itself. -/
theorem WordAt.run_cases {characters rest : List Char} {word : String}
    {offset : Nat} (inside : ∀ c ∈ characters, isWordChar c = true)
    (longest : ∀ c ∈ rest.head?, isWordChar c = false)
    (stands : WordAt (characters ++ rest) word offset) :
    (offset = 0 ∧ word = String.ofList characters) ∨
      ∃ later, offset = characters.length + later ∧ WordAt rest word later := by
  by_cases behind : characters.length ≤ offset
  · obtain ⟨later, rfl⟩ := Nat.exists_eq_add_of_le behind
    exact .inr ⟨later, rfl, stands.of_append⟩
  · left
    obtain ⟨before, tail, split, length, shape⟩ := stands
    have beforeIn : before <+: characters ++ rest := by
      rw [split]
      exact List.prefix_append before _
    have inRun : before <+: characters :=
      List.prefix_of_prefix_length_le beforeIn
        (List.prefix_append characters rest) (by omega)
    obtain ⟨others, rfl⟩ := inRun
    rw [List.append_assoc] at split
    have onward := List.append_cancel_left split
    rcases shape with colon | run
    · -- the colon would stand inside the run
      cases others with
      | nil => simp at behind; omega
      | cons c more =>
          rw [colon] at onward
          have first : c = ':' := (List.cons.inj onward).1
          have member : c ∈ before ++ c :: more :=
            List.mem_append_right before List.mem_cons_self
          have wordChar := inside c member
          rw [first, isWordChar_colon] at wordChar
          contradiction
    · obtain ⟨_, wordInside, left, right⟩ := run
      have first : before = [] := by
        cases last : before.getLast? with
        | none => exact List.getLast?_eq_none_iff.mp last
        | some c =>
            have outside := left c last
            have member := List.mem_of_getLast? last
            rw [inside c (List.mem_append_left others member)] at outside
            contradiction
      subst first
      obtain ⟨same, _⟩ :=
        Text.append_inj_of_run inside wordInside longest right onward
      refine ⟨length.symm, ?_⟩
      rw [List.nil_append] at same ⊢
      rw [same, String.ofList_toList]

/-! ### Scanning finds every word -/

theorem mem_scanOnto_of_wordAt {text : List Char} {words : List String}
    (known : HasWords text words) (line column : Nat) {word : String}
    {offset : Nat} (stands : WordAt text word offset) :
    ⟨word, ⟨line, column + offset⟩⟩ ∈ scanOnto line [] column text := by
  induction known generalizing column offset with
  | done =>
      obtain ⟨before, rest, split, _, shape⟩ := stands
      have empty : word.toList = [] := by
        have parts := List.append_eq_nil_iff.mp split.symm
        exact (List.append_eq_nil_iff.mp parts.2).1
      rcases shape with colon | run
      · rw [colon] at empty
        contradiction
      · exact absurd empty run.1
  | @blank c rest words separates _ ih =>
      rw [scanOnto_blank line column _ separates]
      rcases stands.cons_cases (isWordChar_of_isBlank separates) with
        first | later
      · obtain ⟨_, _, colon⟩ := first
        have notBlank : Text.isBlank ':' = false := by decide
        rw [colon, notBlank] at separates
        contradiction
      · obtain ⟨offset, rfl, behind⟩ := later
        rw [Nat.add_comm offset, ← Nat.add_assoc]
        exact ih (column + 1) behind
  | @colon rest words _ ih =>
      rw [scanOnto_colon]
      rcases stands.cons_cases isWordChar_colon with first | later
      · obtain ⟨rfl, rfl, _⟩ := first
        exact List.mem_cons_self
      · obtain ⟨offset, rfl, behind⟩ := later
        rw [Nat.add_comm offset, ← Nat.add_assoc]
        exact List.mem_cons_of_mem _ (ih (column + 1) behind)
  | @run characters rest words nonempty inside longest _ ih =>
      rw [scanOnto_run line column nonempty inside longest]
      rcases stands.run_cases inside longest with first | later
      · obtain ⟨rfl, rfl⟩ := first
        exact List.mem_cons_self
      · obtain ⟨offset, rfl, behind⟩ := later
        rw [← Nat.add_assoc]
        exact List.mem_cons_of_mem _ (ih (column + characters.length) behind)

theorem le_column_of_mem_scanOnto {text : List Char} {words : List String}
    (known : HasWords text words) (line column : Nat) {token : Token}
    (member : token ∈ scanOnto line [] column text) :
    column ≤ token.place.column := by
  obtain ⟨offset, _, place⟩ := wordAt_of_mem_scanOnto known line column member
  rw [place]
  exact Nat.le_add_right column offset

theorem apart_scanOnto {text : List Char} {words : List String}
    (known : HasWords text words) (line column : Nat) :
    (scanOnto line [] column text).Pairwise fun first later =>
      first.endColumn ≤ later.place.column := by
  induction known generalizing column with
  | done =>
      rw [scanOnto_nil]
      exact List.Pairwise.nil
  | blank separates _ ih =>
      rw [scanOnto_blank line column _ separates]
      exact ih (column + 1)
  | colon after ih =>
      rw [scanOnto_colon]
      refine List.Pairwise.cons ?_ (ih (column + 1))
      intro later member
      rw [Token.endColumn_colon]
      exact le_column_of_mem_scanOnto after line (column + 1) member
  | @run characters rest words nonempty inside longest after ih =>
      rw [scanOnto_run line column nonempty inside longest]
      refine List.Pairwise.cons ?_ (ih (column + characters.length))
      intro later member
      rw [Token.endColumn_ofList]
      exact le_column_of_mem_scanOnto after line (column + characters.length) member

theorem exists_token_of_not_blank {text : List Char} {words : List String}
    (known : HasWords text words) (line column : Nat) {position : Nat}
    {c : Char} (stands : text[position]? = some c)
    (visible : Text.isBlank c = false) :
    ∃ token ∈ scanOnto line [] column text,
      token.place.column ≤ column + position ∧
        column + position < token.endColumn := by
  induction known generalizing column position with
  | done => contradiction
  | @blank d rest words separates _ ih =>
      rw [scanOnto_blank line column _ separates]
      cases position with
      | zero =>
          rw [List.getElem?_cons_zero, Option.some.injEq] at stands
          rw [← stands, separates] at visible
          contradiction
      | succ position =>
          rw [List.getElem?_cons_succ] at stands
          obtain ⟨token, member, starts, upTo⟩ := ih (column + 1) stands
          exact ⟨token, member, by omega, by omega⟩
  | @colon rest words _ ih =>
      rw [scanOnto_colon]
      cases position with
      | zero =>
          refine ⟨_, List.mem_cons_self, ?_, ?_⟩
          · exact Nat.le_add_right column 0
          · rw [Token.endColumn_colon]
            exact Nat.lt_succ_self _
      | succ position =>
          rw [List.getElem?_cons_succ] at stands
          obtain ⟨token, member, starts, upTo⟩ := ih (column + 1) stands
          exact ⟨token, List.mem_cons_of_mem _ member, by omega, by omega⟩
  | @run characters rest words nonempty inside longest _ ih =>
      rw [scanOnto_run line column nonempty inside longest]
      by_cases within : position < characters.length
      · refine ⟨_, List.mem_cons_self, ?_, ?_⟩
        · exact Nat.le_add_right column position
        · rw [Token.endColumn_ofList]
          exact Nat.add_lt_add_left within column
      · have beyond : characters.length ≤ position := Nat.le_of_not_lt within
        rw [List.getElem?_append_right beyond] at stands
        obtain ⟨token, member, starts, upTo⟩ :=
          ih (column + characters.length) stands
        exact ⟨token, List.mem_cons_of_mem _ member, by omega, by omega⟩

/-! ### The words themselves -/

section Words

variable {text : List Char} {word : String} {offset : Nat}

theorem WordAt.nonempty (stands : WordAt text word offset) : word ≠ "" := by
  obtain ⟨_, _, _, _, shape⟩ := stands
  rintro rfl
  rcases shape with colon | run
  · contradiction
  · exact run.1 rfl

theorem WordAt.visible (stands : WordAt text word offset) :
    ∀ c ∈ word.toList, Text.isBlank c = false := by
  obtain ⟨_, _, _, _, shape⟩ := stands
  intro c member
  rcases shape with colon | run
  · rw [colon] at member
    rw [List.mem_singleton.mp member]
    decide
  · exact isBlank_of_isWordChar (run.2.1 c member)

theorem WordAt.single (stands : WordAt text word offset)
    (member : ':' ∈ word.toList) : word = ":" := by
  obtain ⟨_, _, _, _, shape⟩ := stands
  rcases shape with colon | run
  · exact colon
  · have inWord := run.2.1 ':' member
    rw [isWordChar_colon] at inWord
    contradiction

theorem WordAt.prefix_drop (stands : WordAt text word offset)
    (tail : List Char) : word.toList <+: (text ++ tail).drop offset := by
  obtain ⟨before, rest, split, length, _⟩ := stands
  rw [split, List.append_assoc, List.drop_append_of_le_length (by omega),
    ← length, List.drop_length, List.nil_append, List.append_assoc]
  exact List.prefix_append _ _

theorem WordAt.mem (stands : WordAt text word offset) {c : Char}
    (member : c ∈ word.toList) : c ∈ text := by
  obtain ⟨before, rest, split, _, _⟩ := stands
  rw [split]
  exact List.mem_append_right before (List.mem_append_left rest member)

end Words

/-! ### The tokens of a line -/

theorem tokensOf_scan (number : Nat) (line : List Char) :
    TokensOf number line (scan number line) := by
  obtain ⟨words, known⟩ := exists_hasWords (uncommented line)
  constructor
  · intro token
    constructor
    · intro member
      obtain ⟨column, stands, place⟩ := tokenAt_of_mem_scan member
      rw [place]
      exact ⟨rfl, stands⟩
    · intro parts
      obtain ⟨onLine, body, offset, before, stands, column⟩ := parts
      rw [isUncommented_iff] at before
      rw [← before] at stands
      have member := mem_scanOnto_of_wordAt known number 1 stands
      rw [Nat.add_comm 1, ← column, ← onLine] at member
      rw [← onLine]
      exact member
  · apply (apart_scanOnto known number 1).imp_of_mem
    intro first later memberFirst _ apart
    obtain ⟨_, ⟨_, _, _, stands, _⟩, _⟩ := tokenAt_of_mem_scan memberFirst
    have filled : 0 < first.text.length := by
      rw [Nat.pos_iff_ne_zero, ne_eq, String.length_eq_zero_iff]
      exact stands.nonempty
    rw [Token.endColumn] at apart
    omega

/-- The tokens stand in rising columns, so a line has one list of them. -/
theorem TokensOf.unique {number : Nat} {line : List Char}
    {tokens others : List Token} (known : TokensOf number line tokens)
    (knownToo : TokensOf number line others) : tokens = others := by
  have irreflexive : Std.Irrefl fun first later : Token =>
      first.place.column < later.place.column := by
    constructor
    intro token
    exact Nat.lt_irrefl token.place.column
  have antisymmetric : Std.Antisymm fun first later : Token =>
      first.place.column < later.place.column := by
    constructor
    intro first later before after
    exact absurd before (Nat.lt_asymm after)
  apply List.Pairwise.eq_of_mem_iff known.rising knownToo.rising
  intro token
  rw [known.exact, knownToo.exact]

theorem splitsLine_scan (number : Nat) (line : List Char) :
    SplitsLine line (scan number line) := by
  obtain ⟨words, known⟩ := exists_hasWords (uncommented line)
  have placed (token : Token) (member : token ∈ scan number line) :
      TokenAt line token.text token.place.column :=
    ((tokensOf_scan number line).exact token).mp member |>.2
  constructor
  · intro token member
    obtain ⟨_, _, _, stands, _⟩ := placed token member
    exact stands.nonempty
  · intro token member c inside
    obtain ⟨_, _, before, stands, _⟩ := placed token member
    refine ⟨stands.visible c inside, ?_⟩
    rintro rfl
    exact before.1 (stands.mem inside)
  · intro token member inside
    obtain ⟨_, _, _, stands, _⟩ := placed token member
    exact stands.single inside
  · intro token member
    obtain ⟨body, offset, before, stands, column⟩ := placed token member
    rw [column, Nat.add_sub_cancel]
    refine ⟨Nat.le_add_left 1 offset, ?_⟩
    rcases before.2 with whole | ⟨comment, split⟩
    · have front := stands.prefix_drop []
      rw [List.append_nil, ← whole] at front
      exact front
    · rw [split]
      exact stands.prefix_drop ('#' :: comment)
  · exact apart_scanOnto known number 1
  · intro body before position c stands untaken
    rw [isUncommented_iff] at before
    rw [← before] at stands
    by_contra visible
    rw [Bool.not_eq_true] at visible
    obtain ⟨token, member, starts, upTo⟩ :=
      exists_token_of_not_blank known number 1 stands visible
    rw [Nat.add_comm] at starts upTo
    exact untaken token member ⟨starts, upTo⟩

/-! ### Reading one character after the other -/

/-- The tokens found, and the characters of a word that has begun with its column. -/
structure Progress where
  found : List Token
  pending : List Char
  start : Nat

def Progress.emit (progress : Progress) (token : Token) : Progress :=
  { progress with found := progress.found ++ [token] }

def Progress.flush (line : Nat) (progress : Progress) : Progress :=
  if progress.pending.isEmpty then progress
  else
    { progress.emit ⟨String.ofList progress.pending, ⟨line, progress.start⟩⟩ with
      pending := [] }

/-- A blank and a colon end the word, and a colon is a token besides. -/
def Progress.take (line column : Nat) (progress : Progress) (c : Char) :
    Progress :=
  if Text.isBlank c then progress.flush line
  else if c == ':' then (progress.flush line).emit ⟨":", ⟨line, column⟩⟩
  else
    { progress with
      pending := progress.pending ++ [c]
      start := if progress.pending.isEmpty then column else progress.start }

def Progress.read (line : Nat) : Progress → Nat → List Char → List Token
  | progress, _, [] => (progress.flush line).found
  | progress, column, c :: rest =>
      if c == '#' then (progress.flush line).found
      else (progress.take line column c).read line (column + 1) rest

def readTokens (line : Nat) (text : List Char) : List Token :=
  Progress.read line ⟨[], [], 1⟩ 1 text

/-- A word that has begun is made of word characters and reaches from the
column of its first character up to the next character of the line. -/
structure Progress.Sound (progress : Progress) (column : Nat) : Prop where
  inside : ∀ c ∈ progress.pending, isWordChar c = true
  reaches : progress.pending ≠ [] →
    progress.start + progress.pending.length = column

/-- The tokens found, and those of the pending word and what is left. -/
def Progress.outlook (line column : Nat) (progress : Progress)
    (rest : List Char) : List Token :=
  progress.found ++ scanOnto line [] (column - progress.pending.length)
    (progress.pending ++ rest)

section Steps

variable {progress : Progress} {column : Nat}

theorem Progress.Sound.outlook_eq_flush (sound : progress.Sound column)
    (line : Nat) {rest : List Char}
    (ends : ∀ c ∈ rest.head?, isWordChar c = false) :
    progress.outlook line column rest =
      (progress.flush line).found ++ scanOnto line [] column rest := by
  unfold Progress.outlook Progress.flush
  by_cases idle : progress.pending = []
  · simp [idle]
  · have begun : ¬ progress.pending.isEmpty = true := by
      rw [List.isEmpty_iff]
      exact idle
    have reaches := sound.reaches idle
    have start : column - progress.pending.length = progress.start := by omega
    rw [if_neg begun, start, scanOnto_run line _ idle sound.inside ends, reaches]
    exact List.append_cons _ _ _

theorem Progress.Sound.outlook_nil (sound : progress.Sound column)
    (line : Nat) :
    progress.outlook line column [] = (progress.flush line).found := by
  rw [sound.outlook_eq_flush line (by simp), scanOnto_nil, List.append_nil]

theorem Progress.pending_flush (progress : Progress) (line : Nat) :
    (progress.flush line).pending = [] := by
  unfold Progress.flush
  by_cases idle : progress.pending.isEmpty = true
  · rw [if_pos idle]
    exact List.isEmpty_iff.mp idle
  · rw [if_neg idle]

theorem Progress.sound_of_pending_eq_nil (idle : progress.pending = [])
    (column : Nat) : progress.Sound column := by
  constructor
  · intro c member
    rw [idle] at member
    contradiction
  · intro begun
    exact absurd idle begun

theorem Progress.outlook_of_pending_eq_nil (idle : progress.pending = [])
    (line column : Nat) (rest : List Char) :
    progress.outlook line column rest =
      progress.found ++ scanOnto line [] column rest := by
  rw [Progress.outlook, idle]
  rfl

theorem Progress.Sound.take (sound : progress.Sound column) (line : Nat)
    (c : Char) : (progress.take line column c).Sound (column + 1) := by
  unfold Progress.take
  by_cases separates : Text.isBlank c = true
  · rw [if_pos separates]
    exact sound_of_pending_eq_nil (progress.pending_flush line) _
  · by_cases colon : (c == ':') = true
    · have flushed : ((progress.flush line).emit ⟨":", ⟨line, column⟩⟩).pending =
          [] := progress.pending_flush line
      rw [if_neg separates, if_pos colon]
      exact sound_of_pending_eq_nil flushed _
    · rw [if_neg separates, if_neg colon]
      have wordChar : isWordChar c = true := by
        simp [isWordChar, separates, colon]
      constructor
      · intro d member
        rcases List.mem_append.mp member with before | last
        · exact sound.inside d before
        · rw [List.mem_singleton.mp last]
          exact wordChar
      · intro _
        by_cases idle : progress.pending = []
        · simp [idle]
        · have reaches := sound.reaches idle
          simp [idle]
          omega

theorem Progress.Sound.outlook_take (sound : progress.Sound column)
    (line : Nat) (c : Char) (rest : List Char) :
    (progress.take line column c).outlook line (column + 1) rest =
      progress.outlook line column (c :: rest) := by
  unfold Progress.take
  by_cases separates : Text.isBlank c = true
  · have outside := isWordChar_of_isBlank separates
    rw [if_pos separates,
      outlook_of_pending_eq_nil (progress.pending_flush line),
      sound.outlook_eq_flush line (by simpa using outside),
      scanOnto_blank line column rest separates]
  · by_cases colon : (c == ':') = true
    · have same : c = ':' := beq_iff_eq.mp colon
      subst same
      have flushed : ((progress.flush line).emit ⟨":", ⟨line, column⟩⟩).pending =
          [] := progress.pending_flush line
      rw [if_neg separates, if_pos colon, outlook_of_pending_eq_nil flushed,
        Progress.emit, sound.outlook_eq_flush line (by simpa using isWordChar_colon),
        scanOnto_colon, List.append_assoc]
      rfl
    · rw [if_neg separates, if_neg colon]
      simp [Progress.outlook, Nat.add_sub_add_right]

theorem Progress.Sound.read (sound : progress.Sound column) (line : Nat)
    (text : List Char) :
    progress.read line column text =
      progress.outlook line column (uncommented text) := by
  induction text generalizing progress column with
  | nil => exact (sound.outlook_nil line).symm
  | cons c rest ih =>
      rw [Progress.read]
      by_cases sign : (c == '#') = true
      · have cut : uncommented (c :: rest) = [] := by
          rw [beq_iff_eq.mp sign]
          rfl
        rw [if_pos sign, cut, sound.outlook_nil line]
      · have kept : uncommented (c :: rest) = c :: uncommented rest := by
          unfold uncommented
          rw [List.takeWhile_cons_of_pos]
          simpa using sign
        rw [if_neg sign, ih (sound.take line c), kept, sound.outlook_take]

end Steps

theorem readTokens_eq_scan (line : Nat) (text : List Char) :
    readTokens line text = scan line text := by
  have begin : (⟨[], [], 1⟩ : Progress).Sound 1 :=
    Progress.sound_of_pending_eq_nil rfl 1
  exact begin.read line text

/-- Scanning finds exactly the tokens of a line, and so does reading it one character
after the other.  No two tokens overlap, and what no token takes is blank. -/
theorem scan_finds_tokens (number : Nat) (line : List Char) :
    (∀ tokens, scan number line = tokens ↔ TokensOf number line tokens) ∧
    SplitsLine line (scan number line) ∧
    readTokens number line = scan number line := by
  refine ⟨?_, splitsLine_scan number line, readTokens_eq_scan number line⟩
  intro tokens
  constructor
  · intro same
    rw [← same]
    exact tokensOf_scan number line
  · intro known
    exact (tokensOf_scan number line).unique known

end Source
end RegisterMachine
