/-
Tokens of JSON texts.

The induction over the grammar carries along what the tokens of a part are to the
reader that passes over a value: it begins where a value may begin, and it ends
after that value, however deep the value is nested.
-/

import RegisterMachine.Json.Value
import RegisterMachine.Proofs.JsonText

namespace RegisterMachine
namespace Json

open Text (decimal)

/-! ### One token at a time -/

theorem tokensOnto_eq_map (found : List Token) (text : List Char) :
    tokensOnto found text = (tokens? text).map (found.reverse ++ ·) := by
  induction size : text.length using Nat.strongRecOn generalizing found text with
  | ind size ih =>
      cases text with
      | nil => simp [tokens?, tokensOnto]
      | cons c rest =>
          rw [List.length_cons] at size
          rw [tokens?, tokensOnto, tokensOnto]
          by_cases space : isSpace c = true
          · rw [if_pos space, if_pos space]
            exact ih rest.length (by omega) found rest rfl
          · rw [if_neg space, if_neg space]
            split
            · rfl
            · next token left next =>
                have shorter := length_nextToken next
                rw [ih left.length (by omega) (token :: found) left rfl,
                  ih left.length (by omega) [token] left rfl, Option.map_map]
                congr 1
                funext tokens
                simp

theorem tokens?_nil : tokens? [] = some [] := by
  simp [tokens?, tokensOnto]

theorem tokens?_cons_of_isSpace {c : Char} (space : isSpace c = true)
    (rest : List Char) : tokens? (c :: rest) = tokens? rest := by
  rw [tokens?, tokensOnto, if_pos space, tokens?]

theorem tokens?_cons_of_nextToken {c : Char} {rest left : List Char}
    {token : Token} (noSpace : isSpace c = false)
    (next : nextToken c rest = some (token, left)) :
    tokens? (c :: rest) = (tokens? left).map (token :: ·) := by
  rw [tokens?, tokensOnto, if_neg (by simp [noSpace])]
  split
  · next missing =>
    rw [next] at missing
    contradiction
  · next other after found =>
    rw [next] at found
    cases found
    rw [tokensOnto_eq_map]
    rfl

theorem tokens?_gap_append {gap : List Char} (space : IsGap gap)
    (rest : List Char) : tokens? (gap ++ rest) = tokens? rest := by
  induction gap with
  | nil => rfl
  | cons c later ih =>
      rw [List.cons_append, tokens?_cons_of_isSpace (space.isSpace List.mem_cons_self)]
      exact ih fun other member => space other (List.mem_cons_of_mem c member)

inductive IsMark : Char → Token → Prop where
  | openObject : IsMark '\x7b' .openObject
  | closeObject : IsMark '\x7d' .closeObject
  | openArray : IsMark '[' .openArray
  | closeArray : IsMark ']' .closeArray
  | comma : IsMark ',' .comma
  | colon : IsMark ':' .colon

theorem tokens?_mark {mark : Char} {token : Token} (known : IsMark mark token)
    (rest : List Char) :
    tokens? (mark :: rest) = (tokens? rest).map (token :: ·) := by
  cases known <;> exact tokens?_cons_of_nextToken (by decide) rfl

/-! ### What may follow a number -/

theorem stops_nil : Stops [] := by
  intro c first
  contradiction

theorem stops_mark {mark : Char} {token : Token} (known : IsMark mark token)
    (rest : List Char) : Stops (mark :: rest) := by
  intro c first
  cases first
  cases known <;> decide

theorem stops_gap_append {gap rest : List Char} (space : IsGap gap)
    (stops : Stops rest) : Stops (gap ++ rest) := by
  cases gap with
  | nil => exact stops
  | cons c later =>
      have blank := space c List.mem_cons_self
      intro d first
      cases first
      rcases blank with rfl | rfl | rfl | rfl <;> decide

/-! ### Tokens of parts -/

/-- The text is made of the given tokens, whatever follows it that cannot go on
with a number. -/
def Yields (text : List Char) (tokens : List Token) : Prop :=
  ∀ rest, Stops rest →
    tokens? (text ++ rest) = (tokens? rest).map (tokens ++ ·)

theorem Yields.tokens? {text : List Char} {tokens : List Token}
    (yields : Yields text tokens) : Json.tokens? text = some tokens := by
  have whole := yields [] stops_nil
  rw [List.append_nil, tokens?_nil] at whole
  simpa using whole

theorem Yields.padded {text padded : List Char} {tokens : List Token}
    (yields : Yields text tokens) (around : Padded text padded) :
    Yields padded tokens := by
  obtain ⟨before, after, spaceBefore, spaceAfter, rfl⟩ := around
  intro rest stops
  rw [List.append_assoc, tokens?_gap_append spaceBefore, List.append_assoc,
    yields _ (stops_gap_append spaceAfter stops), tokens?_gap_append spaceAfter]

theorem yields_gap {gap : List Char} (space : IsGap gap) : Yields gap [] := by
  intro rest _
  rw [tokens?_gap_append space]
  simp

theorem Yields.append_mark {front back : List Char} {before after : List Token}
    {mark : Char} {token : Token} (known : IsMark mark token)
    (first : Yields front before) (second : Yields back after) :
    Yields (front ++ mark :: back) (before ++ token :: after) := by
  intro rest stops
  rw [List.append_assoc, List.cons_append, first _ (stops_mark known _),
    tokens?_mark known, second rest stops, Option.map_map, Option.map_map]
  congr 1
  funext tokens
  simp

theorem yields_nil : Yields [] [] :=
  yields_gap fun _ impossible => absurd impossible List.not_mem_nil

theorem Yields.enclosed {inner : List Char} {tokens : List Token}
    {opening closing : Char} {openToken closeToken : Token}
    (opens : IsMark opening openToken) (closes : IsMark closing closeToken)
    (yields : Yields inner tokens) :
    Yields (opening :: (inner ++ [closing]))
      (openToken :: (tokens ++ [closeToken])) :=
  yields_nil.append_mark opens (yields.append_mark closes yields_nil)

theorem yields_string {body : List Char} {pieces : List Piece}
    (spelled : StringBody body pieces) :
    Yields ('"' :: (body ++ ['"']))
      [.text ((spell [] pieces).map String.ofList)] := by
  intro rest _
  apply tokens?_cons_of_nextToken (by decide)
  have read := readString_of_stringBody spelled [] rest
  simp only [List.reverse_nil, List.nil_append] at read
  simp [nextToken, read]

theorem yields_keyword {word : List Char} (known : word ∈ keywords) :
    Yields word [.keyword] := by
  intro rest _
  simp only [keywords, List.mem_cons, List.not_mem_nil, or_false] at known
  rcases known with rfl | rfl | rfl <;>
    exact tokens?_cons_of_nextToken (by decide) (by simp [nextToken, afterKeyword])

theorem nextToken_of_isDigit {c : Char} (digit : c.isDigit = true)
    (rest : List Char) :
    nextToken c rest =
      (unsignedNumber (c :: rest)).map fun (count, left) => (.number count, left) := by
  unfold nextToken
  split
  case h_12 => rfl
  all_goals contradiction

theorem isSpace_of_isDigit {c : Char} (digit : c.isDigit = true) :
    isSpace c = false := by
  by_contra space
  simp only [isSpace, Bool.or_eq_true, beq_iff_eq, Bool.not_eq_false] at space
  rcases space with ((rfl | rfl) | rfl) | rfl <;> contradiction

theorem exists_yields_number {text : List Char} (isNumber : IsNumber text) :
    ∃ count, Yields text [.number count] ∧
      ∀ value, count = some value ↔ IsCount text ∧ decimal text = value := by
  cases isNumber with
  | @mk sign whole fraction exponent signed isWhole isFraction isExponent =>
  rcases signed with rfl | rfl
  · refine ⟨unsignedCount whole fraction exponent, ?_,
      unsignedCount_eq_some_iff isWhole isFraction isExponent⟩
    intro rest stops
    have read := unsignedNumber_append isWhole isFraction isExponent stops
    have written := isWhole.isDigits
    cases whole with
    | nil => exact absurd rfl written.1
    | cons c later =>
        have digit : c.isDigit = true := written.2 c List.mem_cons_self
        simp only [List.nil_append, List.cons_append, List.append_assoc] at read ⊢
        apply tokens?_cons_of_nextToken (isSpace_of_isDigit digit)
        rw [nextToken_of_isDigit digit, read]
        rfl
  · refine ⟨none, ?_, ?_⟩
    · intro rest stops
      have read := unsignedNumber_append isWhole isFraction isExponent stops
      simp only [List.nil_append, List.cons_append, List.append_assoc] at read ⊢
      apply tokens?_cons_of_nextToken (by decide)
      simp [nextToken, read]
    · intro value
      have noCount : ¬IsCount (['-'] ++ (whole ++ (fraction ++ exponent))) := by
        intro isCount
        have digit := isCount.1.isDigits.2 '-' List.mem_cons_self
        contradiction
      simp only [reduceCtorEq, noCount, false_and]

theorem IsCount.isNumber {digits : List Char} (isCount : IsCount digits) :
    IsNumber digits := by
  have number : IsNumber ([] ++ (digits ++ ([] ++ []))) :=
    .mk (.inl rfl) isCount.1 .absent .absent
  simpa using number

theorem yields_count {digits : List Char} (isCount : IsCount digits) :
    Yields digits [.number (some (decimal digits))] := by
  obtain ⟨count, yields, known⟩ := exists_yields_number isCount.isNumber
  rw [(known (decimal digits)).mpr ⟨isCount, rfl⟩] at yields
  exact yields

/-! ### Passing over values -/

/-- The reader passes over the tokens where a value may begin. -/
def PassedOver (tokens : List Token) : Prop :=
  ∀ phase opened rest, phase = .value ∨ phase = .firstItem →
    skipFrom phase opened (tokens ++ rest) = skipFrom .after opened rest

/-- Items and members are passed over together with the end of what encloses them,
and only a count begins with a count. -/
def Form.Matches : Form → List Token → Prop
  | .value count, tokens =>
      PassedOver tokens ∧ ∀ found rest,
        tokens = .number (some found) :: rest ↔ count = some found ∧ rest = []
  | .items, tokens =>
      ∀ phase opened rest, phase = .value ∨ phase = .firstItem →
        skipFrom phase (.array :: opened) (tokens ++ .closeArray :: rest) =
          skipFrom .after opened rest
  | .members _, tokens =>
      ∀ phase opened rest, phase = .key ∨ phase = .firstKey →
        skipFrom phase (.object :: opened) (tokens ++ .closeObject :: rest) =
          skipFrom .after opened rest

section Skipping

variable {opened : List Enclosure} {rest : List Token}

theorem skipFrom_of_beginValue {phase next : Phase} {token : Token}
    {stillOpened : List Enclosure}
    (begins : beginValue opened token = some (next, stillOpened))
    (start : phase = .value ∨ phase = .firstItem) :
    skipFrom phase opened (token :: rest) = skipFrom next stillOpened rest := by
  have moves : transition opened phase token = some (next, stillOpened) := by
    rcases start with rfl | rfl
    · exact begins
    · cases token <;> first | exact begins | contradiction
  rcases start with rfl | rfl <;> simp only [skipFrom, moves]

theorem skipFrom_of_key {phase : Phase} (content : Option String)
    (start : phase = .key ∨ phase = .firstKey) :
    skipFrom phase opened (.text content :: .colon :: rest) =
      skipFrom .value opened rest := by
  rcases start with rfl | rfl <;> rfl

theorem passedOver_singleton {token : Token}
    (begins : ∀ opened, beginValue opened token = some (.after, opened)) :
    PassedOver [token] := by
  intro phase opened rest start
  exact skipFrom_of_beginValue (begins opened) start

theorem passedOver_enclosed {opening closing : Token} {inner : List Token}
    {kind : Enclosure} {first : Phase}
    (begins : ∀ opened, beginValue opened opening = some (first, kind :: opened))
    (passes : ∀ opened rest,
      skipFrom first (kind :: opened) (inner ++ closing :: rest) =
        skipFrom .after opened rest) :
    PassedOver (opening :: (inner ++ [closing])) := by
  intro phase opened rest start
  rw [List.cons_append, List.append_assoc,
    skipFrom_of_beginValue (begins opened) start]
  exact passes opened rest

end Skipping

theorem Written.exists_tokens {form : Form} {text : List Char}
    (written : Written form text) :
    ∃ tokens, Yields text tokens ∧ form.Matches tokens := by
  induction written with
  | text spelled =>
      exact ⟨_, yields_string spelled, passedOver_singleton fun _ => rfl, by simp⟩
  | count plain =>
      refine ⟨_, yields_count plain, passedOver_singleton fun _ => rfl, ?_⟩
      intro found rest
      simp [eq_comm]
  | number isNumber other =>
      obtain ⟨count, yields, known⟩ := exists_yields_number isNumber
      have noCount : count = none := by
        rw [Option.eq_none_iff_forall_ne_some]
        intro value found
        exact other ((known value).mp found).1
      rw [noCount] at yields
      exact ⟨_, yields, passedOver_singleton fun _ => rfl, by simp⟩
  | keyword known =>
      exact ⟨_, yields_keyword known, passedOver_singleton fun _ => rfl, by simp⟩
  | emptyArray space =>
      exact ⟨_, (yields_gap space).enclosed .openArray .closeArray,
        passedOver_enclosed (fun _ => rfl) fun _ _ => rfl, by simp⟩
  | array _ ih =>
      obtain ⟨inner, yields, passes⟩ := ih
      exact ⟨_, yields.enclosed .openArray .closeArray,
        passedOver_enclosed (fun _ => rfl)
          fun opened rest => passes _ opened rest (.inr rfl), by simp⟩
  | emptyObject space =>
      exact ⟨_, (yields_gap space).enclosed .openObject .closeObject,
        passedOver_enclosed (fun _ => rfl) fun _ _ => rfl, by simp⟩
  | object _ ih =>
      obtain ⟨inner, yields, passes⟩ := ih
      exact ⟨_, yields.enclosed .openObject .closeObject,
        passedOver_enclosed (fun _ => rfl)
          fun opened rest => passes _ opened rest (.inr rfl), by simp⟩
  | lastItem _ padded ih =>
      obtain ⟨tokens, yields, passes, _⟩ := ih
      refine ⟨tokens, yields.padded padded, ?_⟩
      intro phase opened rest start
      rw [passes phase _ _ start]
      rfl
  | item _ padded _ ih others =>
      obtain ⟨tokens, yields, passes, _⟩ := ih
      obtain ⟨more, yieldsMore, passesMore⟩ := others
      refine ⟨_, (yields.padded padded).append_mark .comma yieldsMore, ?_⟩
      intro phase opened rest start
      rw [List.append_assoc, passes phase _ _ start]
      exact passesMore .value opened rest (.inl rfl)
  | lastMember spelled keyPadded _ padded ih =>
      obtain ⟨tokens, yields, passes, _⟩ := ih
      refine ⟨_, ((yields_string spelled).padded keyPadded).append_mark
        .colon (yields.padded padded), ?_⟩
      intro phase opened rest start
      simp only [List.cons_append, List.nil_append]
      rw [skipFrom_of_key _ start, passes .value _ _ (.inl rfl)]
      rfl
  | member spelled keyPadded _ padded _ ih others =>
      obtain ⟨tokens, yields, passes, _⟩ := ih
      obtain ⟨more, yieldsMore, passesMore⟩ := others
      refine ⟨_, ((yields_string spelled).padded keyPadded).append_mark
        .colon ((yields.padded padded).append_mark .comma yieldsMore), ?_⟩
      intro phase opened rest start
      simp only [List.cons_append, List.nil_append, List.append_assoc]
      rw [skipFrom_of_key _ start, passes .value _ _ (.inl rfl)]
      exact passesMore .key opened rest (.inl rfl)

end Json
end RegisterMachine
