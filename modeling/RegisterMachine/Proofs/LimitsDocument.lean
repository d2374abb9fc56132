/-
Limits read from JSON objects.

Reading an object is a fold over its members, so their order, the space between
the tokens and the members with other names play no part.
-/

import RegisterMachine.Limits.Document
import RegisterMachine.Proofs.JsonTokens

namespace RegisterMachine

namespace Json

/-- A name is text, so its escapes must spell characters. -/
inductive IsObject : List Char → List (String × Option Nat) → Prop where
  | empty {gap text : List Char} (space : IsGap gap)
      (padded : Padded ('\x7b' :: (gap ++ ['\x7d'])) text) : IsObject text []
  | members {inner text : List Char} {entries : List (List Piece × Option Nat)}
      {members : List (String × Option Nat)}
      (written : Written (.members entries) inner)
      (named : List.Forall₂ (fun entry member =>
        Spells entry.1 member.1.toList ∧ entry.2 = member.2) entries members)
      (padded : Padded ('\x7b' :: (inner ++ ['\x7d'])) text) :
      IsObject text members

end Json

namespace Limits

open Json

def value (limits : Limits) : Field → Nat
  | .sourceSize => limits.maxSourceSize
  | .instructions => limits.maxInstructions
  | .steps => limits.maxSteps

def valuesOf (field : Field) (members : List (String × Option Nat)) :
    List (Option Nat) :=
  (members.filter (·.1 = field.name)).map Prod.snd

section ValuesOf

variable {member : String × Option Nat} {field : Field}

theorem valuesOf_cons_of_field (named : member.1 = field.name)
    (rest : List (String × Option Nat)) :
    valuesOf field (member :: rest) = member.2 :: valuesOf field rest := by
  simp [valuesOf, named]

theorem valuesOf_cons_of_other (other : member.1 ≠ field.name)
    (rest : List (String × Option Nat)) :
    valuesOf field (member :: rest) = valuesOf field rest := by
  simp [valuesOf, other]

end ValuesOf

theorem ofName?_eq_some_iff (name : String) (field : Field) :
    Field.ofName? name = some field ↔ name = field.name := by
  constructor
  · intro found
    have named := List.find?_some found
    rw [beq_iff_eq] at named
    exact named.symm
  · intro named
    subst named
    cases field <;> decide

theorem Field.name_injective {field other : Field}
    (same : field.name = other.name) : field = other := by
  have found := (ofName?_eq_some_iff _ _).mpr same
  rw [(ofName?_eq_some_iff _ field).mpr rfl] at found
  exact Option.some.inj found

theorem ext_value {limits other : Limits}
    (agree : ∀ field, limits.value field = other.value field) : limits = other := by
  cases limits
  cases other
  congr 1
  · exact agree .sourceSize
  · exact agree .instructions
  · exact agree .steps

/-! ### Members one by one -/

namespace Draft

def get (draft : Draft) : Field → Option Nat
  | .sourceSize => draft.sourceSize
  | .instructions => draft.instructions
  | .steps => draft.steps

theorem put?_of_free {draft : Draft} {field : Field}
    (free : draft.get field = none) (count : Nat) :
    ∃ extended, draft.put? field count = some extended ∧
      ∀ other, extended.get other =
        if other = field then some count else draft.get other := by
  cases field with
  | sourceSize | instructions | steps =>
      simp only [get] at free
      simp only [put?, free, Option.isSome_none, Bool.false_eq_true, if_false]
      refine ⟨_, rfl, ?_⟩
      intro other
      cases other <;> rfl

theorem put?_of_taken {draft : Draft} {field : Field} {earlier : Nat}
    (taken : draft.get field = some earlier) (count : Nat) :
    draft.put? field count = none := by
  cases field with
  | sourceSize | instructions | steps =>
      simp only [get] at taken
      simp [put?, taken]

theorem value_complete (draft : Draft) (field : Field) :
    draft.complete.value field = (draft.get field).getD (standard.value field) := by
  cases field <;> rfl

def record (draft : Draft) (member : String × Option Nat) : Option Draft :=
  match Field.ofName? member.1 with
  | none => some draft
  | some field => member.2.bind (draft.put? field)

theorem record_of_other {draft : Draft} {member : String × Option Nat}
    (other : ∀ field : Field, member.1 ≠ field.name) :
    draft.record member = some draft := by
  have unknown : Field.ofName? member.1 = none := by
    rw [Option.eq_none_iff_forall_ne_some]
    intro field found
    exact other field ((ofName?_eq_some_iff _ _).mp found)
  rw [record, unknown]

theorem record_of_field {draft : Draft} {member : String × Option Nat}
    {field : Field} (named : member.1 = field.name) :
    draft.record member = member.2.bind (draft.put? field) := by
  rw [record, (ofName?_eq_some_iff _ _).mpr named]

theorem get_of_record {draft extended : Draft} {member : String × Option Nat}
    {field : Field} (recorded : draft.record member = some extended)
    (different : member.1 ≠ field.name) : extended.get field = draft.get field := by
  by_cases isField : ∃ other : Field, member.1 = other.name
  · obtain ⟨other, named⟩ := isField
    rw [record_of_field named] at recorded
    obtain ⟨count, _, put⟩ := Option.bind_eq_some_iff.mp recorded
    cases held : draft.get other with
    | some earlier =>
        rw [put?_of_taken held] at put
        contradiction
    | none =>
        obtain ⟨final, same, holds⟩ := put?_of_free held count
        rw [same] at put
        cases put
        rw [holds field, if_neg]
        intro equality
        exact different (named.trans (congrArg Field.name equality.symm))
  · rw [record_of_other fun other named => isField ⟨other, named⟩] at recorded
    cases recorded
    rfl

theorem alone_of_once {held found value : Option Nat}
    {later : List (Option Nat)}
    (once : held.toList.map some ++ value :: later = found.toList.map some) :
    held = none ∧ later = [] ∧ ∃ count, value = some count ∧
      found = some count := by
  cases held with
  | some earlier => cases found <;> simp at once
  | none =>
      cases found with
      | none => simp at once
      | some count => simpa [and_comm] using once

/-- The induction keeps what was found before the members in front of what they hold. -/
theorem exists_foldlM_record {members : List (String × Option Nat)}
    {found : Field → Option Nat} {draft : Draft}
    (once : ∀ field, (draft.get field).toList.map some ++ valuesOf field members =
      (found field).toList.map some) :
    ∃ final, members.foldlM record draft = some final ∧
      ∀ field, final.get field = found field := by
  induction members generalizing draft with
  | nil =>
      refine ⟨draft, rfl, ?_⟩
      intro field
      have same := once field
      cases held : draft.get field <;> cases given : found field <;>
        simp_all [valuesOf]
  | cons member rest ih =>
      rw [List.foldlM_cons]
      by_cases isField : ∃ field : Field, member.1 = field.name
      · obtain ⟨field, named⟩ := isField
        have here := once field
        rw [valuesOf_cons_of_field named] at here
        obtain ⟨free, last, count, given, known⟩ := alone_of_once here
        obtain ⟨extended, put, holds⟩ := put?_of_free free count
        rw [record_of_field named, given]
        simp only [Option.bind_some, put, Option.bind_eq_bind]
        apply ih
        intro other
        rw [holds other]
        by_cases same : other = field
        · subst same
          rw [if_pos rfl, last, known]
          rfl
        · have different : member.1 ≠ other.name := by
            intro equality
            exact same (Field.name_injective (equality.symm.trans named))
          rw [if_neg same, ← once other, valuesOf_cons_of_other different]
      · have different (field : Field) : member.1 ≠ field.name :=
          fun named => isField ⟨field, named⟩
        rw [record_of_other different]
        simp only [Option.bind_some, Option.bind_eq_bind]
        apply ih
        intro field
        rw [← once field, valuesOf_cons_of_other (different field)]

/-- A field that is named twice is refused, whatever the members hold. -/
theorem foldlM_record_of_repeated {members : List (String × Option Nat)}
    {draft : Draft} (field : Field)
    (repeated : 2 ≤ (draft.get field).toList.length +
      (valuesOf field members).length) :
    members.foldlM record draft = none := by
  induction members generalizing draft with
  | nil =>
      cases held : draft.get field <;> simp [held, valuesOf] at repeated
  | cons member rest ih =>
      rw [List.foldlM_cons]
      by_cases named : member.1 = field.name
      · rw [record_of_field named]
        rw [valuesOf_cons_of_field named, List.length_cons] at repeated
        cases member.2 with
        | none => rfl
        | some count =>
            cases held : draft.get field with
            | some earlier =>
                simp [put?_of_taken held]
            | none =>
                obtain ⟨extended, put, holds⟩ := put?_of_free held count
                simp only [Option.bind_some, put, Option.bind_eq_bind]
                apply ih
                rw [holds field, if_pos rfl]
                rw [held] at repeated
                simp only [Option.toList, List.length_nil, List.length_cons]
                  at repeated ⊢
                omega
      · rw [valuesOf_cons_of_other named] at repeated
        cases recorded : draft.record member with
        | none => rfl
        | some extended =>
            apply ih
            rw [get_of_record recorded named]
            exact repeated

end Draft

/-! ### Objects -/

theorem tokens_ne_nil_of_matches {count : Option Nat} {tokens : List Token}
    (is : (Form.value count).Matches tokens) : tokens ≠ [] := by
  intro none
  have passed := is.1 .value [] [] (.inl rfl)
  rw [none] at passed
  contradiction

theorem readMember_of_matches {count : Option Nat} {tokens : List Token}
    (is : (Form.value count).Matches tokens) (draft : Draft) (name : String)
    (rest : List Token) :
    readMember draft name (tokens ++ rest) =
      (draft.record (name, count)).map fun extended => (extended, rest) := by
  have nonempty := tokens_ne_nil_of_matches is
  obtain ⟨passed, counted⟩ := is
  unfold readMember Draft.record
  simp only
  cases Field.ofName? name with
  | none =>
      have skipped : skipValue (tokens ++ rest) = some rest :=
        (passed .value [] rest (.inl rfl)).trans (by rw [skipFrom])
      simp [skipped]
  | some field =>
      cases count with
      | some value =>
          have single := (counted value []).mpr ⟨rfl, rfl⟩
          rw [single]
          rfl
      | none =>
          cases tokens with
          | nil => exact absurd rfl nonempty
          | cons first others =>
              simp only [List.cons_append, Option.bind_none, Option.map_none]
              split
              · next found _ same =>
                  cases (List.cons.inj same).1
                  have impossible := (counted _ _).mp rfl
                  exact absurd impossible.1 (by simp)
              · rfl

theorem readMembers_cons (draft : Draft) (name : String) (tokens : List Token) :
    readMembers draft (.text (some name) :: .colon :: tokens) =
      match readMember draft name tokens with
      | some (extended, .comma :: rest) => readMembers extended rest
      | some (extended, [.closeObject]) => some extended
      | _ => none := by
  rw [readMembers]
  split <;> simp_all

theorem exists_readMembers {entries : List (List Piece × Option Nat)}
    {members : List (String × Option Nat)} {inner : List Char}
    (named : List.Forall₂ (fun entry member =>
      Spells entry.1 member.1.toList ∧ entry.2 = member.2) entries members)
    (written : Written (.members entries) inner) :
    ∃ key tokens, Yields inner (.text key :: tokens) ∧ ∀ draft : Draft,
      readMembers draft (.text key :: tokens ++ [.closeObject]) =
        members.foldlM Draft.record draft := by
  induction named generalizing inner with
  | nil => cases written
  | @cons entry member entries members first others ih =>
      obtain ⟨pieces, count⟩ := entry
      obtain ⟨name, held⟩ := member
      obtain ⟨spells, same⟩ := first
      simp only at spells same
      subst same
      have key : (spell [] pieces).map String.ofList = some name := by
        rw [spell_of_spells spells]
        simp
      cases written with
      | lastMember spelled keyPadded value padded =>
          cases others
          obtain ⟨tokens, yields, is⟩ := value.exists_tokens
          have front := (yields_string spelled).padded keyPadded
          rw [key] at front
          refine ⟨some name, .colon :: tokens,
            front.append_mark .colon (yields.padded padded), ?_⟩
          intro draft
          simp only [List.cons_append]
          rw [readMembers_cons, readMember_of_matches is, List.foldlM_cons]
          cases draft.record (name, count) with
          | none => rfl
          | some extended => rfl
      | member spelled keyPadded value padded later =>
          obtain ⟨tokens, yields, is⟩ := value.exists_tokens
          obtain ⟨next, more, yieldsMore, folds⟩ := ih later
          have front := (yields_string spelled).padded keyPadded
          rw [key] at front
          refine ⟨some name, .colon :: (tokens ++ .comma :: .text next :: more),
            front.append_mark .colon
              ((yields.padded padded).append_mark .comma yieldsMore), ?_⟩
          intro draft
          simp only [List.cons_append, List.append_assoc]
          rw [readMembers_cons, readMember_of_matches is, List.foldlM_cons]
          cases draft.record (name, count) with
          | none => rfl
          | some extended => exact folds extended

theorem readDraft_of_isObject {text : List Char}
    {members : List (String × Option Nat)} (object : IsObject text members) :
    (tokens? text).bind readDraft = members.foldlM Draft.record {} := by
  cases object with
  | empty space padded =>
      have whole := ((yields_gap space).enclosed .openObject .closeObject).padded padded
      rw [whole.tokens?]
      rfl
  | members written named padded =>
      obtain ⟨key, tokens, yields, folds⟩ := exists_readMembers named written
      have whole := (yields.enclosed .openObject .closeObject).padded padded
      rw [whole.tokens?, ← folds]
      rfl

theorem ofJson_of_recorded {text : String}
    {members : List (String × Option Nat)} {draft : Draft}
    (object : IsObject text.toList members)
    (recorded : members.foldlM Draft.record {} = some draft) :
    ofJson text =
      if draft.complete.maxSteps = 0 then .error (.config .zeroSteps)
      else .ok draft.complete := by
  rw [ofJson, readDraft_of_isObject object, recorded]

theorem ofJson_of_refused {text : String}
    {members : List (String × Option Nat)}
    (object : IsObject text.toList members)
    (refused : members.foldlM Draft.record {} = none) :
    ofJson text = .error (.config .malformedDocument) := by
  rw [ofJson, readDraft_of_isObject object, refused]

theorem maxSteps_pos_of_ofJson {text : String} {limits : Limits}
    (read : ofJson text = .ok limits) : 0 < limits.maxSteps := by
  unfold ofJson at read
  split at read
  · contradiction
  · next draft _ =>
      simp only at read
      split at read
      · contradiction
      · next positive =>
          cases read
          exact Nat.pos_of_ne_zero positive

/-! ### Written limits -/

theorem padded_of_gaps {before after : List Char} (spaceBefore : IsGap before)
    (spaceAfter : IsGap after) (text : List Char) :
    Padded text (before ++ (text ++ after)) :=
  ⟨before, after, spaceBefore, spaceAfter, rfl⟩

theorem stringBody_map_char {text : List Char}
    (plain : ∀ c ∈ text, c ≠ '"' ∧ c ≠ '\\' ∧ 0x20 ≤ c.toNat) :
    StringBody text (text.map .char) := by
  induction text with
  | nil => exact .nil
  | cons c rest ih =>
      obtain ⟨notQuote, notEscape, printable⟩ := plain c List.mem_cons_self
      exact .plain notQuote notEscape printable
        (ih fun other member => plain other (List.mem_cons_of_mem c member))

theorem spells_map_char (text : List Char) : Spells (text.map .char) text := by
  induction text with
  | nil => exact .nil
  | cons c rest ih => exact .char ih

theorem head?_toDigits_ne {value : Nat} (positive : 0 < value) :
    (Nat.toDigits 10 value).head? ≠ some '0' := by
  induction value using Nat.strongRecOn with
  | ind value ih =>
      rcases Nat.lt_or_ge value 10 with small | large
      · have digits : ∀ digit < 10, 0 < digit → digit.digitChar ≠ '0' := by
          decide
        rw [Nat.toDigits_of_lt_base small]
        simpa using digits value small positive
      · rw [Nat.toDigits_of_base_le (by decide) large,
          List.head?_append_of_ne_nil _ Nat.toDigits_ne_nil]
        exact ih (value / 10) (by omega) (by omega)

theorem written_count {value : Nat} (small : value < 2 ^ 64) :
    Written (.value (some value)) (Text.writeNat value).toList := by
  have isWhole : IsWhole (Nat.toDigits 10 value) := by
    by_cases zero : value = 0
    · subst zero
      exact .inl rfl
    · exact .inr ⟨Text.isDigits_toDigits value,
        head?_toDigits_ne (Nat.pos_of_ne_zero zero)⟩
  have exact : Text.decimal (Nat.toDigits 10 value) = value :=
    Nat.ofDigitChars_ten_toDigits
  have isCount : IsCount (Nat.toDigits 10 value) :=
    ⟨isWhole, exact.symm ▸ small⟩
  have written := Written.count isCount
  rw [exact] at written
  rw [Text.writeNat, String.toList_ofList]
  exact written

theorem plain_name (field : Field) :
    ∀ c ∈ field.name.toList, c ≠ '"' ∧ c ≠ '\\' ∧ 0x20 ≤ c.toNat := by
  have all : field.name.toList.all (fun c =>
      c ≠ '"' ∧ c ≠ '\\' ∧ 0x20 ≤ c.toNat) = true := by
    cases field <;> decide
  intro c member
  exact of_decide_eq_true (List.all_eq_true.mp all c member)

def memberText (layout : Layout) (member : Field × Nat) : String :=
  "\"" ++ member.1.name ++ "\":" ++ layout.afterColon ++ Text.writeNat member.2

theorem toList_memberText (layout : Layout) (member : Field × Nat) :
    (memberText layout member).toList =
      '"' :: (member.1.name.toList ++ ['"']) ++
        ':' :: (layout.afterColon.toList ++ (Text.writeNat member.2).toList) := by
  simp [memberText]

theorem written_members {layout : Layout} (spaced : layout.IsSpaced)
    {first : Field × Nat} {rest : List (Field × Nat)}
    (small : ∀ member ∈ first :: rest, member.2 < 2 ^ 64) {gap : List Char}
    (space : IsGap gap) (depth : Nat) :
    Written
      (.members ((first :: rest).map fun member =>
        (member.1.name.toList.map .char, some member.2)))
      ((layout.lineBreak depth).toList ++
        (List.intercalate (',' :: (layout.lineBreak depth).toList)
          (((first :: rest).map (memberText layout)).map String.toList) ++
            gap)) := by
  have key (member : Field × Nat) :=
    padded_of_gaps (spaced.lineBreak depth) isGap_nil
      ('"' :: (member.1.name.toList ++ ['"']))
  have spelled (member : Field × Nat) :=
    stringBody_map_char (plain_name member.1)
  induction rest generalizing first with
  | nil =>
      have written := Written.lastMember (spelled first) (key first)
        (written_count (small first List.mem_cons_self))
        (padded_of_gaps spaced.afterColon space _)
      simpa [toList_memberText] using written
  | cons second later ih =>
      have others := ih fun member present =>
        small member (List.mem_cons_of_mem first present)
      have written := Written.member (spelled first) (key first)
        (written_count (small first List.mem_cons_self))
        (padded_of_gaps spaced.afterColon isGap_nil _) others
      simpa [toList_memberText] using written

theorem isObject_toJson {limits : Limits}
    (small : ∀ field, limits.value field < 2 ^ 64) :
    IsObject limits.toJson.toList
      [(Field.name .sourceSize, some limits.maxSourceSize),
        (Field.name .instructions, some limits.maxInstructions),
        (Field.name .steps, some limits.maxSteps)] := by
  have written := @written_members _ isSpaced_compact
    (.sourceSize, limits.maxSourceSize)
    [(.instructions, limits.maxInstructions), (.steps, limits.maxSteps)]
    (by
      intro member present
      simp only [List.mem_cons, List.not_mem_nil, or_false] at present
      rcases present with rfl | rfl | rfl
      · exact small .sourceSize
      · exact small .instructions
      · exact small .steps) _ (isSpaced_compact.lineBreak 0) 1
  refine .members written ?_ ?_
  · simp [spells_map_char]
  · have text := Layout.toList_enclose_cons .compact "\x7b" "\x7d" 0
      (memberText .compact (.sourceSize, limits.maxSourceSize))
      [memberText .compact (.instructions, limits.maxInstructions),
        memberText .compact (.steps, limits.maxSteps)]
    have whole := padded_of_gaps isGap_nil isGap_nil limits.toJson.toList
    rw [List.nil_append, List.append_nil] at whole
    convert whole using 1
    refine Eq.trans ?_ text.symm
    simp

/-! ### Documents -/

theorem exists_ofJson_of_once {text : String}
    {members : List (String × Option Nat)}
    (object : IsObject text.toList members) {found : Field → Option Nat}
    (once : ∀ field, valuesOf field members = (found field).toList.map some) :
    ∃ limits : Limits,
      (∀ field, limits.value field =
        (found field).getD (standard.value field)) ∧
      ofJson text =
        if limits.maxSteps = 0 then .error (.config .zeroSteps)
        else .ok limits := by
  have fromNothing (field : Field) :
      (Draft.get {} field).toList.map some ++ valuesOf field members =
        (found field).toList.map some := by
    rw [← once field]
    cases field <;> rfl
  obtain ⟨draft, recorded, holds⟩ := Draft.exists_foldlM_record fromNothing
  refine ⟨draft.complete, ?_, ofJson_of_recorded object recorded⟩
  intro field
  rw [draft.value_complete, holds]

theorem ofJson_of_repeated {text : String}
    {members : List (String × Option Nat)}
    (object : IsObject text.toList members) {field : Field}
    (repeated : 2 ≤ (valuesOf field members).length) :
    ofJson text = .error (.config .malformedDocument) := by
  apply ofJson_of_refused object
  apply Draft.foldlM_record_of_repeated field
  omega

theorem ofJson_toJson {limits : Limits}
    (small : ∀ field, limits.value field < 2 ^ 64)
    (positive : 0 < limits.maxSteps) : ofJson limits.toJson = .ok limits := by
  obtain ⟨read, holds, outcome⟩ :=
    @exists_ofJson_of_once _ _ (isObject_toJson small)
      (fun field => some (limits.value field))
      (by intro field; cases field <;> rfl)
  have same : read = limits := ext_value holds
  rw [outcome, same, if_neg (Nat.ne_of_gt positive)]

/-- Of an object that names each field at most once, and then with a count of
sixty-four bits, the limits are those counts and the standard ones for the other
fields; only a step limit of zero is refused.  An object that names a field twice
is no document.  What is written for limits reads back as those limits, and limits
that were read allow a step. -/
theorem ofJson_decided_by_members :
    (∀ (text : String) (members : List (String × Option Nat)),
        IsObject text.toList members →
          (∀ found : Field → Option Nat,
            (∀ field, valuesOf field members = (found field).toList.map some) →
              ∃ limits : Limits,
                (∀ field, limits.value field =
                  (found field).getD (standard.value field)) ∧
                ofJson text =
                  if limits.maxSteps = 0 then .error (.config .zeroSteps)
                  else .ok limits) ∧
          ((∃ field, 2 ≤ (valuesOf field members).length) →
            ofJson text = .error (.config .malformedDocument))) ∧
      (∀ limits : Limits, (∀ field, limits.value field < 2 ^ 64) →
        0 < limits.maxSteps → ofJson limits.toJson = .ok limits) ∧
      (∀ text limits, ofJson text = .ok limits → 0 < limits.maxSteps) ∧
      ConfigFault.message .zeroSteps = "max_steps must be greater than zero" := by
  refine ⟨?_, ?_, ?_, rfl⟩
  · intro text members object
    constructor
    · intro found once
      exact exists_ofJson_of_once object once
    · intro twice
      obtain ⟨field, repeated⟩ := twice
      exact ofJson_of_repeated object repeated
  · intro limits small positive
    exact ofJson_toJson small positive
  · intro text limits read
    exact maxSteps_pos_of_ofJson read

theorem ofJson_decided_by_members_of_nested :
    IsObject
        "\x7b\"x\":[\x7b\"max_steps\":-1\x7d],\t\"\\u006Dax_steps\" :7\x7d\n".toList
        [("x", none), ("max_steps", some 7)] ∧
      ofJson
          "\x7b\"x\":[\x7b\"max_steps\":-1\x7d],\t\"\\u006Dax_steps\" :7\x7d\n" =
        .ok { standard with maxSteps := 7 } := by
  have tight (text : List Char) : Padded text text :=
    ⟨[], [], isGap_nil, isGap_nil, by simp⟩
  have one : IsWhole ['1'] := .inr ⟨by simp [Text.IsDigits], by simp⟩
  have negative : Written (.value none) ['-', '1'] := by
    refine .number (.mk (.inr rfl) one .absent .absent) ?_
    intro isCount
    have digit := isCount.1.isDigits.2 '-' (by simp)
    contradiction
  have nested := Written.array (.lastItem (.object (.lastMember
    (stringBody_map_char (plain_name .steps)) (tight _) negative (tight _)))
    (tight _))
  have seven : Written (.value (some 7)) ['7'] := written_count (by decide)
  have other : StringBody ['x'] [.char 'x'] :=
    .plain (by decide) (by decide) (by decide) .nil
  have steps : StringBody ('\\' :: 'u' :: '0' :: '0' :: '6' :: 'D' :: "ax_steps".toList)
      (.codeUnit (4096 * 0 + 256 * 0 + 16 * 6 + 13) :: "ax_steps".toList.map .char) :=
    .codeUnit (.inl (by decide)) (.inl (by decide)) (.inl (by decide))
      (.inr (by decide)) (stringBody_map_char fun c member =>
        plain_name .steps c (List.mem_cons_of_mem 'm' member))
  have spells : Spells
      (.codeUnit (4096 * 0 + 256 * 0 + 16 * 6 + 13) :: "ax_steps".toList.map .char)
      "max_steps".toList :=
    .codeUnit (.inl (by decide)) (spells_map_char "ax_steps".toList)
  have object := @IsObject.members _ _ _ [("x", none), ("max_steps", some 7)]
    (.member other (tight _) nested (tight _) (.lastMember steps
      (@padded_of_gaps ['\t'] [' '] (by simp [IsGap]) (by simp [IsGap]) _)
      seven (tight _)))
    (.cons ⟨.char .nil, rfl⟩ (.cons ⟨spells, rfl⟩ .nil))
    (@padded_of_gaps [] ['\n'] isGap_nil (by simp [IsGap]) _)
  have document : IsObject
      "\x7b\"x\":[\x7b\"max_steps\":-1\x7d],\t\"\\u006Dax_steps\" :7\x7d\n".toList
      [("x", none), ("max_steps", some 7)] := object
  refine ⟨document, ?_⟩
  obtain ⟨limits, holds, outcome⟩ :=
    (ofJson_decided_by_members.1 _ _ document).1
      (fun field => if field = .steps then some 7 else none)
      (by intro field; cases field <;> decide)
  have same : limits = { standard with maxSteps := 7 } := by
    apply ext_value
    intro field
    rw [holds]
    cases field <;> rfl
  rw [outcome, same]
  rfl

end Limits
end RegisterMachine
