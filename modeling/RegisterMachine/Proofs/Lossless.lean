/-
Renderings that lose nothing.

In front of a character that no numeral has, a numeral and what follows it can be
told apart.  This carries over to texts that are put together from separable parts,
and from there to register lines and to snapshots.
-/

import RegisterMachine.Machine.Snapshot
import RegisterMachine.Proofs.JsonText
import RegisterMachine.Proofs.SourceLine

namespace RegisterMachine
namespace Text

/-! ### Separable texts -/

def isNumeralChar (c : Char) : Bool :=
  c.isDigit || c == '-'

def EndsNumeral (rest : List Char) : Prop :=
  ∀ c ∈ rest.head?, isNumeralChar c = false

theorem endsNumeral_cons {c : Char} (noNumeral : isNumeralChar c = false)
    (rest : List Char) : EndsNumeral (c :: rest) := by
  intro first present
  cases present
  exact noNumeral

/-- What is written is known from the text in front of what ends a numeral. -/
structure Separable {α : Type} (write : α → List Char) : Prop where
  cut {value twin : α} {rest other : List Char} (ends : EndsNumeral rest)
      (endsOther : EndsNumeral other)
      (same : write value ++ rest = write twin ++ other) :
      value = twin ∧ rest = other

theorem separable_of_run {α : Type} {write : α → List Char}
    (numeral : ∀ value, ∀ c ∈ write value, isNumeralChar c = true)
    (injective : ∀ {value twin}, write value = write twin → value = twin) :
    Separable write := by
  constructor
  intro value twin rest other ends endsOther same
  obtain ⟨texts, tails⟩ :=
    append_inj_of_run (numeral value) (numeral twin) ends endsOther same
  exact ⟨injective texts, tails⟩

theorem isNumeralChar_of_mem_writeNat (value : Nat) :
    ∀ c ∈ (writeNat value).toList, isNumeralChar c = true := by
  intro c member
  rw [writeNat, String.toList_ofList] at member
  simp [isNumeralChar, (isDigits_toDigits value).2 c member]

theorem separable_writeNat : Separable fun value => (writeNat value).toList := by
  apply separable_of_run
  · exact isNumeralChar_of_mem_writeNat
  · intro value twin same
    simp only [writeNat, String.toList_ofList] at same
    rw [← @Nat.ofDigitChars_ten_toDigits value, same,
      Nat.ofDigitChars_ten_toDigits]

theorem isNumeralChar_of_mem_writeWord (word : Int32) :
    ∀ c ∈ (writeWord word).toList, isNumeralChar c = true := by
  unfold writeWord
  split
  · exact isNumeralChar_of_mem_writeNat _
  · next below _ =>
      intro c member
      rw [String.toList_append, List.mem_append] at member
      rcases member with sign | digit
      · rw [List.mem_singleton.mp sign]
        rfl
      · exact isNumeralChar_of_mem_writeNat (below + 1) c digit

theorem readWord_writeWord (word : Int32) :
    readWord (writeWord word).toList = .ok word :=
  (readWord_eq_ok_iff _ _).mpr (isLiteral_writeWord word)

theorem separable_writeWord : Separable fun word => (writeWord word).toList := by
  apply separable_of_run
  · exact isNumeralChar_of_mem_writeWord
  · intro word twin same
    have read := readWord_writeWord word
    rw [same, readWord_writeWord] at read
    exact (Except.ok.inj read).symm

theorem writeWord_begins (word : Int32) {mark : Char}
    (noNumeral : isNumeralChar mark = false) :
    ∃ c later, (writeWord word).toList = c :: later ∧ c ≠ mark := by
  cases text : (writeWord word).toList with
  | nil =>
      have read := readWord_writeWord word
      rw [text] at read
      contradiction
  | cons c later =>
      have numeral := isNumeralChar_of_mem_writeWord word c
        (by rw [text]; exact List.mem_cons_self)
      refine ⟨c, later, rfl, ?_⟩
      rintro rfl
      rw [noNumeral] at numeral
      contradiction

theorem Separable.prepend {α : Type} {write : α → List Char}
    (separable : Separable write) (front : List Char) :
    Separable fun value => front ++ write value := by
  constructor
  intro value twin rest other ends endsOther same
  rw [List.append_assoc, List.append_assoc] at same
  exact separable.cut ends endsOther (List.append_cancel_left same)

theorem Separable.pair {α β : Type} {write : α → List Char}
    {writeNext : β → List Char} (separable : Separable write)
    (next : Separable writeNext) (c : Char) (between : List Char)
    (noNumeral : isNumeralChar c = false) :
    Separable fun both : α × β =>
      write both.1 ++ (c :: between ++ writeNext both.2) := by
  have ends := endsNumeral_cons noNumeral
  constructor
  intro value twin rest other endsRest endsOther same
  simp only [List.append_assoc, List.cons_append] at same
  obtain ⟨firsts, tails⟩ := separable.cut (ends _) (ends _) same
  have onward := List.append_cancel_left (List.cons.inj tails).2
  obtain ⟨seconds, left⟩ := next.cut endsRest endsOther onward
  exact ⟨Prod.ext firsts seconds, left⟩

/-! ### Separable sequences -/

/-- Neither the separator nor more of a numeral follows the items. -/
def ClosesItems (mark : Char) (tail : List Char) : Prop :=
  ∃ c rest, tail = c :: rest ∧ c ≠ mark ∧ isNumeralChar c = false

theorem ClosesItems.endsNumeral {mark : Char} {tail : List Char}
    (closes : ClosesItems mark tail) : EndsNumeral tail := by
  obtain ⟨c, rest, rfl, _, noNumeral⟩ := closes
  exact endsNumeral_cons noNumeral rest

theorem Separable.intercalate {α : Type} {write : α → List Char}
    (separable : Separable write) {mark : Char} {gap : List Char}
    (noNumeral : isNumeralChar mark = false) {first second : α}
    {items others : List α} {rest other : List Char}
    (closes : ClosesItems mark rest) (closesOther : ClosesItems mark other)
    (same : List.intercalate (mark :: gap) ((first :: items).map write) ++ rest =
      List.intercalate (mark :: gap) ((second :: others).map write) ++ other) :
    first :: items = second :: others ∧ rest = other := by
  have ends := endsNumeral_cons noNumeral
  induction items generalizing first second others with
  | nil =>
      cases others with
      | nil =>
          simp only [List.map_cons, List.map_nil, List.intercalate_singleton] at same
          obtain ⟨firsts, tails⟩ :=
            separable.cut closes.endsNumeral closesOther.endsNumeral same
          exact ⟨by rw [firsts], tails⟩
      | cons third later =>
          simp only [List.map_cons, List.map_nil, List.intercalate_singleton,
            List.intercalate_cons_cons, List.append_assoc, List.cons_append] at same
          obtain ⟨_, tails⟩ := separable.cut closes.endsNumeral (ends _) same
          obtain ⟨c, _, shape, different, _⟩ := closes
          rw [shape] at tails
          exact absurd (List.cons.inj tails).1 different
  | cons third later ih =>
      cases others with
      | nil =>
          simp only [List.map_cons, List.map_nil, List.intercalate_singleton,
            List.intercalate_cons_cons, List.append_assoc, List.cons_append] at same
          obtain ⟨_, tails⟩ := separable.cut (ends _) closesOther.endsNumeral same
          obtain ⟨c, _, shape, different, _⟩ := closesOther
          rw [shape] at tails
          exact absurd (List.cons.inj tails).1.symm different
      | cons fourth more =>
          simp only [List.map_cons, List.intercalate_cons_cons, List.append_assoc,
            List.cons_append] at same ih
          obtain ⟨firsts, tails⟩ := separable.cut (ends _) (ends _) same
          obtain ⟨items, left⟩ := ih (List.append_cancel_left (List.cons.inj tails).2)
          exact ⟨by rw [firsts, items], left⟩

end Text

/-! ### Enclosed sequences -/

namespace Json

open Text

theorem isNumeralChar_of_isSpace {c : Char} (space : isSpace c = true) :
    isNumeralChar c = false := by
  simp only [isSpace, Bool.or_eq_true, beq_iff_eq] at space
  rcases space with ((rfl | rfl) | rfl) | rfl <;> decide

section Enclosed

variable {layout : Layout} {closing : Char}

theorem closesItems_break (spaced : layout.IsSpaced)
    (notMark : closing ≠ ',') (noNumeral : isNumeralChar closing = false)
    (depth : Nat) (rest : List Char) :
    ClosesItems ',' ((layout.lineBreak depth).toList ++ closing :: rest) := by
  have space := spaced.lineBreak depth
  cases gap : (layout.lineBreak depth).toList with
  | nil => exact ⟨closing, rest, rfl, notMark, noNumeral⟩
  | cons c later =>
      rw [gap] at space
      have isSpace := space.isSpace List.mem_cons_self
      refine ⟨c, _, rfl, ?_, isNumeralChar_of_isSpace isSpace⟩
      rintro rfl
      contradiction

theorem break_append_ne (spaced : layout.IsSpaced)
    (noSpace : isSpace closing = false) {item : List Char}
    (begins : ∃ c later, item = c :: later ∧ c ≠ closing) (depth : Nat)
    (tail rest : List Char) :
    (layout.lineBreak depth).toList ++ (item ++ tail) ≠ closing :: rest := by
  have space := spaced.lineBreak depth
  obtain ⟨first, later, rfl, different⟩ := begins
  intro same
  cases gap : (layout.lineBreak depth).toList with
  | nil =>
      rw [gap] at same
      exact different (List.cons.inj same).1
  | cons c more =>
      rw [gap] at same space
      have isSpace := space.isSpace List.mem_cons_self
      rw [(List.cons.inj same).1, noSpace] at isSpace
      contradiction

theorem exists_intercalate_cons (separator first : List Char)
    (rest : List (List Char)) :
    ∃ tail, List.intercalate separator (first :: rest) = first ++ tail := by
  cases rest with
  | nil => exact ⟨[], by simp⟩
  | cons second later =>
      exact ⟨_, by rw [List.intercalate_cons_cons, List.append_assoc]⟩

theorem toList_enclose_map_cons (opening : String) (depth : Nat) {α : Type}
    (write : α → String) (item : α) (items : List α) :
    (layout.enclose opening (String.singleton closing) depth
        ((item :: items).map write)).toList =
      opening.toList ++ ((layout.lineBreak (depth + 1)).toList ++
        (List.intercalate (',' :: (layout.lineBreak (depth + 1)).toList)
            ((item :: items).map fun item => (write item).toList) ++
          ((layout.lineBreak depth).toList ++ [closing]))) := by
  rw [List.map_cons, Layout.toList_enclose_cons]
  simp [Function.comp_def]

/-- Brackets around separable items are separable, also when they are empty. -/
theorem separable_enclose (spaced : layout.IsSpaced) {α : Type}
    {write : α → String} (separable : Separable fun item => (write item).toList)
    (begins : ∀ item, ∃ c later, (write item).toList = c :: later ∧ c ≠ closing)
    (notMark : closing ≠ ',') (noNumeral : isNumeralChar closing = false)
    (noSpace : isSpace closing = false) (opening : String) (depth : Nat) :
    Separable fun items : List α =>
      (layout.enclose opening (String.singleton closing) depth
        (items.map write)).toList := by
  have empty : (layout.enclose opening (String.singleton closing) depth []).toList =
      opening.toList ++ [closing] := by
    simp [Layout.enclose]
  have filled := @toList_enclose_map_cons layout closing opening depth _ write
  have apart (item : α) (items : List α) (tail rest : List Char) :
      (layout.lineBreak (depth + 1)).toList ++
        (List.intercalate (',' :: (layout.lineBreak (depth + 1)).toList)
          ((item :: items).map fun item => (write item).toList) ++ tail) ≠
        closing :: rest := by
    obtain ⟨later, front⟩ := exists_intercalate_cons
      (',' :: (layout.lineBreak (depth + 1)).toList) (write item).toList
      (items.map fun item => (write item).toList)
    rw [List.map_cons, front, List.append_assoc]
    exact break_append_ne spaced noSpace (begins item) (depth + 1) _ rest
  constructor
  intro items others rest other ends endsOther same
  cases items with
  | nil =>
      cases others with
      | nil =>
          simp only [List.map_nil, empty] at same
          exact ⟨rfl, List.append_cancel_left same⟩
      | cons second later =>
          simp only [List.map_nil, empty, filled, List.append_assoc] at same
          exact absurd (List.append_cancel_left same).symm (apart _ _ _ _)
  | cons first more =>
      cases others with
      | nil =>
          simp only [List.map_nil, empty, filled, List.append_assoc] at same
          exact absurd (List.append_cancel_left same) (apart _ _ _ _)
      | cons second later =>
          simp only [filled, List.append_assoc] at same
          have onward := List.append_cancel_left (List.append_cancel_left same)
          obtain ⟨sameItems, tails⟩ := separable.intercalate (by decide)
            (closesItems_break spaced notMark noNumeral depth rest)
            (closesItems_break spaced notMark noNumeral depth other) onward
          refine ⟨sameItems, ?_⟩
          exact (List.cons.inj (List.append_cancel_left tails)).2

end Enclosed
end Json

/-! ### Registers -/

open Text

namespace RegisterFile

theorem ext_get {file other : RegisterFile}
    (agree : ∀ register, file.get register = other.get register) : file = other := by
  have placed : ∀ place : Fin 8, ∃ register ∈ Register.all, register.index = place := by
    decide
  cases file
  cases other
  congr 1
  apply Vector.ext
  intro place below
  obtain ⟨register, _, index⟩ := placed ⟨place, below⟩
  have same := agree register
  simp only [get, index] at same
  exact same

theorem eq_of_entries_eq {file other : RegisterFile}
    (same : file.entries = other.entries) : file = other := by
  apply ext_get
  intro register
  have pairs := (List.map_inj_left.mp same) register register.mem_all
  exact (Prod.mk.inj pairs).2

theorem separable_entry (c : Char) (between : List Char)
    (notCapital : c.isUpper = false) :
    Separable fun entry : Register × Int32 =>
      entry.1.name.toList ++ (c :: between ++ (writeWord entry.2).toList) := by
  have ends (tail : List Char) :
      ∀ first ∈ (c :: tail).head?, first.isUpper = false := by
    intro first present
    cases present
    exact notCapital
  constructor
  intro entry twin rest other endsRest endsOther same
  simp only [List.append_assoc, List.cons_append] at same
  obtain ⟨names, tails⟩ := append_inj_of_run (Source.isUpper_of_mem_name entry.1)
    (Source.isUpper_of_mem_name twin.1) (ends _) (ends _) same
  have onward := List.append_cancel_left (List.cons.inj tails).2
  obtain ⟨words, left⟩ := separable_writeWord.cut endsRest endsOther onward
  have registers := Source.name_injective (String.toList_inj.mp names)
  exact ⟨Prod.ext registers words, left⟩

theorem entries_eq_cons (file : RegisterFile) :
    file.entries = (.eax, file.get .eax) ::
      Register.all.tail.map fun register => (register, file.get register) :=
  rfl

theorem render_injective {file other : RegisterFile}
    (same : file.render = other.render) : file = other := by
  have written (file : RegisterFile) :
      file.render.toList = '[' ::
        (List.intercalate [',', ' '] (file.entries.map fun entry =>
          entry.1.name.toList ++
            (' ' :: ['=', ' '] ++ (writeWord entry.2).toList)) ++ [']']) := by
    simp [render, String.toList_intercalate, Function.comp_def]
  have closes : ClosesItems ',' [']'] := ⟨']', [], rfl, by decide, by decide⟩
  have texts := congrArg String.toList same
  rw [written, written, entries_eq_cons, entries_eq_cons] at texts
  obtain ⟨entries, _⟩ := (separable_entry ' ' ['=', ' '] (by decide)).intercalate
    (by decide) closes closes (List.cons.inj texts).2
  exact eq_of_entries_eq entries

theorem separable_toJson {layout : Json.Layout} (spaced : layout.IsSpaced)
    (depth : Nat) :
    Separable fun file : RegisterFile => (file.toJson layout depth).toList := by
  let write (entry : Register × Int32) : String :=
    "\"" ++ entry.1.name ++ "\":" ++ layout.afterColon ++ writeWord entry.2
  have written (entry : Register × Int32) :
      (write entry).toList = ['"'] ++ (entry.1.name.toList ++
        ('"' :: (':' :: layout.afterColon.toList) ++
          (writeWord entry.2).toList)) := by
    simp [write]
  have entry : Separable fun entry => (write entry).toList := by
    simp only [written]
    exact (separable_entry '"' _ (by decide)).prepend ['"']
  have object := @Json.separable_enclose layout '\x7d' spaced _ _ entry
    (fun item => ⟨'"', _, written item, by decide⟩) (by decide) (by decide)
    (by decide) "\x7b" depth
  constructor
  intro file other rest tail ends endsTail same
  have texts (file : RegisterFile) :
      file.toJson layout depth =
        layout.enclose "\x7b" (String.singleton '\x7d') depth
          (file.entries.map write) := by
    rw [toJson, Json.Layout.object, List.map_map]
    rfl
  simp only [texts] at same
  obtain ⟨entries, tails⟩ := object.cut ends endsTail same
  exact ⟨eq_of_entries_eq entries, tails⟩

end RegisterFile

/-! ### Snapshots -/

namespace Json

theorem separable_wordArray {layout : Layout} (spaced : layout.IsSpaced)
    (depth : Nat) :
    Separable fun words : List Int32 =>
      (layout.array depth (words.map writeWord)).toList :=
  @separable_enclose layout ']' spaced _ _ separable_writeWord
    (fun word => writeWord_begins word (by decide)) (by decide) (by decide)
    (by decide) "[" depth

end Json

namespace Snapshot

theorem toList_toJson (snapshot : Snapshot) (layout : Json.Layout) :
    (snapshot.toJson layout).toList =
      "\x7b".toList ++ (layout.lineBreak 1).toList ++ "\"registers\":".toList ++
        layout.afterColon.toList ++
      ((snapshot.registers.toJson layout 1).toList ++
        (',' :: ((layout.lineBreak 1).toList ++ "\"program_counter\":".toList ++
            layout.afterColon.toList) ++
          ((writeNat snapshot.counter).toList ++
            (',' :: ((layout.lineBreak 1).toList ++ "\"steps\":".toList ++
                layout.afterColon.toList) ++
              ((writeNat snapshot.steps).toList ++
                (',' :: ((layout.lineBreak 1).toList ++ "\"output\":".toList ++
                    layout.afterColon.toList) ++
                  (layout.array 1
                    (snapshot.output.toList.map writeWord)).toList))))) ++
      ((layout.lineBreak 0).toList ++ ['\x7d'])) := by
  rw [toJson, Json.Layout.object, List.map_cons, Json.Layout.toList_enclose_cons]
  simp

theorem toJson_injective {layout : Json.Layout} (spaced : layout.IsSpaced)
    {snapshot other : Snapshot}
    (same : snapshot.toJson layout = other.toJson layout) : snapshot = other := by
  have last := separable_writeNat.pair (Json.separable_wordArray spaced 1) ','
    ((layout.lineBreak 1).toList ++ "\"output\":".toList ++
      layout.afterColon.toList) (by decide)
  have middle := separable_writeNat.pair last ','
    ((layout.lineBreak 1).toList ++ "\"steps\":".toList ++
      layout.afterColon.toList) (by decide)
  have whole := (RegisterFile.separable_toJson spaced 1).pair middle ','
    ((layout.lineBreak 1).toList ++ "\"program_counter\":".toList ++
      layout.afterColon.toList) (by decide)
  have ends : EndsNumeral ((layout.lineBreak 0).toList ++ ['\x7d']) :=
    (Json.closesItems_break spaced (by decide) (by decide) 0 []).endsNumeral
  have texts := congrArg String.toList same
  rw [toList_toJson, toList_toJson] at texts
  obtain ⟨parts, _⟩ := @Separable.cut _ _ whole
    (snapshot.registers, snapshot.counter, snapshot.steps, snapshot.output.toList)
    (other.registers, other.counter, other.steps, other.output.toList) _ _
    ends ends (List.append_cancel_left texts)
  simp only [Prod.mk.injEq] at parts
  obtain ⟨registers, counters, steps, outputs⟩ := parts
  cases snapshot
  cases other
  simp only at registers counters steps outputs
  rw [registers, counters, steps, Array.toList_inj.mp outputs]

end Snapshot

namespace Machine

/-- Two states whose snapshots have the same text, on one line or indented, agree in
registers, counter, step count and output; two register lines with the same text
show the same words. -/
theorem state_of_rendering (machine other : Machine) :
    (machine.snapshot.toJson .compact = other.snapshot.toJson .compact ∨
        machine.snapshot.toJson .indented = other.snapshot.toJson .indented →
      machine.registers = other.registers ∧ machine.counter = other.counter ∧
        machine.steps = other.steps ∧ machine.output = other.output) ∧
      (machine.registers.render = other.registers.render →
        ∀ register, machine.registers.get register =
          other.registers.get register) := by
  constructor
  · intro texts
    have snapshots : machine.snapshot = other.snapshot := by
      rcases texts with compact | indented
      · exact Snapshot.toJson_injective Json.isSpaced_compact compact
      · exact Snapshot.toJson_injective Json.isSpaced_indented indented
    exact ⟨congrArg Snapshot.registers snapshots,
      congrArg Snapshot.counter snapshots, congrArg Snapshot.steps snapshots,
      congrArg Snapshot.output snapshots⟩
  · intro lines register
    rw [RegisterFile.render_injective lines]

end Machine
end RegisterMachine
