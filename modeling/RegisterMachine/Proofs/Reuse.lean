/-
Assemblers that are used again.

What an assembler keeps is always the end of one line of an earlier text.  Each line
puts its tokens in the place of those before any is read, so that whatever was left
has no part in what later texts give.
-/

import RegisterMachine.Proofs.FirstFault

namespace RegisterMachine

namespace Source
namespace Reader

/-! ### What readers leave -/

def leftBy {α : Type} : EStateM.Result Fault (List Token) α → List Token
  | .ok _ left => left
  | .error _ left => left

def ConsumesFront {α : Type} (reader : Reader α) : Prop :=
  ∀ tokens, leftBy (reader tokens) <:+ tokens

section ConsumesFront

variable {α β : Type} {number : Nat}

theorem consumesFront_pure (value : α) :
    ConsumesFront (pure value : Reader α) := by
  intro tokens
  exact List.suffix_refl tokens

theorem ConsumesFront.bind {first : Reader α} {second : α → Reader β}
    (front : ConsumesFront first) (onward : ∀ value, ConsumesFront (second value)) :
    ConsumesFront (first >>= second) := by
  intro tokens
  change leftBy (EStateM.bind first second tokens) <:+ tokens
  have left := front tokens
  unfold EStateM.bind
  cases outcome : first tokens with
  | error fault rest =>
      rw [outcome] at left
      exact left
  | ok value rest =>
      rw [outcome] at left
      exact (onward value rest).trans left

theorem consumesFront_word (wanted : Wanted)
    (read : String → Option Place → Except Fault α) :
    ConsumesFront (word wanted number read) := by
  intro tokens
  cases tokens with
  | nil => exact List.suffix_refl []
  | cons token rest =>
      have consumed : rest <:+ token :: rest := List.suffix_cons token rest
      simp only [word, next, Bind.bind, EStateM.bind]
      cases read token.text (some token.place) with
      | ok value => exact consumed
      | error fault => exact consumed

theorem consumesFront_label : ConsumesFront label := by
  intro tokens
  unfold label
  split
  · next name colon rest =>
      split
      · cases readLabel name.text (some name.place) with
        | ok carried =>
            exact (List.suffix_cons colon rest).trans (List.suffix_cons name _)
        | error fault => exact List.suffix_cons name _
      · exact List.suffix_refl _
  · exact List.suffix_refl _

theorem consumesFront_finish : ConsumesFront finish := by
  intro tokens
  cases tokens with
  | nil => exact List.suffix_refl []
  | cons extra rest => exact List.suffix_refl _

theorem consumesFront_operands (opcode : Opcode) :
    ConsumesFront (operands number opcode) := by
  have register : ConsumesFront (Reader.register number) :=
    consumesFront_word .register readRegister
  have literal : ConsumesFront (Reader.literal number) :=
    consumesFront_word .literal readLiteral
  have target : ConsumesFront (Reader.target number) :=
    consumesFront_word .label readLabel
  cases opcode with
  | binary op =>
      exact register.bind fun _ => register.bind fun _ => consumesFront_pure _
  | mov => exact register.bind fun _ => literal.bind fun _ => consumesFront_pure _
  | out => exact register.bind fun _ => consumesFront_pure _
  | jmp => exact target.bind fun _ => consumesFront_pure _
  | branch test =>
      exact register.bind fun _ => target.bind fun _ => consumesFront_pure _

theorem consumesFront_instruction : ConsumesFront (instruction number) := by
  have opcode : ConsumesFront (Reader.opcode number) :=
    consumesFront_word .opcode readOpcode
  exact consumesFront_label.bind fun _ => opcode.bind fun kind =>
    (consumesFront_operands kind).bind fun _ =>
      consumesFront_finish.bind fun _ => consumesFront_pure _

end ConsumesFront
end Reader
end Source

namespace Assembler

open Source

/-! ### What texts leave -/

/-- The tokens are the end of a line: those after some position in it. -/
def LeftOf (lines : List (List Char)) (number : Nat) (left : List Token) : Prop :=
  ∃ place line, lines[place]? = some line ∧ left <:+ scan (number + place) line

theorem LeftOf.cons {lines : List (List Char)} {number : Nat}
    {left : List Token} (among : LeftOf lines (number + 1) left)
    (line : List Char) : LeftOf (line :: lines) number left := by
  obtain ⟨place, other, found, ending⟩ := among
  refine ⟨place + 1, other, found, ?_⟩
  rw [Nat.add_assoc, Nat.add_comm 1 place] at ending
  exact ending

/-- What is left is the end of one of the lines, or it is what was left before. -/
theorem leftOf_readLines (limits : Limits) (number : Nat) (program : Program)
    (pending : List Token) (lines : List (List Char)) :
    (readLines limits number program pending lines).2 = pending ∨
      LeftOf lines number (readLines limits number program pending lines).2 := by
  induction lines generalizing number program pending with
  | nil => exact .inl rfl
  | cons line rest ih =>
      have here {left : List Token} (ending : left <:+ scan number line) :
          LeftOf (line :: rest) number left := ⟨0, line, rfl, ending⟩
      -- the lines below start from what this line left
      have below {left : List Token} (program : Program)
          (ending : left <:+ scan number line) :
          LeftOf (line :: rest) number
            (readLines limits (number + 1) program left rest).2 := by
        rcases ih (number + 1) program left with kept | among
        · rw [kept]
          exact here ending
        · exact among.cons line
      refine .inr ?_
      rw [readLines]
      cases scanned : scan number line with
      | nil => exact below program (List.nil_suffix)
      | cons first others =>
          have front := @Reader.consumesFront_instruction number (first :: others)
          rw [← scanned] at front
          simp only
          rw [← scanned]
          cases read : Reader.instruction number (scan number line) with
          | error fault left =>
              rw [read] at front
              exact here front
          | ok instruction left =>
              rw [read] at front
              simp only
              cases program.push instruction with
              | error fault => exact here front
              | ok result =>
                  simp only
                  cases limits.checkInstructionCount result.2.size with
                  | error fault => exact here front
                  | ok counted => exact below result.2 front

/-! ### One text after another -/

def afterAll (assembler : Assembler) (sources : List String) : Assembler :=
  sources.foldl (fun reached source => (reached.assemble source).2) assembler

theorem assemble_pending (limits : Limits) (pending : List Token)
    (source : String) :
    (assemble ⟨limits, pending⟩ source).1 =
      (assemble { limits := limits } source).1 := by
  unfold assemble
  cases limits.checkSourceSize source.utf8ByteSize with
  | error fault => rfl
  | ok _ => exact readLines_pending pending _

theorem assemble_leaves (limits : Limits) (pending : List Token)
    (source : String) :
    ∃ left, (assemble ⟨limits, pending⟩ source).2 = ⟨limits, left⟩ ∧
      (left = pending ∨ LeftOf (Text.lines source.toList) 1 left) := by
  unfold assemble
  cases limits.checkSourceSize source.utf8ByteSize with
  | error fault => exact ⟨pending, rfl, .inl rfl⟩
  | ok _ => exact ⟨_, rfl, leftOf_readLines limits 1 .empty pending _⟩

theorem afterAll_leaves (limits : Limits) (pending : List Token)
    (sources : List String) :
    ∃ left, afterAll ⟨limits, pending⟩ sources = ⟨limits, left⟩ ∧
      (left = pending ∨
        ∃ source ∈ sources, LeftOf (Text.lines source.toList) 1 left) := by
  induction sources generalizing pending with
  | nil => exact ⟨pending, rfl, .inl rfl⟩
  | cons source rest ih =>
      obtain ⟨middle, reached, origin⟩ := assemble_leaves limits pending source
      obtain ⟨left, final, later⟩ := ih middle
      refine ⟨left, ?_, ?_⟩
      · change afterAll (assemble ⟨limits, pending⟩ source).2 rest = _
        rw [reached]
        exact final
      · rcases later with kept | ⟨other, among, ending⟩
        · rw [kept]
          rcases origin with same | ending
          · exact .inl same
          · exact .inr ⟨source, List.mem_cons_self, ending⟩
        · exact .inr ⟨other, List.mem_cons_of_mem source among, ending⟩

/-- Whatever an assembler was left with, each text of a sequence has the outcome it has
on its own, wherever the texts before it failed. -/
theorem assembleAll_as_new (limits : Limits) (pending : List Token)
    (sources : List String) :
    assembleAll ⟨limits, pending⟩ sources =
        sources.map (fun source => (assemble { limits := limits } source).1) ∧
      ∃ left, afterAll ⟨limits, pending⟩ sources = ⟨limits, left⟩ ∧
        (left = pending ∨
          ∃ source ∈ sources, LeftOf (Text.lines source.toList) 1 left) := by
  refine ⟨?_, afterAll_leaves limits pending sources⟩
  induction sources generalizing pending with
  | nil => rfl
  | cons source rest ih =>
      obtain ⟨left, reached, _⟩ := assemble_leaves limits pending source
      rw [assembleAll, List.map_cons, assemble_pending, reached]
      exact congrArg _ (ih left)

theorem assembleAll_as_new_of_missing_register :
    afterAll { limits := .standard } ["mov EAX x EBX"] =
        ⟨.standard, [⟨"EBX", ⟨1, 11⟩⟩]⟩ ∧
      assembleAll { limits := .standard } ["mov EAX x EBX", "out"] =
        [.error (.source (.rejected .invalidLiteral "x" (some ⟨1, 9⟩))),
          .error (.source (.missing .register 1))] := by
  refine ⟨by with_unfolding_all rfl, ?_⟩
  rw [(assembleAll_as_new .standard [] ["mov EAX x EBX", "out"]).1]
  with_unfolding_all rfl

end Assembler
end RegisterMachine
