/-
The JSON switch among the arguments.

Arguments that ask for a plain run ask for the same run in JSON mode when the
switch is put before them.  The invariant of the induction is that the draft with
the switch on follows the draft with the switch off.
-/

import RegisterMachine.CommandLine.Arguments

namespace RegisterMachine
namespace CommandLine

def Draft.withJson (draft : Draft) : Draft :=
  { draft with json := true }

def Invocation.withJson (invocation : Invocation) : Invocation :=
  { invocation with json := true }

def Request.withJson : Request → Request
  | .run invocation => .run invocation.withJson
  | .help => .help
  | .version => .version

def Progress.withJson : Progress → Progress
  | .going draft => .going draft.withJson
  | .done request => .done request.withJson

def Request.IsPlain : Request → Prop
  | .run invocation => invocation.json = false
  | .help => False
  | .version => False

def Progress.IsPlain : Progress → Prop
  | .going draft => draft.json = false
  | .done request => request.IsPlain

namespace Draft

/-! ### Values -/

theorem supply_withJson {draft supplied : Draft} {parameter : Parameter}
    {value : Option String}
    (accepted : draft.supply parameter value = .ok supplied) :
    supplied.json = draft.json ∧
      draft.withJson.supply parameter value = .ok supplied.withJson := by
  cases value with
  | none => contradiction
  | some value =>
      cases parameter with
      | program =>
          simp only [supply] at accepted ⊢
          split at accepted
          · contradiction
          · next filled =>
              cases accepted
              rw [if_neg filled]
              exact ⟨rfl, rfl⟩
      | assignment =>
          simp only [supply] at accepted ⊢
          split at accepted
          · cases accepted
            exact ⟨rfl, rfl⟩
          · contradiction
      | maxSteps =>
          have same : draft.withJson.maxSteps = draft.maxSteps := rfl
          simp only [supply, same] at accepted ⊢
          split at accepted
          · contradiction
          · next first =>
              rw [if_neg first]
              split at accepted
              · cases accepted
                exact ⟨rfl, rfl⟩
              · contradiction
      | limits =>
          have same : draft.withJson.limits = draft.limits := rfl
          simp only [supply, same] at accepted ⊢
          split at accepted
          · contradiction
          · next first =>
              rw [if_neg first]
              split at accepted
              · contradiction
              · next filled =>
                  cases accepted
                  rw [if_neg filled]
                  exact ⟨rfl, rfl⟩

theorem settle_withJson {draft settled : Draft}
    (accepted : draft.settle = .ok settled) :
    settled.json = draft.json ∧
      draft.withJson.settle = .ok settled.withJson := by
  have same : draft.withJson.pending = draft.pending := rfl
  unfold settle at accepted ⊢
  rw [same]
  split at accepted
  · cases accepted
    exact ⟨rfl, rfl⟩
  · exact supply_withJson accepted

/-! ### Switches -/

/-- The twin follows an outcome that leaves the switch off, and such an outcome
comes only from a draft that has it off. -/
def Follows (draft : Draft) (outcome twin : Except UsageFault Progress) : Prop :=
  ∀ progress, outcome = .ok progress → progress.IsPlain →
    draft.json = false ∧ twin = .ok progress.withJson

theorem follows_of_error (draft : Draft) (fault : UsageFault)
    (twin : Except UsageFault Progress) : Follows draft (.error fault) twin := by
  intro progress refused
  contradiction

theorem follows_of_going {draft taken : Draft}
    (kept : taken.json = draft.json) :
    Follows draft (.ok (.going taken)) (.ok (.going taken.withJson)) := by
  intro progress same plain
  cases same
  exact ⟨kept.symm.trans plain, rfl⟩

/-- A pending value is judged alike with the switch on. -/
theorem Follows.afterSettle {draft : Draft}
    {next : Draft → Except UsageFault Progress}
    (follows : ∀ settled, Follows settled (next settled) (next settled.withJson)) :
    Follows draft
      (match draft.settle with
        | .error fault => .error fault
        | .ok settled => next settled)
      (match draft.withJson.settle with
        | .error fault => .error fault
        | .ok settled => next settled) := by
  cases judged : draft.settle with
  | error fault => exact follows_of_error draft fault _
  | ok settled =>
      obtain ⟨kept, twin⟩ := settle_withJson judged
      rw [twin]
      intro progress taken plain
      obtain ⟨off, same⟩ := follows settled progress taken plain
      exact ⟨kept.symm.trans off, same⟩

theorem follows_turnOn (switch : Switch) (already : Bool) {draft turned : Draft}
    (kept : turned.json = draft.json) :
    Follows draft (turnOn switch already turned)
      (turnOn switch already turned.withJson) := by
  unfold turnOn
  cases already with
  | true => exact follows_of_error draft _ _
  | false => exact follows_of_going kept

theorem follows_take (draft : Draft) (switch : Switch) :
    Follows draft (draft.take switch) (draft.withJson.take switch) := by
  refine Follows.afterSettle ?_
  intro settled
  cases switch with
  | json =>
      intro progress taken plain
      simp only [turnOn] at taken
      split at taken
      · contradiction
      · cases taken
        contradiction
  | metrics => exact follows_turnOn .metrics settled.metrics rfl
  | dump => exact follows_turnOn .dump settled.dump rfl
  | verbose => exact follows_of_going rfl
  | help | version =>
      intro progress taken plain
      cases taken
      contradiction

theorem follows_takeLetters (draft : Draft) (letters : List Char) :
    Follows draft (draft.takeLetters letters)
      (draft.withJson.takeLetters letters) := by
  induction letters generalizing draft with
  | nil => exact follows_of_going rfl
  | cons letter rest ih =>
      simp only [takeLetters]
      cases Switch.ofLetter? letter with
      | none => exact follows_of_error draft _ _
      | some switch =>
          have first := follows_take draft switch
          intro progress taken plain
          simp only at taken ⊢
          cases acts : draft.take switch with
          | error fault =>
              rw [acts] at taken
              contradiction
          | ok reached =>
              rw [acts] at taken
              cases reached with
              | done request =>
                  cases taken
                  obtain ⟨off, same⟩ := first _ acts plain
                  simp only [same]
                  exact ⟨off, rfl⟩
              | going middle =>
                  obtain ⟨stillOff, onward⟩ := ih middle progress taken plain
                  obtain ⟨off, same⟩ := first _ acts stillOff
                  simp only [same]
                  exact ⟨off, onward⟩

/-! ### Arguments -/

theorem follows_takeLong (draft : Draft) (name : String)
    (attached : Option String) :
    Follows draft (draft.takeLong name attached)
      (draft.withJson.takeLong name attached) := by
  unfold takeLong
  cases Parameter.ofName? name with
  | some parameter =>
      refine Follows.afterSettle ?_
      intro settled
      cases attached with
      | none => exact follows_of_going rfl
      | some value =>
          simp only
          cases judged : settled.supply parameter (some value) with
          | error fault => exact follows_of_error settled fault _
          | ok supplied =>
              obtain ⟨kept, twin⟩ := supply_withJson judged
              rw [twin]
              exact follows_of_going kept
  | none =>
      cases Switch.ofName? name with
      | none => exact follows_of_error draft _ _
      | some switch =>
          cases attached with
          | none => exact follows_take draft switch
          | some value => exact follows_of_error draft _ _

theorem follows_takePositional (draft : Draft) (text : String) :
    Follows draft (draft.takePositional text)
      (draft.withJson.takePositional text) := by
  have same : draft.withJson.programTaken = draft.programTaken := rfl
  unfold takePositional
  rw [same]
  split
  · exact follows_of_error draft _ _
  · refine Follows.afterSettle ?_
    intro settled
    exact follows_of_going rfl

theorem follows_takePlain (draft : Draft) (text : String) :
    Follows draft (draft.takePlain text) (draft.withJson.takePlain text) := by
  have same : draft.withJson.pending = draft.pending := rfl
  unfold takePlain
  rw [same]
  split
  · exact follows_of_going rfl
  · exact follows_takePositional draft text

theorem follows_takeArgument (draft : Draft) (argument : String) :
    Follows draft (draft.takeArgument argument)
      (draft.withJson.takeArgument argument) := by
  unfold takeArgument
  split
  · split
    · exact follows_takeLong draft _ _
    · exact follows_takeLong draft _ _
  · exact follows_takeLetters draft _
  · exact follows_takePlain draft argument

theorem finish_withJson {draft : Draft} {request : Request}
    (finished : draft.finish = .ok request) (plain : request.IsPlain) :
    draft.json = false ∧ draft.withJson.finish = .ok request.withJson := by
  unfold finish at finished ⊢
  cases judged : draft.settle with
  | error fault =>
      rw [judged] at finished
      contradiction
  | ok settled =>
      obtain ⟨kept, twin⟩ := settle_withJson judged
      have same : settled.withJson.program = settled.program := rfl
      rw [judged] at finished
      simp only [twin, same] at finished ⊢
      split at finished
      · contradiction
      · cases finished
        exact ⟨kept.symm.trans plain, rfl⟩

end Draft

/-! ### Whole argument lists -/

def resume (next : Draft → Except UsageFault Request) :
    Except UsageFault Progress → Except UsageFault Request
  | .error fault => .error fault
  | .ok (.done request) => .ok request
  | .ok (.going taken) => next taken

theorem resume_withJson {draft : Draft}
    {outcome twin : Except UsageFault Progress}
    {next : Draft → Except UsageFault Request} {request : Request}
    (follows : Draft.Follows draft outcome twin)
    (onward : ∀ taken : Draft, next taken = .ok request →
      taken.json = false ∧ next taken.withJson = .ok request.withJson)
    (reached : resume next outcome = .ok request) (plain : request.IsPlain) :
    draft.json = false ∧ resume next twin = .ok request.withJson := by
  cases outcome with
  | error fault => contradiction
  | ok progress =>
      cases progress with
      | done settled =>
          cases reached
          obtain ⟨off, same⟩ := follows _ rfl plain
          rw [same]
          exact ⟨off, rfl⟩
      | going taken =>
          obtain ⟨stillOff, continues⟩ := onward taken reached
          obtain ⟨off, same⟩ := follows _ rfl stillOff
          rw [same]
          exact ⟨off, continues⟩

theorem readArguments_withJson {draft : Draft} {ended : Bool}
    {arguments : List String} {request : Request}
    (asked : readArguments draft ended arguments = .ok request)
    (plain : request.IsPlain) :
    draft.json = false ∧
      readArguments draft.withJson ended arguments = .ok request.withJson := by
  induction arguments generalizing draft ended with
  | nil => exact Draft.finish_withJson asked plain
  | cons argument rest ih =>
      cases ended with
      | true =>
          exact resume_withJson (Draft.follows_takePositional draft argument)
            (fun _ => ih) asked plain
      | false =>
          rw [readArguments] at asked ⊢
          simp only [Bool.false_eq_true, if_false] at asked ⊢
          split at asked
          · next dashes =>
              rw [if_pos dashes]
              exact ih asked
          · next other =>
              rw [if_neg other]
              exact resume_withJson (Draft.follows_takeArgument draft argument)
                (fun _ => ih) asked plain

theorem parseArguments_json_cons {arguments : List String}
    {invocation : Invocation}
    (asked : parseArguments arguments = .ok (.run invocation))
    (plain : invocation.json = false) :
    parseArguments ("--json" :: arguments) = .ok (.run invocation.withJson) := by
  have taken : Draft.takeArgument {} "--json" =
      .ok (.going (Draft.withJson {})) := by
    with_unfolding_all rfl
  rw [parseArguments, readArguments]
  simp only [Bool.false_eq_true, if_false, taken]
  exact (readArguments_withJson asked plain).2

end CommandLine
end RegisterMachine
