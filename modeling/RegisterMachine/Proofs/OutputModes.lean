/-
The two output modes of a session.

In plain mode the values of a run go to a sink while it runs and the registers
follow when it halts; in JSON mode the snapshot is printed when it halts.  `Shows`
says once for both modes what a session prints and how it exits.
-/

import RegisterMachine.CommandLine.Session
import RegisterMachine.Proofs.JsonSwitch
import RegisterMachine.Proofs.Reset
import RegisterMachine.Proofs.StepLimit

namespace RegisterMachine

/-! ### Printed states -/

def RegisterFile.lineText (file : RegisterFile) : String :=
  "[" ++ ", ".intercalate (Register.all.map fun register =>
    register.name ++ " = " ++ Text.writeWord (file.get register)) ++ "]"

theorem RegisterFile.render_eq_lineText (file : RegisterFile) :
    file.render = file.lineText := by
  simp only [render, lineText, entries, List.map_map]
  rfl

namespace Snapshot

def registersText (file : RegisterFile) : String :=
  "\x7b\n    "
    ++ ",\n    ".intercalate (Register.all.map fun register =>
      "\"" ++ register.name ++ "\": " ++ Text.writeWord (file.get register))
    ++ "\n  \x7d"

def outputText (output : List Int32) : String :=
  if output = [] then "[]"
  else "[\n    " ++ ",\n    ".intercalate (output.map Text.writeWord) ++ "\n  ]"

/-- The document of a state: its four members in order. -/
def documentText (registers : RegisterFile) (counter steps : Nat)
    (output : List Int32) : String :=
  "\x7b\n  \"registers\": " ++ registersText registers
    ++ ",\n  \"program_counter\": " ++ Text.writeNat counter
    ++ ",\n  \"steps\": " ++ Text.writeNat steps
    ++ ",\n  \"output\": " ++ outputText output ++ "\n\x7d"

theorem enclose_indented (opening closing : String) {items : List String}
    (filled : items ≠ []) :
    Json.Layout.indented.enclose opening closing 1 items =
      opening ++ "\n    " ++ ",\n    ".intercalate items ++ "\n  " ++ closing := by
  unfold Json.Layout.enclose
  rw [if_neg]
  · rfl
  · simpa using filled

theorem toJson_registers_indented (file : RegisterFile) :
    file.toJson .indented 1 = registersText file := by
  have member (register : Register) :
      "\"" ++ register.name ++ "\":" ++ Json.Layout.indented.afterColon ++
          Text.writeWord (file.get register) =
        "\"" ++ register.name ++ "\": " ++ Text.writeWord (file.get register) := by
    apply String.toList_inj.mp
    simp [Json.Layout.indented]
  rw [RegisterFile.toJson, Json.Layout.object, enclose_indented]
  · simp only [RegisterFile.entries, List.map_map, Function.comp_def, member,
      registersText]
    apply String.toList_inj.mp
    simp
  · exact List.cons_ne_nil _ _

theorem array_indented (output : List Int32) :
    Json.Layout.indented.array 1 (output.map Text.writeWord) =
      outputText output := by
  unfold outputText
  by_cases empty : output = []
  · subst empty
    rfl
  · have filled : output.map Text.writeWord ≠ [] := by
      simpa using empty
    rw [if_neg empty, Json.Layout.array, enclose_indented _ _ filled]
    apply String.toList_inj.mp
    simp

theorem object_indented (registers counter steps output : String) :
    Json.Layout.indented.object 0 [("registers", registers),
        ("program_counter", counter), ("steps", steps), ("output", output)] =
      "\x7b\n  \"registers\": " ++ registers
        ++ ",\n  \"program_counter\": " ++ counter ++ ",\n  \"steps\": " ++ steps
        ++ ",\n  \"output\": " ++ output ++ "\n\x7d" := by
  apply String.toList_inj.mp
  rw [Json.Layout.object, List.map_cons, Json.Layout.toList_enclose_cons]
  simp [Json.Layout.indented]

/-- In the indented layout a snapshot is the document spelled out. -/
theorem toJson_indented (snapshot : Snapshot) :
    snapshot.toJson .indented =
      documentText snapshot.registers snapshot.counter snapshot.steps
        snapshot.output.toList := by
  unfold toJson documentText
  rw [← toJson_registers_indented, ← array_indented]
  exact object_indented _ _ _ _

end Snapshot

/-! ### Watched executions -/

namespace Machine

section Watched

variable {σ : Type} (watch : σ → Event → σ)

theorem Ends.silent {machine final : Machine} {executed : Nat}
    {verdict : Verdict} (ended : Ends machine executed verdict final)
    (silent : machine.echo = none) : final.echo = none := by
  induction ended with
  | halted _ => exact silent
  | failed failure => exact silent_of_step silent failure
  | step ran _ ih => exact ih (silent_of_step silent ran)

theorem executeWatched_of_ends {machine final : Machine} {limits : Limits}
    {executed : Nat} {verdict : Verdict}
    (attached : machine.limits = some limits)
    (ended : Ends machine.rewind executed verdict final) (seen : σ) :
    (executeWatched watch (limits.maxSteps + 1) machine seen).verdict =
        verdict ∧
      (executeWatched watch (limits.maxSteps + 1) machine seen).machine =
        final := by
  have bounded : 0 + executed ≤ limits.maxSteps + 1 :=
    ended.executed_le_maxSteps attached (Nat.zero_le _)
  exact proceed_of_ends watch ended (by omega) (Nat.succ_pos _) seen

theorem executeWatched_withEcho_of_ends {machine final : Machine}
    {limits : Limits} {executed : Nat} {verdict : Verdict}
    (attached : machine.limits = some limits) (silent : machine.echo = none)
    (ended : Ends machine.rewind executed verdict final) (seen : σ) :
    (executeWatched watch (limits.maxSteps + 1)
        (machine.withEcho .unbounded) seen).verdict = verdict ∧
      (executeWatched watch (limits.maxSteps + 1)
        (machine.withEcho .unbounded) seen).machine =
          final.echoing .unbounded := by
  obtain ⟨sameVerdict, sameMachine⟩ :=
    executeWatched_of_ends watch attached ended seen
  obtain ⟨alike, beside⟩ := proceed_echoing_of_le watch Sink.hasRoom_unbounded
    (limits.maxSteps + 1) machine.rewind seen silent le_top
  constructor
  · exact alike.trans sameVerdict
  · exact beside.trans (congrArg (·.echoing .unbounded) sameMachine)

end Watched
end Machine

namespace CommandLine

/-! ### What a session loads -/

/-- The limits of the file that is named, or the standard ones when none is. -/
inductive GivenLimits (read : FileReader) : Option String → Limits → Prop where
  | standard : GivenLimits read none .standard
  | file {path text : String} {given : Limits} (found : read path = .ok text)
      (states : Limits.ofJson text = .ok given) :
      GivenLimits read (some path) given

/-- A step limit among the arguments replaces the given one, and the program is
assembled under the limits that are in force for the run. -/
structure Loads (read : FileReader) (invocation : Invocation) (limits : Limits)
    (program : Program) : Prop where
  inForce : ∃ given, GivenLimits read invocation.limits given ∧
    limits =
      { given with maxSteps := invocation.maxSteps.getD given.maxSteps }
  assembled : ∃ source, read invocation.program = .ok source ∧
    Program.ofSource limits source = .ok program

section Loading

variable {read : FileReader} {invocation : Invocation} {limits : Limits}

theorem givenLimits_iff :
    GivenLimits read invocation.limits limits ↔
      invocation.givenLimits read = .ok limits := by
  unfold Invocation.givenLimits
  cases invocation.limits with
  | none =>
      constructor
      · intro given
        cases given
        rfl
      · intro given
        cases given
        exact .standard
  | some path =>
      simp only [Limits.load]
      constructor
      · intro given
        cases given with
        | file found states =>
            rw [found]
            exact states
      · intro given
        split at given
        · contradiction
        · next text found => exact .file found given

theorem loads_iff {program : Program} :
    Loads read invocation limits program ↔
      invocation.load read = .ok (limits, program) := by
  unfold Invocation.load Invocation.loadLimits
  constructor
  · intro loads
    obtain ⟨given, origin, rfl⟩ := loads.inForce
    obtain ⟨source, found, assembles⟩ := loads.assembled
    simp only [givenLimits_iff.mp origin, Except.map, Program.load, found,
      assembles]
  · intro loaded
    cases origin : invocation.givenLimits read with
    | error fault =>
        rw [origin] at loaded
        contradiction
    | ok given =>
        rw [origin] at loaded
        simp only [Except.map, Program.load] at loaded
        cases found : read invocation.program with
        | error failure =>
            rw [found] at loaded
            contradiction
        | ok source =>
            simp only [found] at loaded
            split at loaded
            · contradiction
            · next assembles =>
                cases loaded
                exact ⟨⟨given, givenLimits_iff.mpr origin, rfl⟩,
                  ⟨source, found, assembles⟩⟩

theorem load_withJson (read : FileReader) (invocation : Invocation) :
    invocation.withJson.load read = invocation.load read :=
  rfl

end Loading

/-! ### What a session shows -/

/-- The machine of a session before any echo is attached to it. -/
def Invocation.bareMachine (invocation : Invocation) (limits : Limits)
    (program : Program) : Machine :=
  ((Machine.ofProgram program).withLimits limits).assign invocation.assignments

def Invocation.RunEnds (invocation : Invocation) (limits : Limits)
    (program : Program) (verdict : Verdict) (final : Machine) : Prop :=
  ∃ executed, Machine.Ends (invocation.bareMachine limits program).rewind
    executed verdict final

/-- The exit code of a session in both modes, and what it prints in each. -/
inductive Shows (read : FileReader) (invocation : Invocation) :
    (exitCode : Nat) → (plain json : String) → Prop where
  | notLoaded
      (nothing : ¬∃ limits program, Loads read invocation limits program) :
      Shows read invocation 1 "" ""
  | halted {limits : Limits} {program : Program} {final : Machine}
      (loads : Loads read invocation limits program)
      (run : invocation.RunEnds limits program .halted final) :
      Shows read invocation 0
        (invocation.dumpText program
          ++ String.join (final.output.toList.map fun value =>
            Text.writeWord value ++ "\n")
          ++ (final.registers.lineText ++ "\n"))
        (invocation.dumpText program
          ++ (Snapshot.documentText final.registers final.counter final.steps
              final.output.toList ++ "\n"))
  | failed {limits : Limits} {program : Program} {fault : Fault}
      {final : Machine} (loads : Loads read invocation limits program)
      (run : invocation.RunEnds limits program (.failed fault) final) :
      Shows read invocation 1
        (invocation.dumpText program
          ++ String.join (final.output.toList.map fun value =>
            Text.writeWord value ++ "\n"))
        (invocation.dumpText program)

section Showing

variable {read : FileReader} {invocation : Invocation} {limits : Limits}
  {program : Program} {verdict : Verdict} {final : Machine}

theorem reportRun_of_plain (plain : invocation.json = false)
    (run : invocation.RunEnds limits program verdict final) :
    (invocation.reportRun limits program).exitCode = exitCodeOf verdict ∧
      (invocation.reportRun limits program).output =
        invocation.dumpText program
          ++ String.join (Machine.echoLines final.output)
          ++ invocation.resultText (final.echoing .unbounded) verdict := by
  obtain ⟨executed, ended⟩ := run
  have attached : (invocation.bareMachine limits program).limits =
    some limits := rfl
  have machine : invocation.machine limits program =
      (invocation.bareMachine limits program).withEcho .unbounded := by
    simp only [Invocation.machine, plain, Bool.false_eq_true, if_false]
    rfl
  obtain ⟨sameVerdict, sameMachine⟩ := Machine.executeWatched_withEcho_of_ends
    (Journal.note (Log.Level.trace.isShown invocation.threshold)) attached rfl
    ended ⟨.zero, []⟩
  have text : (final.echoing .unbounded).echoed =
      String.join (Machine.echoLines final.output) := by
    rw [Machine.echoed_echoing]
    exact String.empty_append
  simp only [Invocation.reportRun, machine, sameVerdict, sameMachine, text,
    and_self]

theorem reportRun_of_json (asJson : invocation.json = true)
    (run : invocation.RunEnds limits program verdict final) :
    (invocation.reportRun limits program).exitCode = exitCodeOf verdict ∧
      (invocation.reportRun limits program).output =
        invocation.dumpText program ++ invocation.resultText final verdict := by
  obtain ⟨executed, ended⟩ := run
  have attached : (invocation.bareMachine limits program).limits =
    some limits := rfl
  have machine : invocation.machine limits program =
      invocation.bareMachine limits program := by
    simp only [Invocation.machine, asJson, if_true]
    rfl
  obtain ⟨sameVerdict, sameMachine⟩ := Machine.executeWatched_of_ends
    (Journal.note (Log.Level.trace.isShown invocation.threshold)) attached ended
    ⟨.zero, []⟩
  have text : final.echoed = "" :=
    Machine.echoed_of_silent (ended.silent rfl)
  simp only [Invocation.reportRun, machine, sameVerdict, sameMachine, text,
    String.append_empty, and_self]

theorem resultText_of_plain (plain : invocation.json = false)
    (machine : Machine) :
    invocation.resultText machine .halted =
      machine.registers.lineText ++ "\n" := by
  rw [Invocation.resultText, plain, RegisterFile.render_eq_lineText]
  rfl

theorem resultText_of_json (asJson : invocation.json = true)
    (machine : Machine) :
    invocation.resultText machine .halted =
      Snapshot.documentText machine.registers machine.counter machine.steps
        machine.output.toList ++ "\n" := by
  rw [Invocation.resultText, asJson, Snapshot.toJson_indented]
  rfl

theorem report_of_loads (loads : Loads read invocation limits program) :
    invocation.report read = invocation.reportRun limits program ∧
      invocation.withJson.report read =
        invocation.withJson.reportRun limits program := by
  have loaded := loads_iff.mp loads
  unfold Invocation.report
  rw [load_withJson, loaded]
  exact ⟨rfl, rfl⟩

theorem report_of_shows {code : Nat} {shown written : String}
    (shows : Shows read invocation code shown written)
    (plain : invocation.json = false) :
    ((invocation.report read).exitCode = code ∧
        (invocation.report read).output = shown) ∧
      (invocation.withJson.report read).exitCode = code ∧
        (invocation.withJson.report read).output = written := by
  cases shows with
  | notLoaded nothing =>
      unfold Invocation.report
      rw [load_withJson]
      cases loaded : invocation.load read with
      | error fault => exact ⟨⟨rfl, rfl⟩, rfl, rfl⟩
      | ok result =>
          have loads := loads_iff.mpr loaded
          exact absurd ⟨result.1, result.2, loads⟩ nothing
  | @halted limits program final loads run =>
      obtain ⟨same, sameJson⟩ := report_of_loads loads
      have shown := reportRun_of_plain plain run
      have written := @reportRun_of_json invocation.withJson _ _ _ _ rfl run
      rw [resultText_of_plain plain] at shown
      rw [resultText_of_json rfl] at written
      rw [same, sameJson]
      exact ⟨shown, written⟩
  | @failed limits program fault final loads run =>
      obtain ⟨same, sameJson⟩ := report_of_loads loads
      have shown := reportRun_of_plain plain run
      have written := @reportRun_of_json invocation.withJson _ _ _ _ rfl run
      simp only [Invocation.resultText, String.append_empty] at shown written
      rw [same, sameJson]
      exact ⟨shown, written⟩

theorem exists_shows (read : FileReader) (invocation : Invocation) :
    ∃ code shown written, Shows read invocation code shown written := by
  by_cases loaded : ∃ limits program, Loads read invocation limits program
  · obtain ⟨limits, program, loads⟩ := loaded
    have attached : (invocation.bareMachine limits program).rewind.limits =
      some limits := rfl
    obtain ⟨executed, verdict, final, ended⟩ :=
      Machine.exists_ends_of_limits attached (Nat.zero_le _)
    cases verdict with
    | halted => exact ⟨_, _, _, .halted loads ⟨executed, ended⟩⟩
    | failed fault => exact ⟨_, _, _, .failed loads ⟨executed, ended⟩⟩
    | unfinished => exact absurd rfl ended.ne_unfinished
  · exact ⟨_, _, _, .notLoaded loaded⟩

theorem metrics_report (read : FileReader)
    (unmeasured : invocation.metrics = false) :
    (invocation.report read).metrics = [] := by
  unfold Invocation.report
  split
  · rfl
  · simp [Invocation.reportRun, unmeasured]

end Showing

/-! ### Whole sessions -/

theorem report_of_run {read : FileReader} {arguments : List String}
    {invocation : Invocation}
    (asked : parseArguments arguments = .ok (.run invocation)) :
    report read arguments = invocation.report read := by
  rw [report, asked]

/-- The two output modes tell the same.  However the run in JSON mode is asked for, both
sessions exit alike, and the exit code and the two outputs are the ones that
`Shows` gives and no others.  The code is zero exactly when limits and program can
be loaded and the run halts. -/
theorem report_modes_agree (read : FileReader) {arguments : List String}
    {invocation : Invocation}
    (asked : parseArguments arguments = .ok (.run invocation))
    (plain : invocation.json = false)
    (unmeasured : invocation.metrics = false) :
    parseArguments ("--json" :: arguments) = .ok (.run invocation.withJson) ∧
      ∀ jsonArguments,
        parseArguments jsonArguments = .ok (.run invocation.withJson) →
          (report read jsonArguments).exitCode =
              (report read arguments).exitCode ∧
            (∀ code shown written,
              Shows read invocation code shown written ↔
                (report read arguments).exitCode = code ∧
                  (report read arguments).output = shown ∧
                  (report read jsonArguments).output = written) ∧
            ((report read arguments).exitCode = 0 ↔
              ∃ limits program final, Loads read invocation limits program ∧
                invocation.RunEnds limits program .halted final) ∧
            (report read arguments).metrics = [] ∧
            (report read jsonArguments).metrics = [] := by
  refine ⟨parseArguments_json_cons asked plain, ?_⟩
  intro jsonArguments askedJson
  rw [report_of_run asked, report_of_run askedJson]
  obtain ⟨code, shown, written, shows⟩ := exists_shows read invocation
  obtain ⟨⟨exits, prints⟩, exitsJson, printsJson⟩ := report_of_shows shows plain
  refine ⟨exitsJson.trans exits.symm, ?_, ?_, metrics_report read unmeasured,
    metrics_report read unmeasured⟩
  · intro otherCode otherShown otherWritten
    constructor
    · intro also
      obtain ⟨⟨exits, prints⟩, _, printsJson⟩ := report_of_shows also plain
      exact ⟨exits, prints, printsJson⟩
    · rintro ⟨rfl, rfl, rfl⟩
      rw [exits, prints, printsJson]
      exact shows
  · constructor
    · intro zero
      rw [exits] at zero
      subst zero
      cases shows with
      | halted loads run => exact ⟨_, _, _, loads, run⟩
    · rintro ⟨limits, program, final, loads, run⟩
      exact (report_of_shows (.halted loads run) plain).1.1

theorem report_modes_agree_of_step_limit :
    ∃ read : FileReader,
      (parseArguments ["p", "--set=EAX=-3", "--dump", "--max-steps", "1"] =
          .ok (.run ⟨"p", [(.eax, -3)], some 1, none, false, false, true, 0⟩) ∧
        (report read
            ["p", "--set=EAX=-3", "--dump", "--max-steps", "1"]).exitCode = 1 ∧
        (report read
            ["p", "--set=EAX=-3", "--dump", "--max-steps", "1"]).output =
          "   0  out EAX\n   1  out EBX\nlabels: []\n-3\n" ∧
        (report read
            ["--json", "p", "--set=EAX=-3", "--dump", "--max-steps", "1"]).output =
          "   0  out EAX\n   1  out EBX\nlabels: []\n") ∧
      parseArguments ["p", "--set=EAX=-3", "--max-steps", "2"] =
          .ok (.run ⟨"p", [(.eax, -3)], some 2, none, false, false, false, 0⟩) ∧
        (report read ["p", "--set=EAX=-3", "--max-steps", "2"]).exitCode = 0 ∧
        (report read ["p", "--set=EAX=-3", "--max-steps", "2"]).output =
          "-3\n0\n[EAX = -3, EBX = 0, ECX = 0, EDX = 0, "
            ++ "ESP = 0, EBP = 0, ESI = 0, EDI = 0]\n" ∧
        (report read
            ["--json", "p", "--set=EAX=-3", "--max-steps", "2"]).output =
          "\x7b\n  \"registers\": \x7b\n    \"EAX\": -3,\n    \"EBX\": 0,\n"
            ++ "    \"ECX\": 0,\n    \"EDX\": 0,\n    \"ESP\": 0,\n    \"EBP\": 0,\n"
            ++ "    \"ESI\": 0,\n    \"EDI\": 0\n  \x7d,\n"
            ++ "  \"program_counter\": 2,\n  \"steps\": 2,\n"
            ++ "  \"output\": [\n    -3,\n    0\n  ]\n\x7d\n" := by
  let read : FileReader := fun path =>
    if path = "p" then .ok "out EAX\nout EBX" else .error .notFound
  have loads (invocation : Invocation) (named : invocation.program = "p")
      (standard : invocation.limits = none) :
      Loads read invocation
        { Limits.standard with
          maxSteps := invocation.maxSteps.getD Limits.standard.maxSteps }
        ⟨#[⟨none, .out .eax⟩, ⟨none, .out .ebx⟩], .empty⟩ := by
    refine ⟨⟨.standard, ?_, rfl⟩, "out EAX\nout EBX", ?_, ?_⟩
    · rw [standard]
      exact .standard
    · rw [named]
      rfl
    · with_unfolding_all rfl
  have parsed : parseArguments
      ["p", "--set=EAX=-3", "--dump", "--max-steps", "1"] =
        .ok (.run ⟨"p", [(.eax, -3)], some 1, none, false, false, true, 0⟩) := by
    with_unfolding_all rfl
  have longer : parseArguments ["p", "--set=EAX=-3", "--max-steps", "2"] =
        .ok (.run ⟨"p", [(.eax, -3)], some 2, none, false, false, false, 0⟩) := by
    with_unfolding_all rfl
  obtain ⟨parsedJson, agree⟩ := report_modes_agree read parsed rfl rfl
  obtain ⟨longerJson, agreeLonger⟩ := report_modes_agree read longer rfl rfl
  obtain ⟨_, shown, _⟩ := agree _ parsedJson
  obtain ⟨_, shownLonger, _⟩ := agreeLonger _ longerJson
  refine ⟨read, ⟨parsed, ?_⟩, longer, ?_⟩
  · obtain ⟨exits, prints, printsJson⟩ := (shown _ _ _).mp
      (.failed (loads _ rfl rfl) ⟨2, .step rfl (.failed rfl)⟩)
    rw [prints, printsJson]
    refine ⟨exits, ?_, ?_⟩ <;> with_unfolding_all rfl
  · obtain ⟨exits, prints, printsJson⟩ := (shownLonger _ _ _).mp
      (.halted (loads _ rfl rfl) ⟨2, .step rfl (.step rfl (.halted rfl))⟩)
    rw [prints, printsJson]
    refine ⟨exits, ?_, ?_⟩
    · with_unfolding_all rfl
    · decide +kernel

end CommandLine
end RegisterMachine
