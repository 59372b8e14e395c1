import MiniFun.Command
import MiniFun.Proofs.OneLineTexts

/-! # The modes of the command

The arguments name a mode by which of them are there: a file alone is run, an expression alone is
run, both together are refused, and without either a session is held. The command keeps to this
unless it takes an empty text for a missing one. With an empty file name, it holds a session or runs
the expression; with an empty expression beside a file, it runs the file and refuses nothing. Apart
from this, only a null character in the path makes a difference: that the file cannot be read is
then a failure and not a status.

What a program shows is one line, and the status tells whether that line reports an error.
-/

namespace MiniFun

/-- No error of the program is left when errors are values. -/
private theorem ne_error_of_settled {result : EStateM.Result Failure Store Value}
    {failure : Failure} {target : Store} (failed : settled result = .error failure target)
    (cause : Error) :
    failure ≠ .error cause := by
  rintro rfl
  unfold settled at failed
  split at failed
  · cases failed
  · rename_i noError
    exact noError cause target failed

namespace Command

open Text

/-! ## What the modes show -/

def observed (words : List String) (surroundings : Surroundings) : Computation (Nat × String) :=
  (fun report => (report.status, report.stdout)) <$> run words surroundings

/-- The status and the output that belong to a program: its value on a line of its own, and one if
that is an error. -/
def programOutput (program : Computation Value) : Computation (Nat × String) := do
  let value ← program
  let shown ← .ofText value.text?
  return (if value.isFailed then 1 else 0, shown ++ "\n")

def fileOutput (contents : Except ReadFault (List UInt8)) : Computation (Nat × String) :=
  match SourceFile.run contents with
  | .ok program => programOutput program
  | .error _ => return (2, "")

/-- The output is one line, and the status is one exactly if that line begins like an error. If
there is no output, it is for a limit of the interpreter and not for an error of the program. -/
def ShowsOneLine : EStateM.Result Failure Store (Nat × String) → Prop
  | .ok (status, output) _ => ∃ line, OneLine line ∧ output = line ++ "\n" ∧
      status = if errorMark.toList <+: line.toList then 1 else 0
  | .error failure _ => ∀ cause, failure ≠ .error cause

private theorem observed_programReport (threshold : LogLevel) (log : List LogEntry)
    (source : String) :
    (fun report => (report.status, report.stdout)) <$> programReport threshold log source =
      programOutput (Interpreter.standard.runText source) := by
  simp [programReport, programOutput, Interpreter.runText]

private theorem fileOutput_of_load {contents : Except ReadFault (List UInt8)} {source : String}
    (loaded : SourceFile.load contents = .ok source) :
    fileOutput contents = programOutput (Interpreter.standard.runText source) := by
  rw [fileOutput, SourceFile.run, loaded]
  rfl

private theorem fileOutput_of_fault {contents : Except ReadFault (List UInt8)} {fault : FileFault}
    (refused : SourceFile.load contents = .error fault) : fileOutput contents = return (2, "") := by
  rw [fileOutput, SourceFile.run, refused]
  rfl

private theorem fileReport_of_null {path : String} (null : '\x00' ∈ path.toList)
    (threshold : LogLevel) (contents : Except ReadFault (List UInt8)) :
    fileReport threshold path contents = throw .nullInPath := by
  have refused : path.toList.contains '\x00' = true := by simpa using null
  rw [fileReport, refused, if_pos rfl]

private theorem fileReport_of_not_null {path : String} (possible : '\x00' ∉ path.toList)
    (threshold : LogLevel) (contents : Except ReadFault (List UInt8)) :
    fileReport threshold path contents =
      match SourceFile.load contents with
      | .ok source => programReport threshold [runningLog path] source
      | .error fault => return ⟨2, "", LogEntry.render threshold [faultLog path fault]⟩ := by
  have asked : ¬ path.toList.contains '\x00' = true := by simpa using possible
  exact if_neg asked

private theorem observed_fileReport (threshold : LogLevel) {path : String}
    (contents : Except ReadFault (List UInt8)) (possible : '\x00' ∉ path.toList) :
    (fun report => (report.status, report.stdout)) <$> fileReport threshold path contents =
      fileOutput contents := by
  rw [fileReport_of_not_null possible]
  cases loaded : SourceFile.load contents with
  | ok source => exact (observed_programReport ..).trans (fileOutput_of_load loaded).symm
  | error fault => rw [fileOutput_of_fault loaded, map_pure]

theorem showsOneLine_programOutput (source : String) (store : Store) :
    ShowsOneLine (programOutput (Interpreter.standard.runText source) store) := by
  cases ran : Interpreter.standard.runText source store with
  | error failure target =>
    rw [programOutput, bind_of_error ran]
    rw [Interpreter.runText_eq_settled] at ran
    exact ne_error_of_settled ran
  | ok value target =>
    rw [programOutput, bind_of_ok ran]
    cases printed : value.text? with
    | none => exact nofun
    | some shown =>
      obtain ⟨oneLine, marked⟩ := shown_of_runText ran printed
      refine ⟨shown, oneLine, rfl, ?_⟩
      simp only [marked]

/-! ## What the arguments name -/

namespace Arguments

/-- The mode that arguments name by being there. -/
def named (arguments : Arguments) : Except Refusal Mode :=
  match arguments.file, arguments.expr with
  | none, none => .ok .session
  | none, some source => .ok (.expression source)
  | some path, none => .ok (.file path)
  | some _, some _ => .error .fileAndExpression

/-- The arguments that count. An empty file name does not, nor does an empty expression beside a
file name that does. -/
def effective (arguments : Arguments) : Arguments :=
  match arguments.file with
  | none | some "" => { arguments with file := none }
  | some _ => { arguments with expr := if arguments.expr = some "" then none else arguments.expr }

/-- All arguments count, and a file that is to be run can be asked for. -/
def Substantial (arguments : Arguments) : Prop :=
  arguments.file ≠ some "" ∧ (arguments.file ≠ none → arguments.expr ≠ some "") ∧
    (arguments.expr = none → ∀ path, arguments.file = some path → '\x00' ∉ path.toList)

theorem mode_eq_named (arguments : Arguments) : arguments.mode = arguments.effective.named := by
  obtain ⟨file, expr, verbose⟩ := arguments
  cases file with
  | none =>
    cases expr with
    | none => rfl
    | some source => rfl
  | some path =>
    by_cases empty : path = ""
    · subst empty
      cases expr with
      | none => rfl
      | some source => rfl
    · cases expr with
      | none => simp [mode, effective, named]
      | some source =>
        by_cases blank : source = ""
        · simp [mode, effective, named, blank]
        · simp [mode, effective, named, blank]

private theorem named_effective_of_file {path : String} {expr : Option String} (counts : path ≠ "")
    (alone : expr = none ∨ expr = some "") (verbose : Bool) :
    (mk (some path) expr verbose).effective.named = .ok (.file path) := by
  obtain rfl | rfl := alone
  · simp [effective, named]
  · simp [effective, named]

/-- Where all arguments count, they are what they seem. -/
theorem effective_of_substantial {arguments : Arguments} (substantial : arguments.Substantial) :
    arguments.effective = arguments := by
  obtain ⟨file, expr, verbose⟩ := arguments
  obtain ⟨fileCounts, exprCounts, -⟩ := substantial
  cases file with
  | none => rfl
  | some path =>
    -- This decides between the two cases for a file name.
    have named : path ≠ "" := fun empty => fileCounts (congrArg some empty)
    simp [effective, exprCounts (Option.some_ne_none path)]

private theorem Substantial.notMem_of_named {arguments : Arguments}
    (substantial : arguments.Substantial) {path : String}
    (file : arguments.named = .ok (.file path)) : '\x00' ∉ path.toList := by
  unfold named at file
  split at file
  · cases file
  · cases file
  · rename_i alone
    cases file
    exact substantial.2.2 alone path ‹_›
  · cases file

end Arguments

/-! ## What the command does -/

structure RunsNamedMode (words : List String) (arguments : Arguments)
    (surroundings : Surroundings) : Prop where
  both : arguments.file.isSome → arguments.expr.isSome → run words surroundings =
    return ⟨2, "", usage ++ "nano: error: give either FILE or -e, not both\n"⟩
  file : ∀ path, arguments.file = some path → arguments.expr = none →
    observed words surroundings = fileOutput (surroundings.directory.read path) ∧
      ∀ source, SourceFile.load (surroundings.directory.read path) = .ok source →
        ∀ store, ShowsOneLine (observed words surroundings store)
  expression : ∀ source, arguments.file = none → arguments.expr = some source →
    observed words surroundings = programOutput (Interpreter.standard.runText source) ∧
      ∀ store, ShowsOneLine (observed words surroundings store)
  session : (∃ threshold, Plan.ofArguments words surroundings.logLevel =
    .perform .session threshold) ↔ arguments.file = none ∧ arguments.expr = none
  /-- Only a session reads the input. -/
  input : arguments.file.isSome ∨ arguments.expr.isSome → ∀ input terminal,
    run words { surroundings with input := input, terminal := terminal } = run words surroundings

section

variable {words : List String} {arguments : Arguments} {surroundings : Surroundings}

private theorem plan_of_accepted (accepted : Request.ofArguments words = .ok (.run arguments))
    (configured : LogLevel) :
    Plan.ofArguments words configured =
      match arguments.effective.named with
      | .error refusal => .answer (refusalReport refusal)
      | .ok mode => .perform mode (arguments.threshold configured) := by
  rw [Plan.ofArguments, accepted]
  cases named : arguments.effective.named with
  | error refusal => simp only [arguments.mode_eq_named, named]
  | ok mode => simp only [arguments.mode_eq_named, named]

private theorem run_of_file (accepted : Request.ofArguments words = .ok (.run arguments))
    {path : String} (named : arguments.effective.named = .ok (.file path))
    (surroundings : Surroundings) :
    run words surroundings = fileReport (arguments.threshold surroundings.logLevel) path
      (surroundings.directory.read path) := by
  rw [run, plan_of_accepted accepted, named]

private theorem run_of_expression (accepted : Request.ofArguments words = .ok (.run arguments))
    {source : String} (named : arguments.effective.named = .ok (.expression source))
    (surroundings : Surroundings) :
    run words surroundings =
      programReport (arguments.threshold surroundings.logLevel) [] source := by
  rw [run, plan_of_accepted accepted, named]

theorem run_ignores_input (noSession : ∀ threshold,
      Plan.ofArguments words surroundings.logLevel ≠ .perform .session threshold)
    (input : String) (terminal : Bool) :
    run words { surroundings with input := input, terminal := terminal } =
      run words surroundings := by
  rw [run, run]
  cases plan : Plan.ofArguments words surroundings.logLevel with
  | answer report => rfl
  | perform mode threshold =>
    cases mode with
    | file path => rfl
    | expression source => rfl
    | session => exact absurd plan (noSession threshold)

theorem runsNamedMode_effective (accepted : Request.ofArguments words = .ok (.run arguments))
    (substantial : arguments.effective.Substantial) (surroundings : Surroundings) :
    RunsNamedMode words arguments.effective surroundings := by
  have plan := plan_of_accepted accepted surroundings.logLevel
  have runFile := @run_of_file _ _ accepted
  have runExpression := @run_of_expression _ _ accepted
  generalize arguments.effective = effective at *
  obtain ⟨file, expr, verbose⟩ := effective
  cases file with
  | none =>
    cases expr with
    | none => exact ⟨nofun, nofun, nofun, iff_of_true ⟨_, plan⟩ ⟨rfl, rfl⟩, by simp⟩
    | some source =>
      have shown : observed words surroundings =
          programOutput (Interpreter.standard.runText source) := by
        rw [observed, runExpression rfl, observed_programReport]
      refine ⟨nofun, nofun, ?_, by simp [plan, Arguments.named],
        fun _ => run_ignores_input (by simp [plan, Arguments.named])⟩
      rintro _ - ⟨⟩
      exact ⟨shown, fun store => shown ▸ showsOneLine_programOutput source store⟩
  | some path =>
    cases expr with
    | none =>
      have shown : observed words surroundings =
          fileOutput (surroundings.directory.read path) := by
        rw [observed, runFile rfl, observed_fileReport _ _ (substantial.notMem_of_named rfl)]
      refine ⟨nofun, ?_, nofun, by simp [plan, Arguments.named],
        fun _ => run_ignores_input (by simp [plan, Arguments.named])⟩
      rintro _ ⟨⟩ -
      refine ⟨shown, fun source loaded store => ?_⟩
      rw [shown, fileOutput_of_load loaded]
      exact showsOneLine_programOutput source store
    | some source =>
      refine ⟨fun _ _ => ?_, nofun, nofun, by simp [plan, Arguments.named],
        fun _ => run_ignores_input (by simp [plan, Arguments.named])⟩
      rw [run, plan]
      rfl

/-! ## Where the command does something else -/

/-- In a directory without entries no file can be read. -/
private theorem Directory.read_ofPaths_nil (path : String) :
    ∃ fault, (Directory.ofPaths []).read path = .error fault := by
  have noFile : ∀ place, (Directory.ofPaths []).entryOf place = .directory := by
    intro place
    cases place with
    | outside => rfl
    | inside names => cases names <;> rfl
  rw [Directory.read]
  split
  · exact ⟨_, rfl⟩
  · simp only [noFile]
    generalize (List.foldlM _ _ (pathNames path) : Except ReadFault Place) = led
    cases led with
    | error fault => exact ⟨fault, rfl⟩
    | ok place => exact ⟨.isDirectory, rfl⟩

/-- The log line about a file is never taken for a complaint about the arguments. -/
private theorem render_faultLog_ne (threshold : LogLevel) (path rest : String) (fault : FileFault) :
    LogEntry.render threshold [faultLog path fault] ≠ usage ++ rest := by
  have begins : (usage ++ rest).toList.head? = some 'u' := by
    rw [String.toList_append]
    rfl
  have logged : (faultLog path fault).text.toList.head? = some 'E' := by
    have level : (faultLog path fault).level = .error := by cases fault <;> rfl
    rw [LogEntry.text, level]
    simp only [String.append_assoc, String.toList_append]
    rfl
  intro same
  rw [← same, LogEntry.render] at begins
  by_cases passes : threshold.severity ≤ (faultLog path fault).level.severity
  · rw [List.filter_cons_of_pos (by simpa using passes)] at begins
    simp [String.join, logged] at begins
  · rw [List.filter_cons_of_neg (by simpa using passes)] at begins
    simp [String.join] at begins

/-- What becomes of a file that cannot be read is never a refusal of the arguments. -/
private theorem fileReport_ne_refusal (threshold : LogLevel) (path rest : String)
    (fault : ReadFault) :
    fileReport threshold path (.error fault) ≠ return ⟨2, "", usage ++ rest⟩ := by
  intro same
  replace same := congrFun same Store.empty
  by_cases null : '\x00' ∈ path.toList
  · rw [fileReport_of_null null] at same
    cases same
  · rw [fileReport_of_not_null null] at same
    obtain ⟨reports, -⟩ := pure_eq_ok_iff.mp same
    exact render_faultLog_ne threshold path rest _ (congrArg Report.stderr reports)

private theorem file_ne_empty (accepted : Request.ofArguments words = .ok (.run arguments))
    (runs : ∀ surroundings, RunsNamedMode words arguments surroundings) :
    arguments.file ≠ some "" := by
  have runs := runs ⟨.ofPaths [], "", false, .warning⟩
  obtain ⟨file, expr, verbose⟩ := arguments
  rintro ⟨⟩
  cases expr with
  | none =>
    obtain ⟨absent, -⟩ := runs.session.mp ⟨_, plan_of_accepted accepted .warning⟩
    cases absent
  | some source =>
    -- No program has the status of a refusal.
    have shown := showsOneLine_programOutput source .empty
    have refused := runs.both rfl rfl
    rw [run_of_expression accepted rfl] at refused
    rw [← observed_programReport, refused, map_pure] at shown
    obtain ⟨line, -, -, status⟩ := shown
    split at status
    · cases status
    · cases status

/-- In empty surroundings, the command does what the arguments name only if all of them count. -/
theorem substantial_of_runsNamedMode
    (accepted : Request.ofArguments words = .ok (.run arguments))
    (runs : ∀ surroundings, RunsNamedMode words arguments surroundings) :
    arguments.Substantial := by
  have named := file_ne_empty accepted runs
  have runs := runs ⟨.ofPaths [], "", false, .warning⟩
  obtain ⟨file, expr, verbose⟩ := arguments
  refine ⟨named, ?_, ?_⟩
  -- There are no files, so a file that is run shows by its complaint.
  · rintro present ⟨⟩
    obtain ⟨path, rfl⟩ := Option.ne_none_iff_exists'.mp present
    obtain ⟨fault, unread⟩ := Directory.read_ofPaths_nil path
    have counts : path ≠ "" := fun empty => named (congrArg some empty)
    have refused := runs.both rfl rfl
    rw [run_of_file accepted (Arguments.named_effective_of_file counts (.inr rfl) verbose),
      unread] at refused
    exact fileReport_ne_refusal _ path _ fault refused
  · rintro ⟨⟩ path ⟨⟩ null
    obtain ⟨fault, unread⟩ := Directory.read_ofPaths_nil path
    have counts : path ≠ "" := fun empty => named (congrArg some empty)
    have shown := (runs.file path rfl rfl).1
    rw [observed,
      run_of_file accepted (Arguments.named_effective_of_file counts (.inl rfl) verbose),
      fileReport_of_null null, unread] at shown
    cases congrFun shown Store.empty

end

/-- The command does what its arguments name, whatever it finds, exactly if none of them is an empty
text that is taken for a missing one and a file that is to be run has no null character in its path.
What it does otherwise is what the arguments name that it does not pass over. -/
theorem named_mode_runs_iff {words : List String} {arguments : Arguments}
    (accepted : Request.ofArguments words = .ok (.run arguments)) :
    ((∀ surroundings, RunsNamedMode words arguments surroundings) ↔ arguments.Substantial) ∧
      (arguments.effective.Substantial →
        ∀ surroundings, RunsNamedMode words arguments.effective surroundings) := by
  refine ⟨⟨substantial_of_runsNamedMode accepted, fun substantial => ?_⟩,
    runsNamedMode_effective accepted⟩
  have effective := Arguments.effective_of_substantial substantial
  rw [← effective] at substantial ⊢
  exact runsNamedMode_effective accepted substantial

/-- An empty expression alone is run as one. Beside a file it is passed over: the file is run, and
nothing is refused. -/
theorem named_mode_runs_iff_of_empty_expression :
    Request.ofArguments ["-e", ""] = .ok (.run ⟨none, some "", false⟩) ∧
      (∀ surroundings, RunsNamedMode ["-e", ""] ⟨none, some "", false⟩ surroundings) ∧
      Request.ofArguments ["p.nano", "-e", ""] = .ok (.run ⟨some "p.nano", some "", false⟩) ∧
      ¬ (∀ surroundings, RunsNamedMode ["p.nano", "-e", ""] ⟨some "p.nano", some "", false⟩
        surroundings) ∧
      ∀ surroundings, RunsNamedMode ["p.nano", "-e", ""] ⟨some "p.nano", none, false⟩
        surroundings := by
  have alone : Request.ofArguments ["-e", ""] = .ok (.run ⟨none, some "", false⟩) := rfl
  have beside : Request.ofArguments ["p.nano", "-e", ""] =
      .ok (.run ⟨some "p.nano", some "", false⟩) := rfl
  obtain ⟨runs_iff, runs⟩ := named_mode_runs_iff beside
  refine ⟨alone, (named_mode_runs_iff alone).1.mpr ⟨nofun, nofun, nofun⟩, beside, ?_, runs ?_⟩
  · intro always
    exact (runs_iff.mp always).2.1 (Option.some_ne_none _) rfl
  · refine ⟨by decide, fun _ => nofun, ?_⟩
    rintro - _ ⟨⟩
    decide +kernel

/-- A file with an empty name is named, which stands for the directory and cannot be read. The
command holds a session all the same, and runs the line that it finds in the input. -/
theorem empty_path_starts_session :
    let surroundings : Surroundings := ⟨.ofPaths [], "1\n", false, .warning⟩
    Request.ofArguments [""] = .ok (.run ⟨some "", none, false⟩) ∧
      surroundings.directory.read "" = .error .isDirectory ∧
      run [""] surroundings .empty = .ok ⟨0, "1\n", ""⟩ .empty ∧
      ¬ RunsNamedMode [""] ⟨some "", none, false⟩ surroundings := by
  intro surroundings
  have unread : surroundings.directory.read "" = .error .isDirectory := rfl
  have parsed : parse "1" = .ok (.int 1) := parse_of_toOption (by decide +kernel)
  have attempted : Interpreter.standard.attemptText "1" .empty = .ok (.value (.int 1)) .empty := by
    rw [Interpreter.attemptText, parsed]
    rfl
  have held : Repl.session .standard "1\n" .empty = .ok [.reply (.value (.int 1)) "1"] .empty := by
    have read : (lines "1\n".toList).map String.ofList = ["1"] := by decide +kernel
    have program : trim "1" = "1" := by decide +kernel
    have printed : (Outcome.value (.int 1)).toValue.text? = some "1" := by decide +kernel
    rw [Repl.session, read, Repl.exchanges, program, if_neg (by decide), if_neg (by decide),
      bind_of_ok attempted, printed]
    rfl
  have ran : run [""] surroundings .empty = .ok ⟨0, "1\n", ""⟩ .empty := bind_of_ok held
  refine ⟨rfl, unread, ran, fun runs => ?_⟩
  have shown := (runs.file "" rfl rfl).1
  rw [unread, observed] at shown
  replace shown := congrFun shown Store.empty
  rw [map_of_ok ran] at shown
  cases shown

end Command

end MiniFun
