import MiniFun.Proofs.IndependentRuns
import MiniFun.Proofs.OneLineTexts
import MiniFun.Repl

/-! # What a session writes

A session reads its input line by line up to the line that ends it. It answers each line that is not
blank with the text of the result that the line has as a program of its own: programs on earlier
lines make no difference. Since such a text stands on one line, the output has one line for each
program. Whether the last one is an error can be read off the last line.
-/

namespace MiniFun

open Text

/-! ## Lines -/

namespace Text

/-- The lines of a text: what stands between its line feeds, and what stands behind the last one
unless that is nothing. -/
def splitLines (text : String) : List String :=
  let pieces := text.toList.splitOn '\n'
  (if pieces.getLast? = some [] then pieces.dropLast else pieces).map String.ofList

/-- Input is cut into lines at line feeds. -/
theorem lines_eq_splitOn (chars : List Char) :
    lines chars = if (chars.splitOn '\n').getLast? = some [] then (chars.splitOn '\n').dropLast
      else chars.splitOn '\n' := by
  induction chars with
  | nil => rfl
  | cons c rest ih =>
    rw [lines, ih, List.splitOn_cons_eq_if_modifyHead]
    -- A character in front changes the last piece only if there is no other piece.
    obtain ⟨piece, pieces, split⟩ := List.exists_cons_of_ne_nil (List.splitOn_ne_nil '\n' rest)
    rw [split]
    by_cases feed : c = '\n'
    · cases pieces with
      | nil => cases piece <;> simp [feed]
      | cons next others =>
        by_cases complete : (next :: others).getLast? = some []
        · simp [feed, complete]
        · simp [feed, complete]
    · cases pieces with
      | nil => cases piece <;> simp [feed]
      | cons next others =>
        by_cases complete : (next :: others).getLast? = some []
        · simp [feed, complete]
        · simp [feed, complete]

private theorem splitLines_eq (text : String) :
    splitLines text = (lines text.toList).map String.ofList := by
  rw [splitLines, lines_eq_splitOn]

/-- A line ends with the first line feed. -/
private theorem lines_append {line : List Char} (oneLine : '\n' ∉ line) (rest : List Char) :
    lines (line ++ '\n' :: rest) = line :: lines rest := by
  induction line with
  | nil => rw [List.nil_append, lines, if_pos rfl]
  | cons c line ih =>
    obtain ⟨differs, inner⟩ := not_or.mp (mt List.mem_cons.mpr oneLine)
    rw [List.cons_append, lines, if_neg (Ne.symm differs), ih inner]

/-- Texts on one line each are the lines of the text that is written with them. -/
private theorem splitLines_join {texts : List String} (oneLine : ∀ text ∈ texts, OneLine text) :
    splitLines (String.join (texts.map (· ++ "\n"))) = texts := by
  rw [splitLines_eq]
  induction texts with
  | nil => rfl
  | cons text texts ih =>
    obtain ⟨first, others⟩ := List.forall_mem_cons.mp oneLine
    have written : (String.join ((text :: texts).map (· ++ "\n"))).toList =
        text.toList ++ '\n' :: (String.join (texts.map (· ++ "\n"))).toList := by
      simp [String.join_cons]
    rw [written, lines_append first, List.map_cons, ih others, String.ofList_toList]

end Text

/-! ## Sessions -/

namespace Repl

/-- The lines that a session reads before the one that ends it, trimmed. -/
def readLines (input : String) : List String :=
  ((splitLines input).map trim).takeWhile (· ≠ quit)

def programs (input : String) : List String :=
  (readLines input).filter (· ≠ "")

/-- The program alone gives the result and shows it as given. -/
def Answers (source : String) (result : Value) (shown : String) : Prop :=
  ∃ target, Interpreter.standard.runText source .empty = .ok result target ∧
    result.text? = some shown

/-- What is written in answer to a line, given what is shown for programs. -/
def answer (shown : String → String) (line : String) : String :=
  if line = "" then "" else shown line ++ "\n"

/-- A program shows the same at any time, and is an error at any time or never. -/
private theorem Answers.attempt {source shown : String} {result : Value}
    (answers : Answers source result shown) (store : Store) :
    ∃ outcome target, Interpreter.standard.attemptText source store = .ok outcome target ∧
      outcome.toValue.text? = some shown ∧ outcome.toValue.isFailed = result.isFailed := by
  obtain ⟨target, success, printed⟩ := answers
  -- Every store has more cells than the empty one, in which the program was run alone.
  have reserved : Reserved .empty (.env Interpreter.standard.env) :=
    .env (List.forall_mem_nil _)
  have renumbered := (Call.runText source).renumbered_perform reserved (.empty store)
  rw [Call.perform, success] at renumbered
  generalize ran : Interpreter.standard.runText source store = again at renumbered
  cases renumbered with
  | ok cells sameText captured =>
    cases attempted : Interpreter.standard.attemptText source store with
    | error failure middle =>
      rw [Interpreter.runText, map_of_error attempted] at ran
      cases ran
    | ok outcome middle =>
      rw [Interpreter.runText, map_of_ok attempted] at ran
      obtain ⟨same, -⟩ := EStateM.Result.ok.inj ran
      refine ⟨outcome, middle, rfl, ?_, ?_⟩
      · rw [same, sameText, printed]
      · rw [same, Value.isFailed_renumber]

/-- The exchanges are those of the lines: nothing for blank ones, and what is shown for the others,
with a result that is an error if the given one is. -/
inductive Traced (result : String → Value) (shown : String → String) :
    List String → List Exchange → Prop
  | nil : Traced result shown [] []
  | silent {lines : List String} {exchanges : List Exchange}
      (rest : Traced result shown lines exchanges) :
      Traced result shown ("" :: lines) (.silent :: exchanges)
  | reply {source : String} {outcome : Outcome} {lines : List String} {exchanges : List Exchange}
      (program : source ≠ "") (alike : outcome.toValue.isFailed = (result source).isFailed)
      (rest : Traced result shown lines exchanges) :
      Traced result shown (source :: lines) (.reply outcome (shown source) :: exchanges)

section

variable {result : String → Value} {shown : String → String}

/-- A session goes through its lines if every program among them shows its result. -/
theorem exchanges_traced (lines : List String)
    (answered : ∀ source ∈ ((lines.map trim).takeWhile (· ≠ quit)).filter (· ≠ ""),
      Answers source (result source) (shown source)) (store : Store) :
    ∃ exchanges target, Repl.exchanges .standard lines store = .ok exchanges target ∧
      Traced result shown ((lines.map trim).takeWhile (· ≠ quit)) exchanges := by
  -- The store is arbitrary, since each program leaves its cells to the next one.
  induction lines generalizing store with
  | nil => exact ⟨[], store, rfl, .nil⟩
  | cons line lines ih =>
    rw [Repl.exchanges]
    by_cases blank : trim line = ""
    · have read : ((line :: lines).map trim).takeWhile (· ≠ quit) =
          "" :: (lines.map trim).takeWhile (· ≠ quit) := by
        rw [List.map_cons, blank]
        rfl
      rw [read] at answered ⊢
      obtain ⟨exchanges, target, success, traced⟩ := ih (by simpa using answered) store
      refine ⟨.silent :: exchanges, target, ?_, .silent traced⟩
      simp only [blank, if_true]
      rw [bind_of_ok success]
      rfl
    by_cases ends : trim line = quit
    · have read : ((line :: lines).map trim).takeWhile (· ≠ quit) = [] := by
        simp [ends]
      rw [read]
      refine ⟨[], store, ?_, .nil⟩
      simp only [ends, if_neg (by decide : quit ≠ ""), if_true]
      rfl
    · have read : ((line :: lines).map trim).takeWhile (· ≠ quit) =
          trim line :: (lines.map trim).takeWhile (· ≠ quit) := by
        simp [ends]
      rw [read] at answered ⊢
      simp only [List.filter_cons, ne_eq, blank, not_false_eq_true, decide_true, if_true,
        List.forall_mem_cons] at answered
      obtain ⟨own, others⟩ := answered
      obtain ⟨outcome, middle, attempted, printed, alike⟩ := own.attempt store
      obtain ⟨exchanges, target, success, traced⟩ := ih others middle
      refine ⟨.reply outcome (shown (trim line)) :: exchanges, target, ?_,
        .reply blank alike traced⟩
      have written : Computation.ofText outcome.toValue.text? middle =
          .ok (shown (trim line)) middle := by
        rw [printed]
        rfl
      simp only [blank, ends, if_false]
      rw [bind_of_ok attempted, bind_of_ok written, bind_of_ok success]
      rfl

namespace Traced

variable {lines : List String} {exchanges : List Exchange}

/-- Each line is answered behind a prompt of its own. -/
theorem output_eq (traced : Traced result shown lines exchanges) (prompt : String) :
    Repl.output prompt exchanges =
      String.join (lines.map fun line => prompt ++ answer shown line) ++ prompt := by
  have answers : exchanges.map (fun exchange => prompt ++ exchange.output) =
      lines.map fun line => prompt ++ answer shown line := by
    induction traced with
    | nil => rfl
    | silent _ ih => rw [List.map_cons, List.map_cons, ih, Exchange.output, answer, if_pos rfl]
    | reply program _ _ ih =>
      rw [List.map_cons, List.map_cons, ih, Exchange.output, answer, if_neg program]
  rw [Repl.output, answers]

/-- The programs end in errors where the given results are errors. -/
theorem failures_eq (traced : Traced result shown lines exchanges) :
    (exchanges.filterMap Exchange.outcome?).map (fun outcome => outcome.toValue.isFailed) =
      (lines.filter (· ≠ "")).map fun source => (result source).isFailed := by
  induction traced with
  | nil => rfl
  | silent _ ih =>
    rw [List.filterMap_cons_none rfl, ih]
    rfl
  | reply program alike _ ih => simpa [Exchange.outcome?, program, alike] using ih

/-- The status is one exactly if the last program ends in an error. -/
theorem status_eq (traced : Traced result shown lines exchanges) :
    Repl.status exchanges =
      if ((lines.filter (· ≠ "")).map fun source => (result source).isFailed).getLast? = some true
      then 1 else 0 := by
  rw [← traced.failures_eq, List.getLast?_map, Repl.status]
  cases (exchanges.filterMap Exchange.outcome?).getLast? with
  | none => rfl
  | some outcome => simp

end Traced

end

/-- Without a prompt, blank lines leave no trace. -/
private theorem join_answers (shown : String → String) (lines : List String) :
    String.join (lines.map fun line => "" ++ answer shown line) ++ "" =
      String.join (((lines.filter (· ≠ "")).map shown).map (· ++ "\n")) := by
  induction lines with
  | nil => rfl
  | cons line lines ih =>
    by_cases blank : line = ""
    · simpa [answer, blank, String.join_cons] using ih
    · simpa [answer, blank, String.join_cons] using ih

end Repl

open Repl

/-- If every program in the input can be run and its result can be shown, a session without bindings
of a host program goes through. It writes what the programs show by themselves, one line for each; a
line begins like an error exactly if the result is an error value, and the status says whether the
last line does. A prompt is written before each line that is read, and before the end. -/
theorem session_shows_each_program (input : String) (store : Store) (result : String → Value)
    (shown : String → String)
    (answered : ∀ source ∈ programs input, Answers source (result source) (shown source)) :
    ∃ exchanges target, session .standard input store = .ok exchanges target ∧
      output "" exchanges =
        String.join ((programs input).map fun source => shown source ++ "\n") ∧
      splitLines (output "" exchanges) = (programs input).map shown ∧
      (∀ source ∈ programs input, OneLine (shown source) ∧
        (errorMark.toList <+: (shown source).toList ↔ (result source).isFailed = true)) ∧
      (status exchanges = 1 ↔ ∃ line, (splitLines (output "" exchanges)).getLast? = some line ∧
        errorMark.toList <+: line.toList) ∧
      status exchanges ≤ 1 ∧
      ∀ prompt, output prompt exchanges =
        String.join ((readLines input).map fun line => prompt ++ answer shown line) ++ prompt := by
  have cut : (lines input.toList).map String.ofList = splitLines input := (splitLines_eq input).symm
  obtain ⟨exchanges, target, success, traced⟩ := exchanges_traced (splitLines input) answered store
  have each : ∀ source ∈ programs input, OneLine (shown source) ∧
      (errorMark.toList <+: (shown source).toList ↔ (result source).isFailed = true) := by
    intro source member
    obtain ⟨_, ran, printed⟩ := answered source member
    exact shown_of_runText ran printed
  have written : output "" exchanges =
      String.join (((programs input).map shown).map (· ++ "\n")) := by
    rw [traced.output_eq, join_answers]
    rfl
  have outputLines : splitLines (output "" exchanges) = (programs input).map shown := by
    rw [written]
    refine splitLines_join fun text member => ?_
    obtain ⟨source, isProgram, rfl⟩ := List.mem_map.mp member
    exact (each source isProgram).1
  have status_iff : status exchanges = 1 ↔ ∃ line,
      (splitLines (output "" exchanges)).getLast? = some line ∧
        errorMark.toList <+: line.toList := by
    have last_eq : status exchanges =
        if (programs input).getLast?.map (fun source => (result source).isFailed) = some true
        then 1 else 0 := by
      rw [traced.status_eq, List.getLast?_map]
      rfl
    rw [last_eq, outputLines, List.getLast?_map]
    cases last : (programs input).getLast? with
    | none => simp
    | some source =>
      obtain ⟨-, marked⟩ := each source (List.mem_of_getLast? last)
      simp [marked]
  refine ⟨exchanges, target, ?_, ?_, outputLines, each, status_iff, ?_, traced.output_eq⟩
  · rw [session, cut, success]
  · rw [written, List.map_map]
    rfl
  · rw [traced.status_eq]
    split <;> decide

/-- A sum, a blank line and a name without a value, up to the line that ends the session. What
stands behind that line is not read. -/
theorem session_shows_each_program_up_to_quit :
    let input := "  1 + 1 \n\nx\n:q\n5"
    let result (source : String) : Value :=
      if source = "x" then .failed "unbound variable: x" else .int 2
    let shown (source : String) : String :=
      if source = "x" then "ERROR: unbound variable: x" else "2"
    (∀ source ∈ programs input, Answers source (result source) (shown source)) ∧
      ∃ exchanges target, session .standard input .empty = .ok exchanges target ∧
        output "" exchanges = "2\nERROR: unbound variable: x\n" ∧
        output "> " exchanges = "> 2\n> > ERROR: unbound variable: x\n> " ∧
        status exchanges = 1 := by
  intro input result shown
  have read : readLines input = ["1 + 1", "", "x"] := by decide +kernel
  have run : programs input = ["1 + 1", "x"] := by
    rw [programs, read]
    decide
  have sum : parse "1 + 1" = .ok (.binary .plus (.int 1) (.int 1)) :=
    parse_of_toOption (by decide +kernel)
  have name : parse "x" = .ok (.var "x") := parse_of_toOption (by decide +kernel)
  have answers : ∀ {source : String} {expr : Expr} {value : Value} {text : String},
      parse source = .ok expr →
      settled (Interpreter.standard.evaluate expr .empty) = .ok value .empty →
      value.text? = some text → Answers source value text := by
    intro source expr value text parsed ended printed
    refine ⟨.empty, ?_, printed⟩
    rw [Interpreter.runText_eq_settled, Interpreter.evaluateText_of_ok _ parsed, ended]
  have answered : ∀ source ∈ programs input, Answers source (result source) (shown source) := by
    rw [run]
    refine List.forall_mem_cons.mpr ⟨answers sum rfl ?_, List.forall_mem_singleton.mpr ?_⟩
    · decide +kernel
    · exact answers name rfl rfl
  obtain ⟨exchanges, target, success, written, outputLines, -, status_iff, -, prompted⟩ :=
    session_shows_each_program input .empty result shown answered
  refine ⟨answered, exchanges, target, success, ?_, ?_, ?_⟩
  · rw [written, run]
    decide +kernel
  · rw [prompted, read]
    decide +kernel
  · refine status_iff.mpr ⟨"ERROR: unbound variable: x", ?_, by decide +kernel⟩
    rw [outputLines, run]
    rfl

end MiniFun
