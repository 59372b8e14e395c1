import MiniFun.Command
import MiniFun.Proofs.Utf8Forms

/-! # Programs in files

Whether a program is given as a text or in a file makes no difference, whichever way the file ends
its lines: the text is what decoding and the unification of its newlines bring. Bytes that encode no
text are refused as a whole, before any of them is read as a program.
-/

namespace MiniFun

open Text

/-! ## Newlines -/

/-- The ways in which files end their lines. -/
inductive Newline where
  | lineFeed
  | carriageReturn
  | both
deriving DecidableEq, Repr, Inhabited

namespace Newline

def chars : Newline → List Char
  | lineFeed => ['\n']
  | carriageReturn => ['\r']
  | both => ['\r', '\n']

/-- The characters of a text whose lines end in this way. -/
def rewrite (newline : Newline) (text : List Char) : List Char :=
  text.flatMap fun c => if c = '\n' then newline.chars else [c]

private theorem rewrite_newline (newline : Newline) (rest : List Char) :
    newline.rewrite ('\n' :: rest) = newline.chars ++ newline.rewrite rest := rfl

private theorem rewrite_cons (newline : Newline) {c : Char} (other : c ≠ '\n') (rest : List Char) :
    newline.rewrite (c :: rest) = c :: newline.rewrite rest := by
  simp [rewrite, other]

private theorem newline_notMem_rewrite (text : List Char) : '\n' ∉ carriageReturn.rewrite text := by
  induction text with
  | nil => nofun
  | cons c rest ih =>
    by_cases feed : c = '\n'
    · rw [feed, rewrite_newline]
      simpa [chars] using ih
    · rw [rewrite_cons _ feed]
      simpa [Ne.symm feed] using ih

end Newline

namespace Text

private theorem unifyNewlines_cons {c : Char} (other : c ≠ '\r') (rest : List Char) :
    unifyNewlines (c :: rest) = c :: unifyNewlines rest := by
  simp [unifyNewlines, other]

/-- A carriage return alone ends a line as well. -/
private theorem unifyNewlines_return {rest : List Char} (alone : '\n' ∉ rest) :
    unifyNewlines ('\r' :: rest) = '\n' :: unifyNewlines rest := by
  cases rest with
  | nil => rfl
  | cons c rest =>
    have other : c ≠ '\n' := by
      rintro rfl
      exact alone List.mem_cons_self
    simp [unifyNewlines, other]

/-- However the lines of a text are ended, unification gives the text back. -/
theorem unifyNewlines_rewrite (newline : Newline) {text : List Char} (noReturn : '\r' ∉ text) :
    unifyNewlines (newline.rewrite text) = text := by
  induction text with
  | nil => rfl
  | cons c rest ih =>
    obtain ⟨other, inner⟩ := not_or.mp (mt List.mem_cons.mpr noReturn)
    by_cases feed : c = '\n'
    · rw [feed, Newline.rewrite_newline]
      cases newline with
      | lineFeed =>
        rw [Newline.chars, List.singleton_append, unifyNewlines_cons (by decide), ih inner]
      | carriageReturn =>
        have alone := Newline.newline_notMem_rewrite rest
        rw [Newline.chars, List.singleton_append, unifyNewlines_return alone, ih inner]
      | both =>
        have unified : unifyNewlines (['\r', '\n'] ++ Newline.both.rewrite rest) =
            '\n' :: unifyNewlines (Newline.both.rewrite rest) := by
          simp [unifyNewlines]
        rw [Newline.chars, unified, ih inner]
    · rw [Newline.rewrite_cons _ feed, unifyNewlines_cons (Ne.symm other), ih inner]

/-! ## Encoded texts -/

def utf8Bytes (text : String) : List UInt8 :=
  text.toUTF8.data.toList

private theorem utf8Bytes_ofList (chars : List Char) :
    utf8Bytes (String.ofList chars) = chars.flatMap String.utf8EncodeChar := by
  simp [utf8Bytes, List.utf8Encode]

theorem utf8Decode_utf8Bytes (chars : List Char) :
    utf8Decode (utf8Bytes (String.ofList chars)) = .ok chars :=
  utf8Decode_eq_ok_iff.mpr (utf8Bytes_ofList chars).symm

/-- Exactly the bytes that encode no text are refused. -/
theorem exists_utf8Decode_eq_error_iff {bytes : List UInt8} :
    (∃ fault, utf8Decode bytes = .error fault) ↔ ∀ text, bytes ≠ utf8Bytes text := by
  constructor
  · rintro ⟨fault, refused⟩ text rfl
    rw [← String.ofList_toList (s := text), utf8Decode_utf8Bytes] at refused
    cases refused
  · intro noText
    cases decoded : utf8Decode bytes with
    | error fault => exact ⟨fault, rfl⟩
    | ok chars =>
      have encoded := utf8Decode_eq_ok_iff.mp decoded
      exact (noText (String.ofList chars) (by rw [utf8Bytes_ofList, encoded])).elim

end Text

/-! ## Files -/

namespace SourceFile

theorem load_utf8Bytes (chars : List Char) :
    load (.ok (utf8Bytes (String.ofList chars))) = .ok (String.ofList (unifyNewlines chars)) := by
  rw [load, decode, utf8Decode_utf8Bytes]
  rfl

private theorem load_of_error {bytes : List UInt8} {fault : Utf8Fault}
    (refused : utf8Decode bytes = .error fault) :
    load (.ok bytes) = .error (.undecodable fault) := by
  rw [load, decode, refused]
  rfl

end SourceFile

open Command

/-- The command reports on a file without a text that there is nothing to run. The path of a file
has no null character in it. -/
theorem Command.run_of_undecodable {arguments : List String} {surroundings : Surroundings}
    {path : String} {threshold : LogLevel} {bytes : List UInt8} {fault : FileFault}
    (plan : Plan.ofArguments arguments surroundings.logLevel = .perform (.file path) threshold)
    (contents : surroundings.directory.read path = .ok bytes) (named : '\x00' ∉ path.toList)
    (refused : SourceFile.load (.ok bytes) = .error fault) (store : Store) :
    Command.run arguments surroundings store =
      .ok ⟨2, "", LogEntry.render threshold [faultLog path fault]⟩ store := by
  have possible : path.toList.contains '\x00' = false := by simpa using named
  rw [Command.run, plan]
  simp only [contents, fileReport, possible, refused]
  rfl

/-- Running a file agrees with running its text. The file of a text without carriage returns,
encoded in UTF-8 with its lines ended in any one way, is run as the text is, with all its errors.
Bytes that encode no text are refused and nothing is run; the command then has the status two and an
empty output, whichever arguments led it to such a file. -/
theorem files_run_as_their_texts :
    (∀ (source : String) (newline : Newline), '\r' ∉ source.toList →
      SourceFile.run (.ok (utf8Bytes (String.ofList (newline.rewrite source.toList)))) =
        .ok (Interpreter.standard.runText source)) ∧
    ∀ bytes : List UInt8, (∀ text, bytes ≠ utf8Bytes text) → ∃ fault,
      SourceFile.run (.ok bytes) = .error (.undecodable fault) ∧
      ∀ arguments surroundings path threshold,
        Plan.ofArguments arguments surroundings.logLevel = .perform (.file path) threshold →
        surroundings.directory.read path = .ok bytes → '\x00' ∉ path.toList →
        ∀ store, Command.run arguments surroundings store =
          .ok ⟨2, "", LogEntry.render threshold [faultLog path (.undecodable fault)]⟩ store := by
  constructor
  · intro source newline noReturn
    rw [SourceFile.run, SourceFile.load_utf8Bytes, unifyNewlines_rewrite newline noReturn,
      String.ofList_toList]
    rfl
  · intro bytes noText
    obtain ⟨fault, refused⟩ := exists_utf8Decode_eq_error_iff.mpr noText
    have unloaded := SourceFile.load_of_error refused
    refine ⟨fault, ?_, ?_⟩
    · rw [SourceFile.run, unloaded]
      rfl
    · intro arguments surroundings path threshold plan contents named store
      exact run_of_undecodable plan contents named unloaded store

/-- A sum whose first line ends in a comment with a character of two bytes, and a file in which the
bytes of a surrogate follow a digit. -/
theorem files_run_as_their_texts_unless_surrogate :
    let sum : List UInt8 := [0x31, 0x2D, 0x2D, 0xC3, 0xA9, 0x0D, 0x0A, 0x2B, 0x32]
    let bytes : List UInt8 := [0x31, 0xED, 0xA0, 0x80]
    let surroundings : Surroundings := ⟨.ofPaths [("s.nano", .file bytes)], "", false, .warning⟩
    SourceFile.run (.ok sum) = .ok (Interpreter.standard.runText "1--é\n+2") ∧
    (∀ text, bytes ≠ utf8Bytes text) ∧
    ∃ fault, SourceFile.run (.ok bytes) = .error (.undecodable fault) ∧
      Command.run ["s.nano"] surroundings .empty =
        .ok ⟨2, "", LogEntry.render .warning [faultLog "s.nano" (.undecodable fault)]⟩ .empty := by
  intro sum bytes surroundings
  have written : utf8Bytes (String.ofList (Newline.both.rewrite "1--é\n+2".toList)) = sum := by
    rw [utf8Bytes_ofList]
    decide +kernel
  have noText : ∀ text, bytes ≠ utf8Bytes text := by
    rw [← exists_utf8Decode_eq_error_iff]
    exact ⟨.invalidContinuation, rfl⟩
  have contents : surroundings.directory.read "s.nano" = .ok bytes := by
    have names : pathNames "s.nano" = ["s.nano"] := by decide +kernel
    have short : ¬ pathLimit < (tidyPath "s.nano").utf8ByteSize := by decide +kernel
    rw [Directory.read, if_neg short, names]
    simp only [surroundings, Directory.ofPaths, List.map_singleton, names]
    rfl
  obtain ⟨texts, others⟩ := files_run_as_their_texts
  obtain ⟨fault, refused, reported⟩ := others bytes noText
  have run := texts "1--é\n+2" .both (by decide +kernel)
  rw [written] at run
  exact ⟨run, noText, fault, refused, reported ["s.nano"] surroundings "s.nano" .warning
    (by decide +kernel) contents (by decide +kernel) .empty⟩

end MiniFun
