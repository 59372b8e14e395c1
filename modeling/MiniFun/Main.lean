import MiniFun.Command
import MiniFun.Settings

/-! # The program

Reads the arguments, the settings and whatever the arguments name, and writes what the command
reports. Sessions are held line by line as the input arrives.
-/

namespace MiniFun.Main

open Command

/-- The code that the operating system gives when bytes are read from a directory. -/
def isDirectoryCode : UInt32 := 21

def readBytes (path : String) : IO (Except ReadFault (List UInt8)) := do
  try
    return .ok (← IO.FS.readBinFile path).toList
  catch fault =>
    match fault with
    | .noFileOrDirectory .. => return .error .missing
    | .inappropriateType _ code _ =>
      return .error (if code = isDirectoryCode then .isDirectory else .notDirectory)
    | _ => return .error (.other (toString fault))

def deliver (report : Report) : IO UInt32 := do
  (← IO.getStderr).putStr report.stderr
  let output ← IO.getStdout
  output.putStr report.stdout
  output.flush
  return report.status.toUInt32

/-- Writes the report of a computation; a limit that was met is a complaint. -/
def deliverResult (computation : Computation Report) : IO UInt32 :=
  match computation .empty with
  | .ok report _ => deliver report
  | .error failure _ => deliver ⟨1, "", failure.message ++ "\n"⟩

/-- Holds a session at a prompt, one line after the other. -/
partial def converse (threshold : LogLevel) (prompt : String) (status : UInt32) : IO UInt32 := do
  let output ← IO.getStdout
  output.putStr prompt
  output.flush
  let line ← (← IO.getStdin).getLine
  if line.isEmpty || Text.trim line = Repl.quit then
    return status
  match sessionReport threshold "" line .empty with
  | .error failure _ => deliver ⟨1, "", failure.message ++ "\n"⟩
  | .ok report _ =>
    let answered := report.stdout != ""
    let next ← deliver report
    converse threshold prompt (if answered then next else status)

def start (arguments : List String) : IO UInt32 := do
  let configured := Settings.logLevelOf (← IO.getEnv "NANO_LOG_LEVEL")
  match Plan.ofArguments arguments configured with
  | .answer report => deliver report
  | .perform (.file path) threshold =>
    deliverResult (fileReport threshold path (← readBytes path))
  | .perform (.expression source) threshold => deliverResult (programReport threshold [] source)
  | .perform .session threshold =>
    converse threshold (promptFor (← (← IO.getStdin).isTty)) 0

end MiniFun.Main

def main (arguments : List String) : IO UInt32 :=
  MiniFun.Main.start arguments
