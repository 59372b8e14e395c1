import MiniFun.Interpreter
import MiniFun.Text.Line
import MiniFun.Text.Utf8

/-! # Program files

A program file is UTF-8 text. Reading it can fail in two ways: the bytes cannot be had, or they
are not UTF-8. A text that was read is run like any other.
-/

namespace MiniFun

open Text

/-- Why the bytes of a file cannot be had. -/
inductive ReadFault where
  | missing
  | isDirectory
  | notDirectory
  | nameTooLong
  | other (reason : String)
deriving DecidableEq, Repr, Inhabited

def ReadFault.message : ReadFault → String
  | missing => "No such file or directory"
  | isDirectory => "Is a directory"
  | notDirectory => "Not a directory"
  | nameTooLong => "File name too long"
  | other reason => reason

/-- Why there is no program in a file. -/
inductive FileFault where
  | unreadable (fault : ReadFault)
  | undecodable (fault : Utf8Fault)
deriving DecidableEq, Repr, Inhabited

namespace SourceFile

def decode (bytes : List UInt8) : Except Utf8Fault String :=
  (fun chars => String.ofList (unifyNewlines chars)) <$> utf8Decode bytes

/-- The text of a file, given what reading it brought. -/
def load : Except ReadFault (List UInt8) → Except FileFault String
  | .error fault => .error (.unreadable fault)
  | .ok bytes =>
    match decode bytes with
    | .ok source => .ok source
    | .error fault => .error (.undecodable fault)

/-- Runs the program in a file, given what reading it brought. Without a text nothing is run. -/
def run (contents : Except ReadFault (List UInt8)) : Except FileFault (Computation Value) :=
  Interpreter.standard.runText <$> load contents

end SourceFile

end MiniFun
