import MiniFun.SourceFile

/-! # A directory to read files from

A directory holds files and directories at paths below it. A path is followed name by name; empty
names and `.` stay where they are, and `..` goes up. Outside of the directory nothing is found, and
overlong names and paths lead nowhere.
-/

namespace MiniFun.Command

/-- What a path in a directory stands for. -/
inductive Entry where
  | file (bytes : List UInt8)
  | directory
deriving DecidableEq, Repr, Inhabited

def pathParts : List Char → List (List Char)
  | [] => [[]]
  | c :: rest =>
    if c = '/' then
      [] :: pathParts rest
    else
      match pathParts rest with
      | [] => [[c]]
      | part :: others => (c :: part) :: others

def pathNames (path : String) : List String :=
  ((pathParts path.toList).map String.ofList).filter fun name => name != "" && name != "."

def nameLimit : Nat := 255

/-- The most bytes that a path may have, superfluous slashes and dots left out. -/
def pathLimit : Nat := 4095

/-- Whether a path begins at the root and not in the directory. -/
def isAbsolute (path : String) : Bool :=
  path.toList.head? = some '/'

/-- The path with superfluous slashes and dots left out. -/
def tidyPath (path : String) : String :=
  String.intercalate "/" (if isAbsolute path then "" :: pathNames path else pathNames path)

/-- Where following a path has led: out of the directory, or along names below it. -/
inductive Place where
  | outside
  | inside (names : List String)
deriving DecidableEq, Repr, Inhabited

def Place.parent : Place → Place
  | outside | inside [] => outside
  | inside names => inside names.dropLast

/-- What stands at the paths below a directory. What a path leads through is a directory as well. -/
structure Directory where
  entries : List (List String × Entry)
deriving DecidableEq, Repr, Inhabited

namespace Directory

def ofPaths (entries : List (String × Entry)) : Directory :=
  ⟨entries.map fun entry => (pathNames entry.1, entry.2)⟩

def entryAt? (directory : Directory) (names : List String) : Option Entry :=
  match directory.entries.lookup names with
  | some entry => some entry
  | none =>
    if names.isEmpty || directory.entries.any fun entry => names.isPrefixOf entry.1 then
      some .directory
    else
      none

/-- What a place is. Outside of the directory there are only directories. -/
def entryOf (directory : Directory) : Place → Entry
  | .outside => .directory
  | .inside names => (directory.entryAt? names).getD .directory

/-- The place that a name leads to from another place. -/
def step (directory : Directory) (place : Place) (name : String) : Except ReadFault Place :=
  match directory.entryOf place with
  | .file _ => .error .notDirectory
  | .directory =>
    if nameLimit < name.utf8ByteSize then
      .error .nameTooLong
    else if name = ".." then
      .ok place.parent
    else
      match place with
      | .outside => .error .missing
      | .inside names =>
        if (directory.entryAt? (names ++ [name])).isSome then
          .ok (.inside (names ++ [name]))
        else
          .error .missing

def read (directory : Directory) (path : String) : Except ReadFault (List UInt8) := do
  if pathLimit < (tidyPath path).utf8ByteSize then
    throw .nameTooLong
  let start := if isAbsolute path then Place.outside else .inside []
  let place ← (pathNames path).foldlM directory.step start
  match directory.entryOf place with
  | .file bytes => return bytes
  | .directory => throw .isDirectory

end Directory

end MiniFun.Command
