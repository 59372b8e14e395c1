/-! # Lines

Files end their lines with a line feed, a carriage return, or both in this order; read as text,
all of them are line feeds. Input that is read line by line is cut at line feeds only.
-/

namespace MiniFun.Text

/-- A text in which every line ends with a line feed. -/
def unifyNewlines : List Char → List Char
  | [] => []
  | '\r' :: '\n' :: rest => '\n' :: unifyNewlines rest
  | '\r' :: rest => '\n' :: unifyNewlines rest
  | c :: rest => c :: unifyNewlines rest

/-- The lines of a text without their line feeds. The last line counts unless it is empty. -/
def lines : List Char → List (List Char)
  | [] => []
  | c :: rest =>
    if c = '\n' then
      [] :: lines rest
    else
      match lines rest with
      | [] => [[c]]
      | line :: others => (c :: line) :: others

end MiniFun.Text
