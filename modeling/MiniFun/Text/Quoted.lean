import MiniFun.Text.Printable

/-! # Quoted texts

Messages show a text between quotes, on one line, with every character that has no shape of its
own given by its code. The quote is an apostrophe, unless the text holds apostrophes and no double
quote.
-/

namespace MiniFun.Text

/-- The lower-case hexadecimal digits of a number, filled up with zeros to the given width. -/
def hexadecimal (width code : Nat) : List Char :=
  let digits := Nat.toDigits 16 code
  List.replicate (width - digits.length) '0' ++ digits

/-- An apostrophe, or a double quote where that spares the text its escapes. -/
def quoteFor (text : List Char) : Char :=
  if text.contains '\'' && !text.contains '"' then '"' else '\''

/-- One character of a quoted text: itself, or its escape. -/
def escape (quote c : Char) : List Char :=
  if c = quote ∨ c = '\\' then ['\\', c]
  else if c = '\n' then ['\\', 'n']
  else if c = '\r' then ['\\', 'r']
  else if c = '\t' then ['\\', 't']
  else if isPrintable c then [c]
  else if c.toNat < 0x100 then '\\' :: 'x' :: hexadecimal 2 c.toNat
  else if c.toNat < 0x10000 then '\\' :: 'u' :: hexadecimal 4 c.toNat
  else '\\' :: 'U' :: hexadecimal 8 c.toNat

/-- A text as messages show it. -/
def quoted (text : String) : String :=
  let chars := text.toList
  let quote := quoteFor chars
  String.ofList (quote :: chars.flatMap (escape quote) ++ [quote])

end MiniFun.Text
