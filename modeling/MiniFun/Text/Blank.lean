/-! # Blank characters

The characters that separate words: the Unicode white space together with the four information
separators. Lines of input and settings are trimmed of them at both ends.
-/

namespace MiniFun.Text

/-- White space of the Unicode standard, and the information separators `U+001C` to `U+001F`. -/
def isBlank (c : Char) : Bool :=
  let code := c.toNat
  (0x09 ≤ code && code ≤ 0x0D) || (0x1C ≤ code && code ≤ 0x20) || code == 0x85 ||
    code == 0xA0 || code == 0x1680 || (0x2000 ≤ code && code ≤ 0x200A) || code == 0x2028 ||
    code == 0x2029 || code == 0x202F || code == 0x205F || code == 0x3000

/-- The characters from the first one that is not blank to the last one that is not blank. -/
def trimChars (chars : List Char) : List Char :=
  (((chars.dropWhile isBlank).reverse).dropWhile isBlank).reverse

/-- A text without the blanks at its two ends. -/
def trim (text : String) : String :=
  String.ofList (trimChars text.toList)

end MiniFun.Text
