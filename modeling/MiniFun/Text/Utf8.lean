/-! # Strict UTF-8

Bytes are decoded one at a time. After the first byte of a longer form it is known how many bytes
are missing and in which range the next one has to be; the ranges leave out overlong forms,
surrogates and codes beyond Unicode. Nothing is ever replaced: the first byte that does not fit
ends decoding with a fault.
-/

namespace MiniFun.Text

/-- Why bytes are not UTF-8. -/
inductive Utf8Fault where
  | invalidStart
  | invalidContinuation
  | unexpectedEnd
deriving DecidableEq, Repr, Inhabited

def Utf8Fault.message : Utf8Fault → String
  | invalidStart => "invalid start byte"
  | invalidContinuation => "invalid continuation byte"
  | unexpectedEnd => "unexpected end of data"

/-- A character of which the first bytes were read. -/
structure Utf8Partial where
  /-- The code as far as it was read. -/
  code : Nat
  /-- How many bytes follow after the next one. -/
  missing : Nat
  /-- The least value of the next byte. -/
  low : Nat
  /-- The greatest value of the next byte. -/
  high : Nat
deriving DecidableEq, Repr, Inhabited

/-- What the first byte of a form of two to four bytes tells. -/
def Utf8Partial.ofStart? (byte : Nat) : Option Utf8Partial :=
  if byte < 0xC2 then none
  else if byte < 0xE0 then some ⟨byte - 0xC0, 0, 0x80, 0xBF⟩
  else if byte = 0xE0 then some ⟨0x0, 1, 0xA0, 0xBF⟩
  else if byte = 0xED then some ⟨0xD, 1, 0x80, 0x9F⟩
  else if byte < 0xF0 then some ⟨byte - 0xE0, 1, 0x80, 0xBF⟩
  else if byte = 0xF0 then some ⟨0x0, 2, 0x90, 0xBF⟩
  else if byte < 0xF4 then some ⟨byte - 0xF0, 2, 0x80, 0xBF⟩
  else if byte = 0xF4 then some ⟨0x4, 2, 0x80, 0x8F⟩
  else none

/-- Decodes bytes that may begin in the midst of a character. -/
def utf8DecodeFrom : Option Utf8Partial → List UInt8 → Except Utf8Fault (List Char)
  | none, [] => .ok []
  | some _, [] => .error .unexpectedEnd
  | none, byte :: rest =>
    if byte.toNat < 0x80 then
      (Char.ofNat byte.toNat :: ·) <$> utf8DecodeFrom none rest
    else
      match Utf8Partial.ofStart? byte.toNat with
      | some begun => utf8DecodeFrom (some begun) rest
      | none => .error .invalidStart
  | some begun, byte :: rest =>
    if begun.low ≤ byte.toNat ∧ byte.toNat ≤ begun.high then
      let code := begun.code * 0x40 + (byte.toNat - 0x80)
      match begun.missing with
      | 0 => (Char.ofNat code :: ·) <$> utf8DecodeFrom none rest
      | missing + 1 => utf8DecodeFrom (some ⟨code, missing, 0x80, 0xBF⟩) rest
    else
      .error .invalidContinuation

/-- The text that bytes encode. A byte order mark is a character like any other. -/
def utf8Decode (bytes : List UInt8) : Except Utf8Fault (List Char) :=
  utf8DecodeFrom none bytes

end MiniFun.Text
