import Mathlib.Tactic.SplitIfs
import MiniFun.Text.Utf8

/-! # The forms of UTF-8

A character is written in one to four bytes. `Utf8Form` lists the forms as they are defined, with
the conditions that leave out overlong forms, surrogates and codes beyond Unicode. Both sides are
compared with this table: encoding writes each character in a form and no other way, and decoding
takes one form after the other. Decoding therefore accepts exactly the encodings of texts, and finds
the text.
-/

namespace MiniFun.Text

/-- The bytes are one character with the code. -/
inductive Utf8Form : List UInt8 → Nat → Prop
  | one {a : UInt8} {code : Nat} (lead : a.toNat < 0x80) (value : code = a.toNat) :
      Utf8Form [a] code
  | two {a b : UInt8} {code : Nat} (lead : 0xC2 ≤ a.toNat ∧ a.toNat < 0xE0)
      (second : 0x80 ≤ b.toNat ∧ b.toNat < 0xC0)
      (value : code = (a.toNat - 0xC0) * 0x40 + (b.toNat - 0x80)) : Utf8Form [a, b] code
  | three {a b c : UInt8} {code : Nat} (lead : 0xE0 ≤ a.toNat ∧ a.toNat < 0xF0)
      (second : 0x80 ≤ b.toNat ∧ b.toNat < 0xC0) (third : 0x80 ≤ c.toNat ∧ c.toNat < 0xC0)
      (shortest : a.toNat = 0xE0 → 0xA0 ≤ b.toNat) (scalar : a.toNat = 0xED → b.toNat < 0xA0)
      (value : code = ((a.toNat - 0xE0) * 0x40 + (b.toNat - 0x80)) * 0x40 + (c.toNat - 0x80)) :
      Utf8Form [a, b, c] code
  | four {a b c d : UInt8} {code : Nat} (lead : 0xF0 ≤ a.toNat ∧ a.toNat < 0xF5)
      (second : 0x80 ≤ b.toNat ∧ b.toNat < 0xC0) (third : 0x80 ≤ c.toNat ∧ c.toNat < 0xC0)
      (fourth : 0x80 ≤ d.toNat ∧ d.toNat < 0xC0) (shortest : a.toNat = 0xF0 → 0x90 ≤ b.toNat)
      (scalar : a.toNat = 0xF4 → b.toNat < 0x90)
      (value : code = (((a.toNat - 0xF0) * 0x40 + (b.toNat - 0x80)) * 0x40 + (c.toNat - 0x80)) *
        0x40 + (d.toNat - 0x80)) : Utf8Form [a, b, c, d] code

/-! ## Encoding -/

/-- Every form is the form of a character. -/
theorem Utf8Form.isValidChar {bytes : List UInt8} {code : Nat} (form : Utf8Form bytes code) :
    code.isValidChar := by
  rw [Nat.isValidChar]
  cases form with
  | one | two | three | four => omega

/-- A character is encoded in its form. -/
theorem utf8Form_iff {bytes : List UInt8} {c : Char} :
    Utf8Form bytes c.toNat ↔ String.utf8EncodeChar c = bytes := by
  have value : c.val.toNat = c.toNat := rfl
  rw [String.utf8EncodeChar, value]
  constructor
  · intro form
    generalize c.toNat = code at form ⊢
    cases form with
    | one lead value => rw [if_pos (by omega), value, UInt8.ofNat_toNat]
    | two =>
      rw [if_neg (by omega), if_pos (by omega)]
      simp only [List.cons.injEq, and_true, ← UInt8.toNat_inj, UInt8.toNat_ofNat']
      omega
    | three =>
      rw [if_neg (by omega), if_neg (by omega), if_pos (by omega)]
      simp only [List.cons.injEq, and_true, ← UInt8.toNat_inj, UInt8.toNat_ofNat']
      omega
    | four =>
      rw [if_neg (by omega), if_neg (by omega), if_neg (by omega)]
      simp only [List.cons.injEq, and_true, ← UInt8.toNat_inj, UInt8.toNat_ofNat']
      omega
  · rintro rfl
    have valid : c.toNat.isValidChar := c.valid
    rw [Nat.isValidChar] at valid
    have byte (n : Nat) (small : n < 0x100) : (UInt8.ofNat n).toNat = n :=
      UInt8.toNat_ofNat_of_lt' small
    split
    · have same := byte c.toNat (by omega)
      exact .one (by omega) same.symm
    split
    · apply Utf8Form.two <;> simp (disch := omega) only [byte] <;> omega
    split
    · apply Utf8Form.three <;> simp (disch := omega) only [byte] <;> omega
    · apply Utf8Form.four <;> simp (disch := omega) only [byte] <;> omega

theorem Utf8Form.encode {bytes : List UInt8} {code : Nat} (form : Utf8Form bytes code) :
    String.utf8EncodeChar (Char.ofNat code) = bytes := by
  have value : (Char.ofNat code).toNat = code := by
    rw [Char.ofNat, dif_pos form.isValidChar]
    rfl
  rw [← utf8Form_iff, value]
  exact form

/-! ## Decoding, byte by byte -/

namespace Utf8Partial

variable {byte : Nat}

private theorem ofStart?_two (lead : 0xC2 ≤ byte ∧ byte < 0xE0) :
    ofStart? byte = some ⟨byte - 0xC0, 0, 0x80, 0xBF⟩ := by
  rw [ofStart?, if_neg (by omega), if_pos lead.2]

private theorem ofStart?_three (lead : 0xE0 ≤ byte ∧ byte < 0xF0) :
    ofStart? byte = some ⟨byte - 0xE0, 1, if byte = 0xE0 then 0xA0 else 0x80,
      if byte = 0xED then 0x9F else 0xBF⟩ := by
  rw [ofStart?, if_neg (by omega), if_neg (by omega)]
  by_cases least : byte = 0xE0
  · rw [least]
    rfl
  by_cases special : byte = 0xED
  · rw [special]
    rfl
  · rw [if_neg least, if_neg special, if_pos lead.2, if_neg least, if_neg special]

private theorem ofStart?_four (lead : 0xF0 ≤ byte ∧ byte < 0xF5) :
    ofStart? byte = some ⟨byte - 0xF0, 2, if byte = 0xF0 then 0x90 else 0x80,
      if byte = 0xF4 then 0x8F else 0xBF⟩ := by
  rw [ofStart?, if_neg (by omega), if_neg (by omega), if_neg (by omega), if_neg (by omega),
    if_neg (by omega)]
  by_cases least : byte = 0xF0
  · rw [least]
    rfl
  by_cases greatest : byte = 0xF4
  · rw [greatest]
    rfl
  · rw [if_neg least, if_pos (by omega), if_neg least, if_neg greatest]

/-- With no other byte a longer form begins. -/
private theorem ofStart?_other (other : byte < 0xC2 ∨ 0xF5 ≤ byte) : ofStart? byte = none := by
  obtain small | large := other
  · rw [ofStart?, if_pos small]
  · rw [ofStart?, if_neg (by omega), if_neg (by omega), if_neg (by omega), if_neg (by omega),
      if_neg (by omega), if_neg (by omega), if_neg (by omega), if_neg (by omega)]

end Utf8Partial

open Utf8Partial

section

variable {byte : UInt8} {bytes : List UInt8} {chars : List Char} {code missing low high : Nat}

private theorem utf8DecodeFrom_lead {begun : Utf8Partial}
    (started : ofStart? byte.toNat = some begun) (rest : List UInt8) :
    utf8DecodeFrom none (byte :: rest) = utf8DecodeFrom (some begun) rest := by
  have large : ¬ byte.toNat < 0x80 := by
    intro small
    have other : byte.toNat < 0xC2 ∨ 0xF5 ≤ byte.toNat := by omega
    simp [ofStart?_other other] at started
  rw [utf8DecodeFrom, if_neg large, started]

private theorem utf8DecodeFrom_more (fits : low ≤ byte.toNat ∧ byte.toNat ≤ high)
    (rest : List UInt8) :
    utf8DecodeFrom (some ⟨code, missing + 1, low, high⟩) (byte :: rest) =
      utf8DecodeFrom (some ⟨code * 0x40 + (byte.toNat - 0x80), missing, 0x80, 0xBF⟩) rest := by
  rw [utf8DecodeFrom, if_pos fits]

private theorem utf8DecodeFrom_last (fits : low ≤ byte.toNat ∧ byte.toNat ≤ high)
    (rest : List UInt8) :
    utf8DecodeFrom (some ⟨code, 0, low, high⟩) (byte :: rest) =
      (Char.ofNat (code * 0x40 + (byte.toNat - 0x80)) :: ·) <$> utf8DecodeFrom none rest := by
  rw [utf8DecodeFrom, if_pos fits]

private theorem map_cons_eq_ok {c : Char} {result : Except Utf8Fault (List Char)} :
    (c :: ·) <$> result = .ok chars ↔ ∃ tail, result = .ok tail ∧ c :: tail = chars := by
  cases result with
  | error fault => exact ⟨nofun, nofun⟩
  | ok tail => exact ⟨fun same => ⟨tail, rfl, Except.ok.inj same⟩, by rintro ⟨_, ⟨⟩, rfl⟩; rfl⟩

/-- What a character in the midst still takes is a byte that fits. -/
private theorem fits_of_utf8DecodeFrom
    (decoded : utf8DecodeFrom (some ⟨code, missing, low, high⟩) bytes = .ok chars) :
    ∃ byte rest, bytes = byte :: rest ∧ low ≤ byte.toNat ∧ byte.toNat ≤ high := by
  cases bytes with
  | nil => cases decoded
  | cons byte rest =>
    rw [utf8DecodeFrom] at decoded
    split at decoded
    · next fits => exact ⟨byte, rest, rfl, fits⟩
    · cases decoded

end

/-! ## Decoding, form by form -/

/-- Decoding takes a form as a whole. -/
theorem Utf8Form.decode {bytes : List UInt8} {code : Nat} (form : Utf8Form bytes code)
    (rest : List UInt8) :
    utf8DecodeFrom none (bytes ++ rest) = (Char.ofNat code :: ·) <$> utf8DecodeFrom none rest := by
  cases form with
  | one lead value => rw [List.singleton_append, utf8DecodeFrom, if_pos lead, value]
  | two lead second value =>
    simp only [List.cons_append, List.nil_append]
    rw [utf8DecodeFrom_lead (ofStart?_two lead), utf8DecodeFrom_last (by omega), value]
  | three lead second third shortest scalar value =>
    simp only [List.cons_append, List.nil_append]
    rw [utf8DecodeFrom_lead (ofStart?_three lead),
      utf8DecodeFrom_more (by constructor <;> split <;> omega), utf8DecodeFrom_last (by omega),
      value]
  | four lead second third fourth shortest scalar value =>
    simp only [List.cons_append, List.nil_append]
    rw [utf8DecodeFrom_lead (ofStart?_four lead),
      utf8DecodeFrom_more (by constructor <;> split <;> omega), utf8DecodeFrom_more (by omega),
      utf8DecodeFrom_last (by omega), value]

/-- What is decoded begins with a form. -/
theorem exists_utf8Form {a : UInt8} {bytes : List UInt8} {chars : List Char}
    (decoded : utf8DecodeFrom none (a :: bytes) = .ok chars) :
    ∃ taken rest code tail, Utf8Form taken code ∧ a :: bytes = taken ++ rest ∧
      utf8DecodeFrom none rest = .ok tail ∧ Char.ofNat code :: tail = chars := by
  by_cases small : a.toNat < 0x80
  · rw [utf8DecodeFrom, if_pos small, map_cons_eq_ok] at decoded
    obtain ⟨tail, decoded, rfl⟩ := decoded
    exact ⟨[a], bytes, _, tail, .one small rfl, rfl, decoded, rfl⟩
  by_cases other : a.toNat < 0xC2 ∨ 0xF5 ≤ a.toNat
  · rw [utf8DecodeFrom, if_neg small, ofStart?_other other] at decoded
    cases decoded
  -- The lead tells how many bytes follow, and what is special about the first of them.
  obtain lead | lead | lead : (0xC2 ≤ a.toNat ∧ a.toNat < 0xE0) ∨
      (0xE0 ≤ a.toNat ∧ a.toNat < 0xF0) ∨ (0xF0 ≤ a.toNat ∧ a.toNat < 0xF5) := by omega
  · rw [utf8DecodeFrom_lead (ofStart?_two lead)] at decoded
    obtain ⟨b, bytes, rfl, second⟩ := fits_of_utf8DecodeFrom decoded
    rw [utf8DecodeFrom_last second, map_cons_eq_ok] at decoded
    obtain ⟨tail, decoded, rfl⟩ := decoded
    exact ⟨[a, b], bytes, _, tail, .two lead (by omega) rfl, rfl, decoded, rfl⟩
  · rw [utf8DecodeFrom_lead (ofStart?_three lead)] at decoded
    obtain ⟨b, bytes, rfl, second⟩ := fits_of_utf8DecodeFrom decoded
    rw [utf8DecodeFrom_more second] at decoded
    obtain ⟨c, bytes, rfl, third⟩ := fits_of_utf8DecodeFrom decoded
    rw [utf8DecodeFrom_last third, map_cons_eq_ok] at decoded
    obtain ⟨tail, decoded, rfl⟩ := decoded
    refine ⟨[a, b, c], bytes, _, tail, .three lead ?_ ?_ ?_ ?_ rfl, rfl, decoded, rfl⟩
    all_goals split_ifs at second <;> omega
  · rw [utf8DecodeFrom_lead (ofStart?_four lead)] at decoded
    obtain ⟨b, bytes, rfl, second⟩ := fits_of_utf8DecodeFrom decoded
    rw [utf8DecodeFrom_more second] at decoded
    obtain ⟨c, bytes, rfl, third⟩ := fits_of_utf8DecodeFrom decoded
    rw [utf8DecodeFrom_more third] at decoded
    obtain ⟨d, bytes, rfl, fourth⟩ := fits_of_utf8DecodeFrom decoded
    rw [utf8DecodeFrom_last fourth, map_cons_eq_ok] at decoded
    obtain ⟨tail, decoded, rfl⟩ := decoded
    refine ⟨[a, b, c, d], bytes, _, tail, .four lead ?_ ?_ ?_ ?_ ?_ rfl, rfl, decoded, rfl⟩
    all_goals split_ifs at second <;> omega

/-- Decoding accepts exactly the encodings of texts, and finds the text. -/
theorem utf8Decode_eq_ok_iff {bytes : List UInt8} {chars : List Char} :
    utf8Decode bytes = .ok chars ↔ chars.flatMap String.utf8EncodeChar = bytes := by
  rw [utf8Decode]
  constructor
  · intro decoded
    -- The text is taken apart and not the bytes: each of its characters takes away a form.
    induction chars generalizing bytes with
    | nil =>
      cases bytes with
      | nil => rfl
      | cons a bytes =>
        obtain ⟨_, _, _, _, _, _, _, same⟩ := exists_utf8Form decoded
        cases same
    | cons c chars ih =>
      cases bytes with
      | nil => cases decoded
      | cons a bytes =>
        obtain ⟨taken, rest, code, tail, form, cut, decoded, same⟩ := exists_utf8Form decoded
        cases same
        rw [List.flatMap_cons, form.encode, ih decoded, cut]
  · rintro rfl
    induction chars with
    | nil => rfl
    | cons c chars ih =>
      rw [List.flatMap_cons, (utf8Form_iff.mpr rfl).decode, ih, Char.ofNat_toNat]
      rfl

end MiniFun.Text
