import Mathlib.Data.List.Basic

-- The bytes of a text, and the text of any bytes.
namespace Utf8

def encode (text : String) : List UInt8 := text.toList.flatMap String.utf8EncodeChar

def isContinuation (byte : UInt8) : Bool := 0x80 ≤ byte && byte ≤ 0xBF

-- A character goes on after these two bytes.
def continues (lead second : UInt8) : Bool :=
  if lead = 0xE0 then 0xA0 ≤ second && second ≤ 0xBF
  else if lead = 0xED then 0x80 ≤ second && second ≤ 0x9F
  else if lead = 0xF0 then 0x90 ≤ second && second ≤ 0xBF
  else if lead = 0xF4 then 0x80 ≤ second && second ≤ 0x8F
  else 0xE1 ≤ lead && lead ≤ 0xF3 && isContinuation second

-- How many bytes begin a character that does not end, at least one.
def subpart : List UInt8 → ℕ
  | lead :: second :: rest =>
      if continues lead second then
        match rest with
        | third :: _ => if 0xF0 ≤ lead && isContinuation third then 3 else 2
        | [] => 2
      else 1
  | _ => 1

def charAt (bytes : List UInt8) : Option Char := (bytes.take 4).toByteArray.utf8DecodeChar? 0

-- `skip` bytes belong to what was read before. Each part that is no character is
-- replaced by one.
def decodeFrom : (skip : ℕ) → List UInt8 → List Char
  | _, [] => []
  | skip + 1, _ :: rest => decodeFrom skip rest
  | 0, byte :: rest =>
      match charAt (byte :: rest) with
      | some c => c :: decodeFrom (c.utf8Size - 1) rest
      | none => '\uFFFD' :: decodeFrom (subpart (byte :: rest) - 1) rest

def decode (bytes : List UInt8) : String := String.ofList (decodeFrom 0 bytes)

theorem decodeFrom_append (read rest : List UInt8) :
    decodeFrom read.length (read ++ rest) = decodeFrom 0 rest := by
  induction read with
  | nil => rfl
  | cons byte read ih => exact ih

theorem charAt_append (c : Char) (rest : List UInt8) :
    charAt (String.utf8EncodeChar c ++ rest) = some c := by
  have hlength : (String.utf8EncodeChar c).length ≤ 4 := by
    rw [String.length_utf8EncodeChar]
    exact c.utf8Size_le_four
  rw [charAt, List.take_append, List.take_of_length_le hlength, List.toByteArray_append]
  exact ByteArray.utf8DecodeChar?_utf8EncodeChar_append

theorem decodeFrom_char (c : Char) (rest : List UInt8) :
    decodeFrom 0 (String.utf8EncodeChar c ++ rest) = c :: decodeFrom 0 rest := by
  have hat := charAt_append c rest
  have hlength := String.length_utf8EncodeChar c
  cases hbytes : String.utf8EncodeChar c with
  | nil => exact absurd hbytes String.utf8EncodeChar_ne_nil
  | cons byte read =>
      rw [hbytes] at hat hlength
      rw [List.cons_append] at hat ⊢
      rw [decodeFrom, hat]
      dsimp only
      rw [← hlength]
      exact congrArg (c :: ·) (decodeFrom_append read rest)

theorem decode_encode (text : String) : decode (encode text) = text := by
  have hchars (chars : List Char) : decodeFrom 0 (chars.flatMap String.utf8EncodeChar) = chars := by
    induction chars with
    | nil => rfl
    | cons c chars ih => rw [List.flatMap_cons, decodeFrom_char, ih]
  rw [decode, encode, hchars, String.ofList_toList]

theorem encode_ne_nil {text : String} (h : text ≠ "") : encode text ≠ [] := by
  intro hnil
  have htext := decode_encode text
  rw [hnil] at htext
  exact h htext.symm

end Utf8
