import SmartParking.BitGroups
import SmartParking.JsString
import Mathlib.Data.List.TakeWhile

-- The base64url texts of bytes, without padding, and the base64 texts with it.
namespace Base64

def ALPHABET : List Char :=
  "ABCDEFGHIJKLMNOPQRSTUVWXYZabcdefghijklmnopqrstuvwxyz0123456789-_".toList

def symbol (digit : ℕ) : Char := ALPHABET.getD digit 'A'

-- The symbols of plain base64 are read too.
def digit? (c : Char) : Option ℕ :=
  if c = '+' then some 62
  else if c = '/' then some 63
  else if c ∈ ALPHABET then some (ALPHABET.idxOf c) else none

def encode (bytes : List UInt8) : String := String.ofList ((BitGroups.encode 6 bytes).map symbol)

-- What is read of a character is the low byte of its code units.
def lowBytes (c : Char) : List Char :=
  (JsString.codeUnits c).map fun unit => Char.ofNat (unit % 256)

-- The first padding ends the text, and other characters are ignored.
def decode (text : String) : List UInt8 :=
  BitGroups.decode 6 (((text.toList.flatMap lowBytes).takeWhile (· ≠ '=')).filterMap digit?)

-- The plain alphabet, filled up to groups of four symbols.

def STANDARD : List Char :=
  "ABCDEFGHIJKLMNOPQRSTUVWXYZabcdefghijklmnopqrstuvwxyz0123456789+/".toList

def standardSymbol (digit : ℕ) : Char := STANDARD.getD digit 'A'

def encodePadded (bytes : List UInt8) : String :=
  let symbols := (BitGroups.encode 6 bytes).map standardSymbol
  String.ofList (symbols ++ List.replicate ((4 - symbols.length % 4) % 4) '=')

-- Symbols that are read as their digits, and are neither padding nor a dot.
def Readable (sym : ℕ → Char) : Prop :=
  ∀ digit < 64, (sym digit).toNat < 256 ∧ sym digit ≠ '=' ∧ sym digit ≠ '.' ∧
    digit? (sym digit) = some digit

theorem readable_symbol : Readable symbol := by
  unfold Readable
  decide +kernel

theorem lowBytes_eq {c : Char} (h : c.toNat < 256) : lowBytes c = [c] := by
  rw [lowBytes, JsString.codeUnits, if_pos (h.trans (by decide)), List.map_singleton,
    Nat.mod_eq_of_lt h, Char.ofNat_toNat]

theorem flatMap_lowBytes {text : List Char} (h : ∀ c ∈ text, c.toNat < 256) :
    text.flatMap lowBytes = text := by
  induction text with
  | nil => rfl
  | cons c rest ih =>
      obtain ⟨hc, hrest⟩ := List.forall_mem_cons.mp h
      rw [List.flatMap_cons, lowBytes_eq hc, ih hrest]
      rfl

variable {sym : ℕ → Char}

theorem filterMap_symbols (h : Readable sym) {digits : List ℕ} (hlt : ∀ digit ∈ digits, digit < 64) :
    (digits.map sym).filterMap digit? = digits := by
  rw [List.filterMap_map]
  have hread : ∀ digit ∈ digits, (digit? ∘ sym) digit = some digit :=
    fun digit hm => (h digit (hlt digit hm)).2.2.2
  rw [List.filterMap_congr hread, List.filterMap_some]

theorem decode_symbols (h : Readable sym) (bytes : List UInt8) (padding : ℕ) :
    decode (String.ofList ((BitGroups.encode 6 bytes).map sym ++ List.replicate padding '=')) =
      bytes := by
  have hlt : ∀ digit ∈ BitGroups.encode 6 bytes, digit < 64 := fun _ =>
    BitGroups.encode_lt (by decide)
  have hsymbols : ∀ c ∈ (BitGroups.encode 6 bytes).map sym, c.toNat < 256 ∧ c ≠ '=' := by
    intro c hc
    obtain ⟨digit, hdigit, rfl⟩ := List.mem_map.mp hc
    obtain ⟨hlow, hpadding, -⟩ := h digit (hlt digit hdigit)
    exact ⟨hlow, hpadding⟩
  have hlow : ∀ c ∈ (BitGroups.encode 6 bytes).map sym ++ List.replicate padding '=',
      c.toNat < 256 := by
    intro c hc
    rcases List.mem_append.mp hc with hc | hc
    · exact (hsymbols c hc).1
    · rw [List.eq_of_mem_replicate hc]
      decide
  have hends : (List.replicate padding '=').takeWhile (· ≠ '=') = [] := by
    cases padding <;> rfl
  rw [decode, String.toList_ofList, flatMap_lowBytes hlow,
    List.takeWhile_append_of_pos (by simpa using fun c hc => (hsymbols c hc).2), hends,
    List.append_nil, filterMap_symbols h hlt, BitGroups.decode_encode (by decide) (by decide)]

theorem not_mem_symbols (h : Readable sym) (bytes : List UInt8) :
    '.' ∉ (BitGroups.encode 6 bytes).map sym := by
  intro hm
  obtain ⟨digit, hdigit, hsymbol⟩ := List.mem_map.mp hm
  exact (h digit (BitGroups.encode_lt (by decide) hdigit)).2.2.1 hsymbol

theorem decode_encode (bytes : List UInt8) : decode (encode bytes) = bytes := by
  have hdecode := decode_symbols readable_symbol bytes 0
  rwa [List.replicate_zero, List.append_nil] at hdecode

theorem not_mem_encode (bytes : List UInt8) : '.' ∉ (encode bytes).toList := by
  rw [encode, String.toList_ofList]
  exact not_mem_symbols readable_symbol bytes

theorem encode_ne_empty {bytes : List UInt8} (h : bytes ≠ []) : encode bytes ≠ "" := by
  intro hempty
  have hnil := congrArg String.toList hempty
  rw [encode, String.toList_ofList] at hnil
  exact BitGroups.encode_ne_nil h (List.map_eq_nil_iff.mp hnil)

-- What stands behind padding is not read, and U+0146 is read as F.
example : decode "QQ==QQ==" = [65] ∧ decode "QUFB" = decode "QU\u0146B" := by decide +kernel

end Base64
