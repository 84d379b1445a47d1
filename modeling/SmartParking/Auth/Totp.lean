import SmartParking.Auth.Domain
import SmartParking.JsString

namespace SmartParking.Auth

-- HMAC-SHA1 of node:crypto: twenty bytes.
structure HmacSha1 where
  digest : List UInt8 → List UInt8 → List UInt8
  length_digest : ∀ key message, (digest key message).length = 20

-- `/^\d{6}$/`
@[irreducible] def isSixDigits (code : String) : Bool :=
  code.toList.length = 6 && code.toList.all Char.isDigit

namespace Rfc6238TotpAdapter

def STEP_SECONDS : ℤ := 30
def DIGITS : ℕ := 6
def WINDOW : ℤ := 1
def SECRET_BYTES : ℕ := 20
def BASE32_ALPHABET : List Char := "ABCDEFGHIJKLMNOPQRSTUVWXYZ234567".toList

def symbol (index : ℕ) : Char := BASE32_ALPHABET.getD index 'A'

-- The loops keep the pending bits, and what they have put out.
def base32Flush (value : ℕ) : (bits : ℕ) → List Char → ℕ × List Char
  | bits + 5, output => base32Flush value bits (output ++ [symbol ((value >>> bits) &&& 31)])
  | bits, output => (bits, output)

def base32EncodeLoop : List UInt8 → (bits value : ℕ) → List Char → List Char
  | [], bits, value, output =>
      if 0 < bits then output ++ [symbol ((value <<< (5 - bits)) &&& 31)] else output
  | byte :: rest, bits, value, output =>
      let value := ((value <<< 8) ||| byte.toNat) &&& 0xffff
      let (bits, output) := base32Flush value (bits + 8) output
      base32EncodeLoop rest bits value output

def base32Encode (bytes : List UInt8) : String := String.ofList (base32EncodeLoop bytes 0 0 [])

def base32DecodeLoop : List Char → (bits value : ℕ) → List UInt8 → List UInt8
  | [], _, _, out => out
  | char :: rest, bits, value, out =>
      let value := ((value <<< 5) ||| BASE32_ALPHABET.idxOf char) &&& 0xffff
      let bits := bits + 5
      if 8 ≤ bits then
        base32DecodeLoop rest (bits - 8) value
          (out ++ [UInt8.ofNat ((value >>> (bits - 8)) &&& 0xff)])
      else base32DecodeLoop rest bits value out

-- `.replace(/=+$/, '')`
def dropPadding (text : List Char) : List Char := (text.reverse.dropWhile (· = '=')).reverse

def base32Decode (toUpperCase : String → String) (input : String) : List UInt8 :=
  let clean := (dropPadding (toUpperCase input).toList).filter fun c =>
    ('A' ≤ c && c ≤ 'Z') || ('2' ≤ c && c ≤ '7')
  base32DecodeLoop clean 0 0 []

-- An unsigned integer of eight bytes, the highest first.
def bigUInt64BE (counter : ℕ) : List UInt8 :=
  (List.range 8).map fun i => UInt8.ofNat (counter >>> (8 * (7 - i)))

-- The operands of the shifts are signed integers of 32 bits.
def int32 (byte mask : UInt8) : BitVec 32 := (byte &&& mask).toBitVec.setWidth 32

def hotp (createHmac : HmacSha1) (key : List UInt8) (counter : ℕ) : String :=
  let digest := createHmac.digest key (bigUInt64BE counter)
  let byte (i : ℕ) : UInt8 := digest.getD i 0
  let offset := (byte (digest.length - 1) &&& 0x0f).toNat
  let binary := (int32 (byte offset) 0x7f <<< 24) ||| (int32 (byte (offset + 1)) 0xff <<< 16) |||
    (int32 (byte (offset + 2)) 0xff <<< 8) ||| int32 (byte (offset + 3)) 0xff
  JsString.padStart DIGITS '0' (Int.repr (binary.toInt.tmod (10 ^ DIGITS)))

-- The steps from `step` on, `left` of them. A step before the epoch is refused by
-- the write of the counter, and codes of different lengths by timingSafeEqual.
def search (createHmac : HmacSha1) (key : List UInt8) (given : String) :
    (left : ℕ) → (step : ℤ) → Except Fault (Option ℤ)
  | 0, _ => .ok none
  | left + 1, step =>
      if step < 0 then .error (.infrastructure "The value of \"value\" is out of range.")
      else
        let expected := hotp createHmac key step.toNat
        if expected.length ≠ given.length then
          .error (.infrastructure "Input buffers must have the same byte length")
        else if expected = given then .ok (some step)
        else search createHmac key given left (step + 1)

def verify (createHmac : HmacSha1) (toUpperCase : String → String) (now : ℤ)
    (secret code : String) : Except Fault (Option ℤ) :=
  if isSixDigits code then
    let currentStep := now / 1000 / STEP_SECONDS
    search createHmac (base32Decode toUpperCase secret) code (2 * WINDOW + 1).toNat
      (currentStep - WINDOW)
  else .ok none

def generateSecret (randomBytes : Vector UInt8 SECRET_BYTES) : String :=
  base32Encode randomBytes.toList

def buildOtpAuthUri (secret accountName issuer : String) : String :=
  let label := JsString.encodeURIComponent (issuer ++ ":" ++ accountName)
  let query := JsString.encodeQuery [("secret", secret), ("issuer", issuer),
    ("algorithm", "SHA1"), ("digits", Nat.repr DIGITS), ("period", Int.repr STEP_SECONDS)]
  "otpauth://totp/" ++ label ++ "?" ++ query

end Rfc6238TotpAdapter

end SmartParking.Auth
