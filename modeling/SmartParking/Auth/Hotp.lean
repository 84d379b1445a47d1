import SmartParking.Auth.Totp
import SmartParking.Utf8
import Mathlib.Data.Nat.Digits.Defs

namespace SmartParking.Auth.Rfc6238TotpAdapter

-- The number that bytes are, the highest first.
def bigEndian (bytes : List UInt8) : ℕ := Nat.ofDigits 256 (bytes.reverse.map UInt8.toNat)

-- The last nibble of a digest.
def lastNibble (digest : List UInt8) : ℕ := (digest.getLastD 0).toNat % 16

-- The word of 32 bits at the place that it gives.
def wordOf (digest : List UInt8) : ℕ := bigEndian ((digest.drop (lastNibble digest)).take 4)

-- The four numbers that hotp puts together, from four bytes.
def parts (first second third fourth : UInt8) : List (BitVec 32) :=
  [int32 first 0x7f <<< 24, int32 second 0xff <<< 16, int32 third 0xff <<< 8, int32 fourth 0xff]

-- The code of a digest, where a byte that is read outside of it gives none.
def codeOf? (digest : List UInt8) : Option String := do
  let last ← digest[digest.length - 1]?
  let offset := (last &&& 0x0f).toNat
  let first ← digest[offset]?
  let second ← digest[offset + 1]?
  let third ← digest[offset + 2]?
  let fourth ← digest[offset + 3]?
  let binary := (parts first second third fourth).foldl (· ||| ·) 0
  return JsString.padStart DIGITS '0' (Int.repr (binary.toInt.tmod (10 ^ DIGITS)))

-- What is right about the code of a counter.
structure Truncates (createHmac : HmacSha1) (key : List UInt8) (counter : ℕ) : Prop where
  message : bigEndian (bigUInt64BE counter) = counter ∧ (bigUInt64BE counter).length = 8
  inside : codeOf? (createHmac.digest key (bigUInt64BE counter)) =
    some (hotp createHmac key counter)
  code : hotp createHmac key counter = JsString.padStart 6 '0'
    (Nat.repr (wordOf (createHmac.digest key (bigUInt64BE counter)) % 2 ^ 31 % 10 ^ 6))
  sixDigits : isSixDigits (hotp createHmac key counter) = true

def stepAt (now : ℤ) : ℤ := now / 1000 / STEP_SECONDS

-- The previous step, the current one and the next.
def window (now : ℤ) : List ℤ := [stepAt now - 1, stepAt now, stepAt now + 1]

def codeAt (createHmac : HmacSha1) (toUpperCase : String → String) (secret : String) (step : ℤ) :
    String :=
  hotp createHmac (base32Decode toUpperCase secret) step.toNat

-- The smallest of some numbers that passes a test, or none when none does.
def IsSmallest (test : ℤ → Prop) (numbers : List ℤ) : Option ℤ → Prop
  | some n => n ∈ numbers ∧ test n ∧ ∀ m ∈ numbers, test m → n ≤ m
  | none => ∀ n ∈ numbers, ¬test n

-- What is right about the search for a code.
structure Searches (createHmac : HmacSha1) (toUpperCase : String → String) (now : ℤ)
    (secret code : String) : Prop where
  sameLength : ∀ step ∈ window now,
    (Utf8.encode (codeAt createHmac toUpperCase secret step)).length = (Utf8.encode code).length
  smallest : ∃ result, verify createHmac toUpperCase now secret code = .ok result ∧
    IsSmallest (fun step => codeAt createHmac toUpperCase secret step = code) (window now) result

structure ExactHotp (createHmac : HmacSha1) (toUpperCase : String → String) : Prop where
  nonnegative : ∀ first second third fourth, ∀ part ∈ parts first second third fourth,
    0 ≤ part.toInt
  truncates : ∀ key counter, counter < 2 ^ 53 → Truncates createHmac key counter
  searches : ∀ now secret code, STEP_SECONDS * 1000 ≤ now → isSixDigits code = true →
    Searches createHmac toUpperCase now secret code

end SmartParking.Auth.Rfc6238TotpAdapter
