import SmartParking.Auth.Operations
import SmartParking.Base64
import SmartParking.Utf8

namespace SmartParking.Auth

-- AES-256-GCM of node:crypto. The bytes and the tag of 16 bytes follow from the key,
-- the IV and the plain bytes, and a tag may be presented shortened.
structure AesGcm where
  encipher : (key iv plain : List UInt8) → List UInt8 × List UInt8
  decipher : (key iv encrypted tag : List UInt8) → Option (List UInt8)
  length_tag : ∀ key iv plain, (encipher key iv plain).2.length = 16
  decipher_eq_some : ∀ key iv encrypted tag plain, decipher key iv encrypted tag = some plain ↔
    iv ≠ [] ∧ tag.length ∈ [4, 8, 12, 13, 14, 15, 16] ∧
      (encipher key iv plain).1 = encrypted ∧ tag <+: (encipher key iv plain).2

namespace AesGcmSecretCipherAdapter

def IV_BYTES : ℕ := 12

def encrypt (gcm : AesGcm) (key : List UInt8) (iv : Vector UInt8 IV_BYTES) (plainText : String) :
    String :=
  let (encrypted, authTag) := gcm.encipher key iv.toList (Utf8.encode plainText)
  JsString.join '.' ([iv.toList, encrypted, authTag].map Base64.encodePadded)

-- What stands behind the third part is not read.
def decrypt (gcm : AesGcm) (key : List UInt8) (cipherText : String) : Except Fault String :=
  match (JsString.split '.' cipherText).map Base64.decode with
  | iv :: encrypted :: tag :: _ =>
      match gcm.decipher key iv encrypted tag with
      | some plain => .ok (Utf8.decode plain)
      | none => .error (.infrastructure "Unsupported state or unable to authenticate data")
  | _ => .error (.infrastructure "The \"tag\" argument must be a buffer.")

end AesGcmSecretCipherAdapter

section Sealing

variable (env : Environment) (gcm : AesGcm) (key : List UInt8)
  (ivOf : String → Vector UInt8 AesGcmSecretCipherAdapter.IV_BYTES)

end Sealing

-- A cipher that is easy to follow, whose tag is the key.
namespace Demo

def gcm : AesGcm where
  encipher key _ plain := (plain, (key ++ List.replicate 16 0).take 16)
  decipher key iv encrypted tag :=
    if iv ≠ [] ∧ tag.length ∈ [4, 8, 12, 13, 14, 15, 16] ∧
        tag <+: (key ++ List.replicate 16 0).take 16 then some encrypted else none
  length_tag key _ _ := by simp
  decipher_eq_some key iv encrypted tag plain := by
    rw [Option.ite_none_right_eq_some, Option.some.injEq]
    constructor
    · rintro ⟨⟨hiv, hlength, htag⟩, rfl⟩
      exact ⟨hiv, hlength, rfl, htag⟩
    · rintro ⟨hiv, hlength, rfl, htag⟩
      exact ⟨⟨hiv, hlength, htag⟩, rfl⟩

end Demo

end SmartParking.Auth
