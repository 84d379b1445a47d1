import SmartParking.Auth.Totp
import SmartParking.BitGroups
import Mathlib.Algebra.Order.Floor.Div
import Mathlib.GroupTheory.GroupAction.Ring

namespace SmartParking.Auth.Rfc6238TotpAdapter

-- A text with some letters in lower case, and other characters in between.
inductive Retyped (between : Char → Prop) : List Char → List Char → Prop
  | nil : Retyped between [] []
  | same {text retyped : List Char} (c : Char) (h : Retyped between text retyped) :
      Retyped between (c :: text) (c :: retyped)
  | lower {text retyped : List Char} (c : Char) (h : Retyped between text retyped) :
      Retyped between (c :: text) (c.toLower :: retyped)
  | between {text retyped : List Char} (c : Char) (hc : between c)
      (h : Retyped between text retyped) : Retyped between text (c :: retyped)

-- The ASCII characters that are symbols in neither case.
def Ignored (c : Char) : Prop := c.toNat < 128 ∧ c.toUpper ∉ BASE32_ALPHABET

-- The bits of the symbols that belong to no byte.
def unusedBits (text : String) : List Bool :=
  BitGroups.unused 5 (text.toList.map BASE32_ALPHABET.idxOf)

-- Texts of symbols as the encoding of some bytes can be.
structure WellFormed (text : String) : Prop where
  symbols : ∀ c ∈ text.toList, c ∈ BASE32_ALPHABET
  length : ∃ bytes, (base32Encode bytes).length = text.length
  unused : ∀ bit ∈ unusedBits text, bit = false

-- Between bytes and their texts, whatever stands between the symbols.
structure Faithful (toUpperCase : String → String) (between : Char → Prop) : Prop where
  decodes : ∀ bytes, base32Decode toUpperCase (base32Encode bytes) = bytes
  length : ∀ bytes, (base32Encode bytes).length = 8 * bytes.length ⌈/⌉ 5
  symbols : ∀ bytes, ∀ c ∈ (base32Encode bytes).toList, c ∈ BASE32_ALPHABET
  retyped : ∀ bytes text, Retyped between (base32Encode bytes).toList text.toList →
    base32Decode toUpperCase text = base32Decode toUpperCase (base32Encode bytes)
  encodes : ∀ text, WellFormed text → base32Encode (base32Decode toUpperCase text) = text

end SmartParking.Auth.Rfc6238TotpAdapter
