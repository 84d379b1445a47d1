import Mathlib.Algebra.Group.Nat.Defs
import SmartParking.Json

-- How the language treats a value of JSON where a boolean or a text is expected.
namespace Json

-- A number is zero when it is at most half of the least double above zero.
def isZero (mantissa exponent : ℤ) : Bool :=
  mantissa.natAbs * 10 ^ exponent.toNat * 2 ^ 1075 ≤ 10 ^ (-exponent).toNat

def truthy : Json → Bool
  | null => false
  | bool value => value
  | number mantissa exponent => !isZero mantissa exponent
  | string value => value ≠ ""
  | array _ => true
  | object _ => true

@[simp] theorem truthy_null : truthy null = false := rfl

@[simp] theorem truthy_string (value : String) : truthy (string value) = decide (value ≠ "") := rfl

mutual

-- An object with a toString of its own hides the method, and no value of JSON can be
-- called. An array is the texts of its items.
def hasText : Json → Bool
  | array items => itemsHaveText items
  | object members => members.all (·.1 ≠ "toString")
  | _ => true

def itemsHaveText : List Json → Bool
  | [] => true
  | item :: items => hasText item && itemsHaveText items

end

end Json
