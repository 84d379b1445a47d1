import Mathlib.Algebra.Group.InjSurj
import Mathlib.Data.Rat.Floor
import Mathlib.Tactic.Ring
import Mathlib.Tactic.FieldSimp

-- A decimal number with a fixed number of digits after the point, counted in
-- units of the last digit.
@[ext] structure Decimal (digits : ℕ) where
  units : ℤ
  deriving DecidableEq

namespace Decimal

variable {digits : ℕ}

def value (a : Decimal digits) : ℚ := a.units / 10 ^ digits

instance : Add (Decimal digits) := ⟨fun a b => ⟨a.units + b.units⟩⟩
instance : Sub (Decimal digits) := ⟨fun a b => ⟨a.units - b.units⟩⟩
instance : Zero (Decimal digits) := ⟨⟨0⟩⟩
instance : Neg (Decimal digits) := ⟨fun a => ⟨-a.units⟩⟩
instance : SMul ℕ (Decimal digits) := ⟨fun n a => ⟨n * a.units⟩⟩
instance : SMul ℤ (Decimal digits) := ⟨fun n a => ⟨n * a.units⟩⟩
instance : LE (Decimal digits) := ⟨fun a b => a.units ≤ b.units⟩
instance (a b : Decimal digits) : Decidable (a ≤ b) := inferInstanceAs (Decidable (_ ≤ _))

@[simp] theorem units_add (a b : Decimal digits) : (a + b).units = a.units + b.units := rfl
@[simp] theorem units_sub (a b : Decimal digits) : (a - b).units = a.units - b.units := rfl
@[simp] theorem units_zero : (0 : Decimal digits).units = 0 := rfl

instance : AddCommGroup (Decimal digits) :=
  Function.Injective.addCommGroup units (fun _ _ => Decimal.ext) rfl (fun _ _ => rfl) (fun _ => rfl)
    (fun _ _ => rfl) (fun a n => (nsmul_eq_mul n a.units).symm)
    fun a n => (zsmul_eq_mul a.units n).symm

theorem le_def (a b : Decimal digits) : a ≤ b ↔ a.units ≤ b.units := Iff.rfl

theorem value_sub (a b : Decimal digits) : (a - b).value = a.value - b.value := by
  simp only [value, units_sub, Int.cast_sub, sub_div]

theorem value_le_div (a : Decimal digits) (n : ℤ) :
    a.value ≤ n / 10 ^ digits ↔ a.units ≤ n := by
  rw [value, div_le_div_iff_of_pos_right (by positivity), Int.cast_le]

theorem value_le_value (a b : Decimal digits) : a.value ≤ b.value ↔ a ≤ b :=
  value_le_div a b.units

-- Rounding to the nearest integer, ties away from zero.
def roundHalfAway (x : ℚ) : ℤ := if x < 0 then -⌊-x + 1 / 2⌋ else ⌊x + 1 / 2⌋

theorem roundHalfAway_intCast (n : ℤ) : roundHalfAway n = n := by
  have hf (m : ℤ) : ⌊(m : ℚ) + 1 / 2⌋ = m := by
    rw [Int.floor_intCast_add]
    norm_num
  unfold roundHalfAway
  split
  · rw [← Int.cast_neg, hf, neg_neg]
  · exact hf n

-- The nearest decimal, as the text of a number with fixed digits shows it.
def toFixed (digits : ℕ) (x : ℚ) : Decimal digits := ⟨roundHalfAway (x * 10 ^ digits)⟩

theorem toFixed_div (n : ℤ) : toFixed digits (n / 10 ^ digits) = ⟨n⟩ := by
  rw [toFixed, div_mul_cancel₀ _ (by positivity), roundHalfAway_intCast]

-- A number that already has the digits is not changed.
@[simp] theorem toFixed_value (a : Decimal digits) : toFixed digits a.value = a :=
  toFixed_div a.units

@[simp] theorem toFixed_sub (a b : Decimal digits) :
    toFixed digits (a.value - b.value) = a - b := by
  rw [← value_sub, toFixed_value]

theorem toFixed_intCast_mul (n : ℤ) (a : Decimal digits) :
    toFixed digits (n * a.value) = ⟨n * a.units⟩ := by
  rw [value, ← mul_div_assoc, ← Int.cast_mul, toFixed_div]

end Decimal
