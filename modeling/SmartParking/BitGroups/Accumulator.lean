import SmartParking.BitGroups
import Mathlib.Tactic.Ring

-- Bits that loops keep at the low end of a number, the earlier ones above the later ones.
namespace BitGroups

variable {width mask n digit : ℕ} {group first last : List Bool}

def Pending (n : ℕ) (group : List Bool) : Prop := n % 2 ^ group.length = value group

theorem value_append (first last : List Bool) :
    value (first ++ last) = 2 ^ last.length * value first + value last := by
  induction first with
  | nil => rw [List.nil_append, value, Nat.mul_zero, Nat.zero_add]
  | cons bit rest ih =>
      rw [List.cons_append, value, value, ih, List.length_append, pow_add]
      ring

theorem value_replicate_false (count : ℕ) : value (List.replicate count false) = 0 := by
  induction count with
  | zero => rfl
  | succ count ih => rw [List.replicate_succ, value, ih, Bool.toNat_false, Nat.mul_zero]

theorem pending_nil (n : ℕ) : Pending n [] := Nat.mod_one n

-- The bits of a digit are put behind, and those above the mask dropped.
theorem Pending.push (h : Pending n group) (hdigit : digit < 2 ^ width)
    (hmask : group.length + width ≤ mask) :
    Pending ((n <<< width ||| digit) &&& (2 ^ mask - 1)) (group ++ bits width digit) := by
  unfold Pending at *
  have hsplit : 2 ^ width * n + digit = 2 ^ (group.length + width) * (n / 2 ^ group.length) +
      (2 ^ width * value group + digit) := by
    conv_lhs => rw [← Nat.div_add_mod n (2 ^ group.length), h]
    rw [pow_add]
    ring
  have hlt : 2 ^ width * value group + digit < 2 ^ (group.length + width) := by
    calc
      2 ^ width * value group + digit < 2 ^ width * (value group + 1) := by
        rw [Nat.mul_succ]
        omega
      _ ≤ 2 ^ width * 2 ^ group.length := Nat.mul_le_mul_left _ (value_lt group)
      _ = 2 ^ (group.length + width) := by rw [pow_add, mul_comm]
  rw [Nat.and_two_pow_sub_one_eq_mod, List.length_append, length_bits,
    Nat.mod_mod_of_dvd _ (pow_dvd_pow 2 hmask), ← Nat.shiftLeft_add_eq_or_of_lt hdigit,
    Nat.shiftLeft_eq, mul_comm, hsplit, Nat.mul_add_mod, Nat.mod_eq_of_lt hlt, value_append,
    length_bits, value_bits, Nat.mod_eq_of_lt hdigit]

-- The first bits are read, and the last ones stay.

theorem Pending.read (h : Pending n (first ++ last)) :
    (n >>> last.length) &&& (2 ^ first.length - 1) = value first := by
  unfold Pending at h
  rw [List.length_append, value_append] at h
  rw [Nat.and_two_pow_sub_one_eq_mod, Nat.shiftRight_eq_div_pow, ← Nat.mod_mul_right_div_self,
    mul_comm, ← pow_add, h, Nat.mul_add_div (Nat.two_pow_pos _), Nat.div_eq_of_lt (value_lt last),
    Nat.add_zero]

theorem Pending.rest (h : Pending n (first ++ last)) : Pending n last := by
  unfold Pending at *
  rw [List.length_append, value_append] at h
  rw [← Nat.mod_mod_of_dvd n (pow_dvd_pow 2 (Nat.le_add_left last.length first.length)), h,
    Nat.mul_add_mod, Nat.mod_eq_of_lt (value_lt last)]

-- What is left is filled with zeros.
theorem Pending.fill (h : Pending n group) (hlength : group.length ≤ width) :
    (n <<< (width - group.length)) &&& (2 ^ width - 1) =
      value (group ++ List.replicate (width - group.length) false) := by
  have hpow : 2 ^ width = 2 ^ (width - group.length) * 2 ^ group.length := by
    rw [← pow_add, Nat.sub_add_cancel hlength]
  unfold Pending at h
  rw [Nat.and_two_pow_sub_one_eq_mod, Nat.shiftLeft_eq, mul_comm, hpow, Nat.mul_mod_mul_left, h,
    value_append, List.length_replicate, value_replicate_false, Nat.add_zero]

end BitGroups
