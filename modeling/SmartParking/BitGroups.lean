import Mathlib.Data.Nat.Bitwise
import Mathlib.Data.Nat.ModEq
import Mathlib.Data.List.Basic

-- Bytes as digits of a power of two: their bits in groups of a width, the highest
-- bit first, the last group filled with zeros.
namespace BitGroups

def bits : (width : ℕ) → ℕ → List Bool
  | 0, _ => []
  | width + 1, n => n.testBit width :: bits width n

def value : List Bool → ℕ
  | [] => 0
  | bit :: rest => 2 ^ rest.length * bit.toNat + value rest

-- The complete groups, and what is left over.
def split (width : ℕ) : (pending bits : List Bool) → List (List Bool) × List Bool
  | pending, [] => ([], pending)
  | pending, bit :: rest =>
      if pending.length + 1 = width then
        ((pending ++ [bit]) :: (split width [] rest).1, (split width [] rest).2)
      else split width (pending ++ [bit]) rest

def filled (width : ℕ) (left : List Bool) : List (List Bool) :=
  if left = [] then [] else [left ++ List.replicate (width - left.length) false]

def octets (bytes : List UInt8) : List (List Bool) := bytes.map fun byte => bits 8 byte.toNat

def encode (width : ℕ) (bytes : List UInt8) : List ℕ :=
  let (groups, left) := split width [] (octets bytes).flatten
  (groups ++ filled width left).map value

-- An octet that is not complete is dropped.
def decode (width : ℕ) (digits : List ℕ) : List UInt8 :=
  (split 8 [] (digits.map (bits width)).flatten).1.map fun octet => UInt8.ofNat (value octet)

variable {width : ℕ} {pending group left : List Bool} {groups : List (List Bool)}

@[simp] theorem length_bits (width n : ℕ) : (bits width n).length = width := by
  induction width with
  | zero => rfl
  | succ width ih => rw [bits, List.length_cons, ih]

theorem bits_congr {n m : ℕ} (h : ∀ i < width, n.testBit i = m.testBit i) :
    bits width n = bits width m := by
  induction width with
  | zero => rfl
  | succ width ih =>
      rw [bits, bits, h width (Nat.lt_succ_self width), ih fun i hi => h i (Nat.lt_succ_of_lt hi)]

theorem value_lt (group : List Bool) : value group < 2 ^ group.length := by
  induction group with
  | nil => exact Nat.one_pos
  | cons bit rest ih =>
      have hbit : 2 ^ rest.length * bit.toNat ≤ 2 ^ rest.length * 1 :=
        Nat.mul_le_mul_left _ bit.toNat_le
      rw [value, List.length_cons, pow_succ]
      omega

theorem value_bits (width n : ℕ) : value (bits width n) = n % 2 ^ width := by
  induction width with
  | zero => exact (Nat.mod_one n).symm
  | succ width ih =>
      rw [bits, value, ih, length_bits, Nat.toNat_testBit, Nat.mod_pow_succ, add_comm]

theorem bits_value (group : List Bool) : bits group.length (value group) = group := by
  induction group with
  | nil => rfl
  | cons bit rest ih =>
      have hlow : bits rest.length (2 ^ rest.length * bit.toNat + value rest) = rest := by
        refine (bits_congr fun i hi => ?_).trans ih
        rw [Nat.testBit_two_pow_mul_add _ (value_lt rest), if_pos hi]
      rw [List.length_cons, bits, value, hlow, Nat.testBit_two_pow_mul_add _ (value_lt rest),
        if_neg (lt_irrefl _), Nat.sub_self]
      cases bit <;> rfl

-- Every split gives back the bits, in groups of the width.

theorem split_flatten (width : ℕ) (pending bits : List Bool) :
    (split width pending bits).1.flatten ++ (split width pending bits).2 = pending ++ bits := by
  induction bits generalizing pending with
  | nil => exact (List.append_nil pending).symm
  | cons bit rest ih =>
      rw [split]
      split
      · rw [List.flatten_cons, List.append_assoc, ih, List.nil_append, List.append_assoc]
        rfl
      · rw [ih, List.append_assoc]
        rfl

theorem length_of_mem_split {bits : List Bool} (hm : group ∈ (split width pending bits).1) :
    group.length = width := by
  induction bits generalizing pending with
  | nil => exact absurd hm List.not_mem_nil
  | cons bit rest ih =>
      rw [split] at hm
      split at hm
      next hlength =>
        rcases List.mem_cons.mp hm with rfl | hm
        · rw [List.length_append, List.length_singleton, hlength]
        · exact ih hm
      next => exact ih hm

theorem length_left_lt {bits : List Bool} (h : pending.length < width) :
    (split width pending bits).2.length < width := by
  induction bits generalizing pending with
  | nil => exact h
  | cons bit rest ih =>
      rw [split]
      split
      next => exact ih (Nat.zero_lt_of_lt h)
      next hlength =>
        refine ih ?_
        rw [List.length_append, List.length_singleton]
        omega

-- And it is the only way to group them.

theorem split_short (h : pending.length + left.length < width) :
    split width pending left = ([], pending ++ left) := by
  induction left generalizing pending with
  | nil => rw [split, List.append_nil]
  | cons bit rest ih =>
      rw [List.length_cons] at h
      rw [split, if_neg (by omega), ih (by rw [List.length_append, List.length_singleton]; omega),
        List.append_assoc]
      rfl

theorem split_group {bit : Bool} {rest more : List Bool}
    (h : pending.length + (bit :: rest).length = width) :
    split width pending (bit :: rest ++ more) =
      ((pending ++ bit :: rest) :: (split width [] more).1, (split width [] more).2) := by
  induction rest generalizing pending bit with
  | nil => exact if_pos h
  | cons next rest ih =>
      rw [List.length_cons, List.length_cons] at h
      rw [List.cons_append, split, if_neg (by omega),
        ih (by rw [List.length_append, List.length_singleton, List.length_cons]; omega),
        List.append_assoc]
      rfl

theorem split_next (hwidth : 0 < width) (hgroup : group.length = width) (more : List Bool) :
    split width [] (group ++ more) =
      (group :: (split width [] more).1, (split width [] more).2) := by
  cases group with
  | nil => exact absurd hgroup hwidth.ne
  | cons bit rest => exact split_group (by rwa [List.length_nil, Nat.zero_add])

theorem split_groups (hwidth : 0 < width) (hgroups : ∀ group ∈ groups, group.length = width)
    (hleft : left.length < width) : split width [] (groups.flatten ++ left) = (groups, left) := by
  induction groups with
  | nil => exact split_short (by rwa [List.length_nil, Nat.zero_add])
  | cons group groups ih =>
      have hgroup := hgroups group List.mem_cons_self
      have hrest := ih fun other hm => hgroups other (List.mem_cons_of_mem group hm)
      rw [List.flatten_cons, List.append_assoc, split_next hwidth hgroup, hrest]

-- Bits that come later go on from those that are pending.

theorem split_append (pending bits more : List Bool) : split width pending (bits ++ more) =
    ((split width pending bits).1 ++ (split width (split width pending bits).2 more).1,
      (split width (split width pending bits).2 more).2) := by
  induction bits generalizing pending with
  | nil => rfl
  | cons bit rest ih =>
      rw [List.cons_append, split, split]
      split
      · rw [ih]
        rfl
      · exact ih _

theorem split_pending (h : pending.length < width) (bits : List Bool) :
    split width [] (pending ++ bits) = split width pending bits := by
  rw [split_append, split_short (by rwa [List.length_nil, Nat.zero_add]), List.nil_append,
    List.nil_append]

-- The padding completes the last group, and is less than a group.

theorem filled_flatten (hwidth : 0 < width) (left : List Bool) : ∃ count < width,
    (filled width left).flatten = left ++ List.replicate count false := by
  unfold filled
  split
  next h => exact ⟨0, hwidth, by rw [h]; rfl⟩
  next h =>
    have hlength : 0 < left.length := List.length_pos_iff.mpr h
    exact ⟨width - left.length, by omega, List.append_nil _⟩

theorem length_of_mem_filled (hleft : left.length < width) (hm : group ∈ filled width left) :
    group.length = width := by
  unfold filled at hm
  split at hm
  next => exact absurd hm List.not_mem_nil
  next =>
    obtain rfl := List.mem_singleton.mp hm
    rw [List.length_append, List.length_replicate]
    omega

theorem length_of_mem_groups (hwidth : 0 < width) {bits : List Bool}
    (hm : group ∈ (split width [] bits).1 ++ filled width (split width [] bits).2) :
    group.length = width := by
  rcases List.mem_append.mp hm with hm | hm
  · exact length_of_mem_split hm
  · exact length_of_mem_filled (@length_left_lt width [] _ hwidth) hm

theorem length_of_mem_octets {bytes : List UInt8} (hm : group ∈ octets bytes) :
    group.length = 8 := by
  obtain ⟨byte, -, rfl⟩ := List.mem_map.mp hm
  exact length_bits 8 byte.toNat

theorem encode_lt (hwidth : 0 < width) {bytes : List UInt8} {digit : ℕ}
    (hm : digit ∈ encode width bytes) : digit < 2 ^ width := by
  obtain ⟨group, hgroup, rfl⟩ := List.mem_map.mp hm
  exact length_of_mem_groups hwidth hgroup ▸ value_lt group

theorem encode_ne_nil {bytes : List UInt8} (h : bytes ≠ []) : encode width bytes ≠ [] := by
  intro hnil
  have hgroups := List.append_eq_nil_iff.mp (List.map_eq_nil_iff.mp hnil)
  have hflatten := split_flatten width [] (octets bytes).flatten
  have hleft : (split width [] (octets bytes).flatten).2 = [] := by
    by_contra hne
    exact absurd hgroups.2 (by simp [filled, hne])
  rw [hgroups.1, hleft] at hflatten
  obtain ⟨byte, rest, rfl⟩ := List.exists_cons_of_ne_nil h
  exact absurd hflatten (by simp [octets, bits])

-- What the digits say in bits: the bytes, and the padding.
theorem bits_encode (hwidth : 0 < width) (bytes : List UInt8) : ∃ count < width,
    ((encode width bytes).map (bits width)).flatten =
      (octets bytes).flatten ++ List.replicate count false := by
  obtain ⟨count, hcount, hfilled⟩ :=
    filled_flatten hwidth (split width [] (octets bytes).flatten).2
  refine ⟨count, hcount, ?_⟩
  have hback : ∀ group ∈ (split width [] (octets bytes).flatten).1 ++
      filled width (split width [] (octets bytes).flatten).2,
      (bits width ∘ value) group = id group := fun group hm =>
    length_of_mem_groups hwidth hm ▸ bits_value group
  rw [encode, List.map_map, List.map_congr_left hback, List.map_id, List.flatten_append, hfilled,
    ← List.append_assoc, split_flatten, List.nil_append]

theorem decode_encode (hwidth : 0 < width) (hoctet : width ≤ 8) (bytes : List UInt8) :
    decode width (encode width bytes) = bytes := by
  obtain ⟨count, hcount, hbits⟩ := bits_encode hwidth bytes
  have hpadding : (List.replicate count false).length < 8 := by
    rw [List.length_replicate]
    exact hcount.trans_le hoctet
  rw [decode, hbits, split_groups (by decide) (fun _ => length_of_mem_octets) hpadding, octets,
    List.map_map]
  refine List.map_id'' (fun byte => ?_) bytes
  rw [Function.comp_apply, value_bits, Nat.mod_eq_of_lt byte.toNat_lt, UInt8.ofNat_toNat]

theorem length_flatten_bits (digits : List ℕ) :
    (digits.map (bits width)).flatten.length = width * digits.length := by
  induction digits with
  | nil => rfl
  | cons digit rest ih =>
      rw [List.map_cons, List.flatten_cons, List.length_append, length_bits, ih, List.length_cons,
        Nat.mul_succ, add_comm]

theorem length_flatten_octets (bytes : List UInt8) :
    (octets bytes).flatten.length = 8 * bytes.length := by
  have hoctets : octets bytes = (bytes.map UInt8.toNat).map (bits 8) := by
    rw [List.map_map]
    rfl
  rw [hoctets, length_flatten_bits, List.length_map]

-- As many digits as it takes for the bits.
theorem length_encode (hwidth : 0 < width) (bytes : List UInt8) :
    (encode width bytes).length = (8 * bytes.length + (width - 1)) / width := by
  obtain ⟨count, hcount, hbits⟩ := bits_encode hwidth bytes
  have hlength := congrArg List.length hbits
  rw [length_flatten_bits, List.length_append, length_flatten_octets, List.length_replicate]
    at hlength
  have hsum : 8 * bytes.length + (width - 1) =
      width - 1 - count + width * (encode width bytes).length := by omega
  rw [hsum, Nat.add_mul_div_left _ _ hwidth, Nat.div_eq_of_lt (by omega), Nat.zero_add]

section Canonical

variable {digits : List ℕ}

-- The bits of digits, in octets, and what is left over.
def unused (width : ℕ) (digits : List ℕ) : List Bool :=
  (split 8 [] (digits.map (bits width)).flatten).2

theorem octets_decode (width : ℕ) (digits : List ℕ) :
    (octets (decode width digits)).flatten ++ unused width digits =
      (digits.map (bits width)).flatten := by
  have hback : ∀ octet ∈ (split 8 [] (digits.map (bits width)).flatten).1,
      bits 8 (UInt8.ofNat (value octet)).toNat = octet := by
    intro octet hm
    have hlength : octet.length = 8 := length_of_mem_split hm
    have hlt : value octet < 2 ^ 8 := hlength ▸ value_lt octet
    rw [UInt8.toNat_ofNat', Nat.mod_eq_of_lt hlt]
    exact hlength ▸ bits_value octet
  have hoctets : octets (decode width digits) =
      (split 8 [] (digits.map (bits width)).flatten).1 := by
    rw [octets, decode, List.map_map]
    exact (List.map_congr_left hback).trans (List.map_id _)
  rw [hoctets, unused, split_flatten, List.nil_append]

theorem map_bits_inj {other : List ℕ} (hwidth : 0 < width)
    (hdigits : ∀ digit ∈ digits, digit < 2 ^ width)
    (hother : ∀ digit ∈ other, digit < 2 ^ width)
    (h : (digits.map (bits width)).flatten = (other.map (bits width)).flatten) : digits = other := by
  have hgroups : ∀ digits : List ℕ, ∀ group ∈ digits.map (bits width), group.length = width := by
    intro digits group hm
    obtain ⟨digit, -, rfl⟩ := List.mem_map.mp hm
    exact length_bits width digit
  have hvalues : ∀ digits : List ℕ, (∀ digit ∈ digits, digit < 2 ^ width) →
      (split width [] ((digits.map (bits width)).flatten ++ [])).1.map value = digits := by
    intro digits hlt
    rw [split_groups hwidth (hgroups digits) (by exact hwidth), List.map_map]
    refine (List.map_congr_left fun digit hm => ?_).trans (List.map_id _)
    rw [Function.comp_apply, value_bits, Nat.mod_eq_of_lt (hlt digit hm)]
    rfl
  rw [← hvalues digits hdigits, ← hvalues other hother, h]

-- Digits whose unused bits are zero, and less than a digit, are the digits of their bytes.
theorem encode_decode (hwidth : 0 < width) (hdigits : ∀ digit ∈ digits, digit < 2 ^ width)
    (hzero : ∀ bit ∈ unused width digits, bit = false)
    (hshort : (unused width digits).length < width) : encode width (decode width digits) = digits := by
  obtain ⟨count, hcount, hbits⟩ := bits_encode hwidth (decode width digits)
  have hback := octets_decode width digits
  have hunused : unused width digits = List.replicate (unused width digits).length false :=
    List.eq_replicate_iff.mpr ⟨rfl, hzero⟩
  have hcounts : count = (unused width digits).length := by
    have hlength := congrArg List.length hbits
    have hlength' := congrArg List.length hback
    rw [length_flatten_bits, List.length_append, List.length_replicate] at hlength
    rw [length_flatten_bits, List.length_append] at hlength'
    have hmod : (octets (decode width digits)).flatten.length + count ≡
        (octets (decode width digits)).flatten.length + (unused width digits).length [MOD width] := by
      rw [← hlength, hlength']
      exact ((Nat.modEq_zero_iff_dvd.mpr (Nat.dvd_mul_right _ _)).trans
        (Nat.modEq_zero_iff_dvd.mpr (Nat.dvd_mul_right _ _)).symm)
    exact (Nat.ModEq.add_left_cancel' _ hmod).eq_of_lt_of_lt hcount hshort
  refine map_bits_inj hwidth (fun _ => encode_lt hwidth) hdigits ?_
  rw [hbits, hcounts, ← hunused, hback]

end Canonical

end BitGroups
