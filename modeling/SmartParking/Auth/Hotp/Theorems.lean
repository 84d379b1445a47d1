import SmartParking.Auth.Hotp
import Mathlib.Data.List.GetD

namespace SmartParking.Auth.Rfc6238TotpAdapter

section Message

theorem length_bigUInt64BE (counter : ℕ) : (bigUInt64BE counter).length = 8 := by
  rw [bigUInt64BE, List.length_map, List.length_range]

theorem bigEndian_bigUInt64BE {counter : ℕ} (h : counter < 2 ^ 64) :
    bigEndian (bigUInt64BE counter) = counter := by
  simp only [bigEndian, bigUInt64BE, List.range_succ, List.range_zero, List.nil_append,
    List.map_cons, List.map_nil, List.reverse_cons, List.reverse_nil, List.cons_append, Nat.ofDigits_cons, Nat.ofDigits_nil, UInt8.toNat_ofNat',
    Nat.shiftRight_eq_div_pow]
  omega

theorem bigEndian_four (a b c d : UInt8) :
    bigEndian [a, b, c, d] = ((256 * a.toNat + b.toNat) * 256 + c.toNat) * 256 + d.toNat := by
  simp only [bigEndian, List.reverse_cons, List.reverse_nil, List.nil_append, List.cons_append,
    List.map_cons, List.map_nil, Nat.ofDigits_cons, Nat.ofDigits_nil]
  push_cast
  omega

end Message

-- The numbers of 32 bits that are put together.
section Parts

theorem toNat_int32 (byte mask : UInt8) : (int32 byte mask).toNat = byte.toNat &&& mask.toNat := by
  rw [int32, BitVec.toNat_setWidth, UInt8.toNat_toBitVec, UInt8.toNat_and]
  exact Nat.mod_eq_of_lt ((Nat.and_le_left).trans_lt (byte.toNat_lt.trans (by decide)))

theorem toNat_int32_low (byte : UInt8) : (int32 byte 0x7f).toNat = byte.toNat % 128 := by
  rw [toNat_int32]
  exact Nat.and_two_pow_sub_one_eq_mod byte.toNat 7

theorem toNat_int32_full (byte : UInt8) : (int32 byte 0xff).toNat = byte.toNat := by
  rw [toNat_int32]
  exact (Nat.and_two_pow_sub_one_eq_mod byte.toNat 8).trans (Nat.mod_eq_of_lt byte.toNat_lt)

theorem toNat_shifted {part : BitVec 32} {places : ℕ} (h : 2 ^ places * part.toNat < 2 ^ 31) :
    (part <<< places).toNat = 2 ^ places * part.toNat := by
  rw [BitVec.toNat_shiftLeft, Nat.shiftLeft_eq, mul_comm, Nat.mod_eq_of_lt (h.trans (by decide))]

theorem toInt_of_lt {part : BitVec 32} (h : part.toNat < 2 ^ 31) : part.toInt = part.toNat :=
  BitVec.toInt_eq_toNat_of_lt (by omega)

-- None of the shifts comes to the sign.
theorem toNat_parts (first second third fourth : UInt8) :
    (parts first second third fourth).map BitVec.toNat =
      [2 ^ 24 * (first.toNat % 128), 2 ^ 16 * second.toNat, 2 ^ 8 * third.toNat,
        fourth.toNat] := by
  have hfirst := toNat_int32_low first
  have hsecond := toNat_int32_full second
  have hthird := toNat_int32_full third
  have := second.toNat_lt
  have := third.toNat_lt
  simp only [parts, List.map_cons, List.map_nil, toNat_int32_full]
  rw [toNat_shifted (by omega), toNat_shifted (by omega), toNat_shifted (by omega), hfirst, hsecond,
    hthird]

theorem part_nonneg {first second third fourth : UInt8} {part : BitVec 32}
    (h : part ∈ parts first second third fourth) : 0 ≤ part.toInt := by
  have hm := List.mem_map_of_mem (f := BitVec.toNat) h
  have := second.toNat_lt
  have := third.toNat_lt
  have := fourth.toNat_lt
  rw [toNat_parts] at hm
  simp only [List.mem_cons, List.not_mem_nil, or_false] at hm
  rw [toInt_of_lt (by omega)]
  exact Int.natCast_nonneg _

-- They have no bits in common, so that putting them together adds them.
theorem toNat_binary (first second third fourth : UInt8) :
    ((parts first second third fourth).foldl (· ||| ·) 0).toNat =
      2 ^ 24 * (first.toNat % 128) + 2 ^ 16 * second.toNat + 2 ^ 8 * third.toNat +
        fourth.toNat := by
  have hsecond := second.toNat_lt
  have hthird := third.toNat_lt
  have hparts := toNat_parts first second third fourth
  simp only [parts, List.map_cons, List.map_nil, List.cons.injEq, and_true] at hparts
  obtain ⟨h₁, h₂, h₃, h₄⟩ := hparts
  have hlow : 2 ^ 16 * second.toNat < 2 ^ 24 := by omega
  have hmiddle : 2 ^ 8 * third.toNat < 2 ^ 16 := by omega
  have hor₁ := Nat.two_pow_add_eq_or_of_lt hlow (first.toNat % 128)
  have hor₂ := Nat.two_pow_add_eq_or_of_lt hmiddle (2 ^ 8 * (first.toNat % 128) + second.toNat)
  have hor₃ := Nat.two_pow_add_eq_or_of_lt fourth.toNat_lt
    (2 ^ 16 * (first.toNat % 128) + 2 ^ 8 * second.toNat + third.toNat)
  have hfactor₂ : 2 ^ 24 * (first.toNat % 128) + 2 ^ 16 * second.toNat =
      2 ^ 16 * (2 ^ 8 * (first.toNat % 128) + second.toNat) := by omega
  have hfactor₃ : 2 ^ 16 * (2 ^ 8 * (first.toNat % 128) + second.toNat) + 2 ^ 8 * third.toNat =
      2 ^ 8 * (2 ^ 16 * (first.toNat % 128) + 2 ^ 8 * second.toNat + third.toNat) := by omega
  simp only [parts, List.foldl_cons, List.foldl_nil, BitVec.ofNat_eq_ofNat, BitVec.zero_or,
    BitVec.toNat_or]
  rw [h₁, h₂, h₃, h₄, ← hor₁, hfactor₂, ← hor₂, hfactor₃, ← hor₃]

theorem toInt_binary (first second third fourth : UInt8) :
    ((parts first second third fourth).foldl (· ||| ·) 0).toInt =
      ((bigEndian [first, second, third, fourth] % 2 ^ 31 : ℕ) : ℤ) := by
  have hnat := toNat_binary first second third fourth
  have := second.toNat_lt
  have := third.toNat_lt
  have := fourth.toNat_lt
  rw [toInt_of_lt (by omega), hnat, bigEndian_four]
  congr 1
  omega

end Parts

-- The reads of the digest.
section Digest

variable {digest : List UInt8}

theorem lastNibble_lt (digest : List UInt8) : lastNibble digest < 16 := Nat.mod_lt _ (by decide)

theorem toNat_last (digest : List UInt8) :
    (digest.getD (digest.length - 1) 0 &&& 0x0f).toNat = lastNibble digest := by
  rw [UInt8.toNat_and, lastNibble, List.getLastD_eq_getLast?, List.getLast?_eq_getElem?,
    List.getD_eq_getElem?_getD]
  exact Nat.and_two_pow_sub_one_eq_mod _ 4

theorem take_drop_four {place : ℕ} (h : place + 3 < digest.length) :
    (digest.drop place).take 4 =
      [digest[place], digest[place + 1], digest[place + 2], digest[place + 3]] := by
  rw [List.drop_eq_getElem_cons (by omega), List.take_succ_cons, List.drop_eq_getElem_cons (by omega),
    List.take_succ_cons, List.drop_eq_getElem_cons (by omega), List.take_succ_cons,
    List.drop_eq_getElem_cons (by omega), List.take_succ_cons, List.take_zero]

theorem repr_tmod (n : ℕ) : Int.repr ((n : ℤ).tmod (10 ^ DIGITS)) = Nat.repr (n % 10 ^ 6) := by
  have hpow : (10 : ℤ) ^ DIGITS = (10 ^ 6 : ℕ) := by decide
  rw [hpow, ← Int.ofNat_tmod]
  rfl

-- The code of twenty bytes, with all reads inside.
theorem codeOf?_eq (h : digest.length = 20) : codeOf? digest =
    some (JsString.padStart 6 '0' (Nat.repr (wordOf digest % 2 ^ 31 % 10 ^ 6))) := by
  have hnibble := lastNibble_lt digest
  have hinside : lastNibble digest + 3 < digest.length := by omega
  have hlast := toNat_last digest
  rw [List.getD_eq_getElem _ _ (by omega)] at hlast
  unfold codeOf?
  rw [List.getElem?_eq_getElem (by omega)]
  simp only [Option.bind_eq_bind, Option.bind_some, hlast]
  rw [List.getElem?_eq_getElem (by omega), List.getElem?_eq_getElem (by omega),
    List.getElem?_eq_getElem (by omega), List.getElem?_eq_getElem hinside]
  simp only [Option.bind_some, toInt_binary, ← take_drop_four hinside, repr_tmod]
  rfl

end Digest

variable {createHmac : HmacSha1} {key : List UInt8} {counter : ℕ}

theorem getElem?_eq_getD {digest : List UInt8} {place : ℕ} (h : place < digest.length) :
    digest[place]? = some (digest.getD place 0) := by
  rw [List.getElem?_eq_getElem h, List.getD_eq_getElem _ _ h]

theorem codeOf?_digest (createHmac : HmacSha1) (key : List UInt8) (counter : ℕ) :
    codeOf? (createHmac.digest key (bigUInt64BE counter)) = some (hotp createHmac key counter) := by
  have hlength := createHmac.length_digest key (bigUInt64BE counter)
  unfold hotp
  generalize createHmac.digest key (bigUInt64BE counter) = digest at hlength
  have hnibble := lastNibble_lt digest
  have hlast := toNat_last digest
  unfold codeOf?
  rw [getElem?_eq_getD (by omega)]
  simp only [Option.bind_eq_bind, Option.bind_some, hlast]
  rw [getElem?_eq_getD (by omega), getElem?_eq_getD (by omega), getElem?_eq_getD (by omega),
    getElem?_eq_getD (by omega)]
  simp only [Option.bind_some, parts, List.foldl_cons, List.foldl_nil, BitVec.ofNat_eq_ofNat,
    BitVec.zero_or]
  rfl

theorem hotp_eq (createHmac : HmacSha1) (key : List UInt8) (counter : ℕ) :
    hotp createHmac key counter = JsString.padStart 6 '0'
      (Nat.repr (wordOf (createHmac.digest key (bigUInt64BE counter)) % 2 ^ 31 % 10 ^ 6)) := by
  have hcode := codeOf?_eq (createHmac.length_digest key (bigUInt64BE counter))
  rw [codeOf?_digest] at hcode
  exact Option.some.inj hcode

-- A number of six digits at most, filled with zeros.
theorem isSixDigits_padStart {n : ℕ} (h : n < 10 ^ 6) :
    isSixDigits (JsString.padStart 6 '0' (Nat.repr n)) = true := by
  have hlength : (Nat.repr n).toList.length ≤ 6 := by
    rw [Nat.toList_repr]
    exact (Nat.length_toDigits_le_iff (by decide) (by decide)).mpr h
  have hdigits : ∀ c ∈ (Nat.repr n).toList, c.isDigit = true := by
    intro c hc
    rw [Nat.toList_repr] at hc
    exact Nat.isDigit_of_mem_toDigits (by decide) (by decide) hc
  unfold isSixDigits JsString.padStart
  rw [String.toList_ofList, Bool.and_eq_true]
  refine ⟨decide_eq_true ?_, List.all_eq_true.mpr fun c hc => ?_⟩
  · rw [List.length_leftpad, Nat.max_eq_left hlength]
  · rcases List.mem_append.mp hc with hc | hc
    · rw [(List.mem_replicate.mp hc).2]
      rfl
    · exact hdigits c hc

theorem isSixDigits_hotp (createHmac : HmacSha1) (key : List UInt8) (counter : ℕ) :
    isSixDigits (hotp createHmac key counter) = true := by
  rw [hotp_eq]
  exact isSixDigits_padStart (Nat.mod_lt _ (by decide))

theorem truncates (createHmac : HmacSha1) (key : List UInt8) {counter : ℕ}
    (h : counter < 2 ^ 53) : Truncates createHmac key counter where
  message := ⟨bigEndian_bigUInt64BE (h.trans (by decide)), length_bigUInt64BE counter⟩
  inside := codeOf?_digest createHmac key counter
  code := hotp_eq createHmac key counter
  sixDigits := isSixDigits_hotp createHmac key counter

-- The search among the steps of the window.
section Search

variable {code : String}

theorem length_of_isSixDigits (h : isSixDigits code = true) : code.toList.length = 6 := by
  unfold isSixDigits at h
  exact of_decide_eq_true (Bool.and_eq_true_iff.mp h).1

theorem isDigit_of_isSixDigits (h : isSixDigits code = true) : ∀ c ∈ code.toList, c.isDigit = true := by
  unfold isSixDigits at h
  exact List.all_eq_true.mp (Bool.and_eq_true_iff.mp h).2

theorem length_utf8EncodeChar_of_isDigit {c : Char} (h : c.isDigit = true) :
    (String.utf8EncodeChar c).length = 1 := by
  have hle : c.val ≤ 57 := by
    unfold Char.isDigit at h
    exact of_decide_eq_true (Bool.and_eq_true_iff.mp h).2
  rw [String.length_utf8EncodeChar, Char.utf8Size_eq_one_iff]
  exact UInt32.le_trans hle (by decide)

-- Six digits are six bytes.
theorem length_encode_of_isSixDigits (h : isSixDigits code = true) :
    (Utf8.encode code).length = 6 := by
  have hlengths : code.toList.map (fun c => (String.utf8EncodeChar c).length) =
      code.toList.map fun _ => 1 :=
    List.map_congr_left fun c hc =>
      length_utf8EncodeChar_of_isDigit (isDigit_of_isSixDigits h c hc)
  rw [Utf8.encode, List.length_flatMap, hlengths, List.map_const', List.sum_replicate,
    length_of_isSixDigits h]
  rfl

theorem search_eq (createHmac : HmacSha1) (key : List UInt8) (h : isSixDigits code = true)
    (left : ℕ) {step : ℤ} (hstep : 0 ≤ step) : search createHmac key code left step =
      .ok (((List.range left).map fun i : ℕ => step + i).find? fun step =>
        hotp createHmac key step.toNat = code) := by
  induction left generalizing step with
  | zero => rfl
  | succ left ih =>
      have hlength : (hotp createHmac key step.toNat).length = code.length := by
        rw [← String.length_toList, ← String.length_toList, length_of_isSixDigits h,
          length_of_isSixDigits (isSixDigits_hotp _ _ _)]
      have hnext : (List.range (left + 1)).map (fun i : ℕ => step + i) =
          step :: (List.range left).map fun i : ℕ => step + 1 + i := by
        rw [List.range_succ_eq_map, List.map_cons, List.map_map]
        refine congrArg₂ _ (Int.add_zero step) (List.map_congr_left fun i _ => ?_)
        rw [Function.comp_apply]
        push_cast
        omega
      rw [search, if_neg (not_lt.mpr hstep), hnext]
      dsimp only
      rw [if_neg (not_not.mpr hlength)]
      split
      next hequal =>
        exact congrArg Except.ok (List.find?_cons_of_pos (by simpa using hequal)).symm
      next hne =>
        rw [List.find?_cons_of_neg (by simpa using hne), ih (by omega)]

-- Of numbers that grow the first that passes is the smallest.
theorem isSmallest_find? {test : ℤ → Prop} [DecidablePred test] {numbers : List ℤ}
    (hgrow : numbers.Pairwise (· < ·)) :
    IsSmallest test numbers (numbers.find? fun n => test n) := by
  cases hfind : numbers.find? fun n => test n with
  | none =>
      intro n hn
      simpa using List.find?_eq_none.mp hfind n hn
  | some n =>
      obtain ⟨htest, front, rest, rfl, hfront⟩ := List.find?_eq_some_iff_append.mp hfind
      refine ⟨by simp, by simpa using htest, fun m hm hpasses => ?_⟩
      rcases List.mem_append.mp hm with hm | hm
      · exact absurd hpasses (by simpa using hfront m hm)
      · rcases List.mem_cons.mp hm with rfl | hm
        · exact le_refl _
        · have htail := (List.pairwise_append.mp hgrow).2.1
          exact ((List.pairwise_cons.mp htail).1 m hm).le

end Search

variable {now : ℤ} {code secret : String} {toUpperCase : String → String}

theorem window_pairwise (now : ℤ) : (window now).Pairwise (· < ·) := by
  have hbefore : stepAt now - 1 < stepAt now ∧ stepAt now - 1 < stepAt now + 1 := by omega
  simp only [window, List.pairwise_cons, List.mem_cons, List.not_mem_nil, or_false,
    forall_eq_or_imp, forall_eq, false_implies, implies_true, and_true, List.Pairwise.nil]
  exact ⟨hbefore, Int.lt_succ _⟩

theorem verify_eq (createHmac : HmacSha1) (toUpperCase : String → String) (secret : String)
    (hnow : STEP_SECONDS * 1000 ≤ now) (hcode : isSixDigits code = true) :
    verify createHmac toUpperCase now secret code =
      .ok ((window now).find? fun step => codeAt createHmac toUpperCase secret step = code) := by
  have hstep : 0 ≤ stepAt now - 1 := by
    unfold stepAt STEP_SECONDS at *
    omega
  have hwindow : (List.range 3).map (fun i : ℕ => stepAt now - 1 + i) = window now := by
    have hlast : stepAt now - 1 + 2 = stepAt now + 1 := by omega
    simp [List.range_succ, window, hlast]
  rw [verify, if_pos hcode, ← hwindow]
  exact search_eq createHmac _ hcode 3 hstep

theorem searches (createHmac : HmacSha1) (toUpperCase : String → String) (secret : String)
    (hnow : STEP_SECONDS * 1000 ≤ now) (hcode : isSixDigits code = true) :
    Searches createHmac toUpperCase now secret code where
  sameLength step _ := by
    rw [length_encode_of_isSixDigits hcode]
    exact length_encode_of_isSixDigits (isSixDigits_hotp _ _ _)
  smallest := ⟨_, verify_eq createHmac toUpperCase secret hnow hcode,
    isSmallest_find? (window_pairwise now)⟩

-- The truncation of HOTP is exact, and the search of the codes never fails.
theorem hotp_exact (createHmac : HmacSha1) (toUpperCase : String → String) :
    ExactHotp createHmac toUpperCase where
  nonnegative _ _ _ _ _ := part_nonneg
  truncates key _ := truncates createHmac key
  searches _ secret _ := searches createHmac toUpperCase secret

end SmartParking.Auth.Rfc6238TotpAdapter
