import SmartParking.Auth.Base32
import SmartParking.BitGroups.Accumulator
import Mathlib.Data.List.TakeWhile

namespace SmartParking.Auth.Rfc6238TotpAdapter

open BitGroups

variable {group : List Bool} {n : ℕ}

-- The loops keep the bits that are pending in their accumulator, and put out the groups.
section Loops

def symbolOf (group : List Bool) : Char := symbol (value group)

theorem base32Flush_eq {bits : ℕ} (hlength : group.length = bits) (h : Pending n group)
    (output : List Char) : base32Flush n bits output =
      ((split 5 [] group).2.length, output ++ (split 5 [] group).1.map symbolOf) := by
  fun_induction base32Flush n bits output generalizing group with
  | case1 bits output ih =>
      have hfirst : (group.take 5).length = 5 := by
        rw [List.length_take]
        omega
      have hlast : (group.drop 5).length = bits := by
        rw [List.length_drop]
        omega
      rw [← List.take_append_drop 5 group] at h
      have hread : (n >>> bits) &&& 31 = value (group.take 5) := by
        have hread := h.read
        rwa [hfirst, hlast] at hread
      rw [ih hlast h.rest, hread]
      conv_rhs => rw [← List.take_append_drop 5 group, split_next (by decide) hfirst]
      rw [List.map_cons, List.append_assoc]
      rfl
  | case2 bits output hbits =>
      have hshort : group.length < 5 := by
        by_contra hlong
        exact hbits (group.length - 5) (by omega)
      rw [split_short (by rwa [List.length_nil, Nat.zero_add]), List.nil_append, hlength,
        List.map_nil, List.append_nil]

-- Some of the bits that are pending have been put out.
theorem pending_split (h : Pending n group) : Pending n (split 5 [] group).2 := by
  have hsplit := split_flatten 5 [] group
  rw [List.nil_append] at hsplit
  rw [← hsplit] at h
  exact h.rest

theorem base32EncodeLoop_eq (hlength : group.length < 5) (h : Pending n group)
    (bytes : List UInt8) (output : List Char) :
    base32EncodeLoop bytes group.length n output =
      output ++ ((split 5 group (octets bytes).flatten).1 ++
        filled 5 (split 5 group (octets bytes).flatten).2).map symbolOf := by
  induction bytes generalizing n group output with
  | nil =>
      have hsplit : split 5 group (octets []).flatten = ([], group) := rfl
      rw [base32EncodeLoop, hsplit, List.nil_append, filled]
      by_cases hnil : group = []
      · rw [hnil]
        exact (List.append_nil output).symm
      · have hfill : (n <<< (5 - group.length)) &&& 31 = _ := h.fill hlength.le
        rw [if_pos (List.length_pos_iff.mpr hnil), if_neg hnil, hfill]
        rfl
  | cons byte rest ih =>
      have hpush : Pending ((n <<< 8 ||| byte.toNat) &&& 0xffff) (group ++ bits 8 byte.toNat) :=
        h.push byte.toNat_lt (by omega : group.length + 8 ≤ 16)
      have hflush := base32Flush_eq (by rw [List.length_append, length_bits]) hpush output
      have hsplit : split 5 group (octets (byte :: rest)).flatten =
          ((split 5 [] (group ++ bits 8 byte.toNat)).1 ++
            (split 5 (split 5 [] (group ++ bits 8 byte.toNat)).2 (octets rest).flatten).1,
          (split 5 (split 5 [] (group ++ bits 8 byte.toNat)).2 (octets rest).flatten).2) := by
        rw [← split_append, List.append_assoc, split_pending hlength]
        rfl
      have hnext : (split 5 [] (group ++ bits 8 byte.toNat)).2.length < 5 :=
        length_left_lt (by decide)
      rw [base32EncodeLoop, hflush]
      dsimp only
      rw [ih hnext (pending_split hpush), hsplit]
      simp only [List.map_append, List.append_assoc]

theorem base32DecodeLoop_eq (hlength : group.length < 8) (h : Pending n group)
    {chars : List Char} (hchars : ∀ c ∈ chars, c ∈ BASE32_ALPHABET) (out : List UInt8) :
    base32DecodeLoop chars group.length n out =
      out ++ (split 8 group ((chars.map BASE32_ALPHABET.idxOf).map (bits 5)).flatten).1.map
        fun octet => UInt8.ofNat (value octet) := by
  induction chars generalizing n group out with
  | nil => exact (List.append_nil out).symm
  | cons c rest ih =>
      obtain ⟨hc, hrest⟩ := List.forall_mem_cons.mp hchars
      have hdigit : BASE32_ALPHABET.idxOf c < 2 ^ 5 := List.idxOf_lt_length_of_mem hc
      have hpush : Pending ((n <<< 5 ||| BASE32_ALPHABET.idxOf c) &&& 0xffff)
          (group ++ bits 5 (BASE32_ALPHABET.idxOf c)) :=
        h.push hdigit (by omega : group.length + 5 ≤ 16)
      have hsplit : split 8 group (((c :: rest).map BASE32_ALPHABET.idxOf).map (bits 5)).flatten =
          split 8 [] (group ++ bits 5 (BASE32_ALPHABET.idxOf c) ++
            ((rest.map BASE32_ALPHABET.idxOf).map (bits 5)).flatten) := by
        rw [List.append_assoc, split_pending hlength]
        rfl
      rw [base32DecodeLoop, hsplit]
      generalize hbits : group ++ bits 5 (BASE32_ALPHABET.idxOf c) = pending at hpush
      have htotal : pending.length = group.length + 5 := by
        rw [← hbits, List.length_append, length_bits]
      by_cases hfull : 8 ≤ group.length + 5
      · have hfirst : (pending.take 8).length = 8 := by
          rw [List.length_take]
          omega
        have hlast : (pending.drop 8).length = group.length + 5 - 8 := by
          rw [List.length_drop, htotal]
        rw [← List.take_append_drop 8 pending] at hpush
        have hread := hpush.read
        rw [hfirst] at hread
        rw [if_pos hfull, ← hlast, ih (by omega) hpush.rest hrest]
        conv_rhs => rw [← List.take_append_drop 8 pending, List.append_assoc,
          split_next (by decide) hfirst, split_pending (by omega)]
        rw [List.map_cons, List.append_assoc, ← hread]
        rfl
      · rw [if_neg hfull, ← htotal, ih (by omega) hpush hrest, split_pending (by omega)]

end Loops

-- The codec is that of groups of five bits, with the symbols for their values.

theorem toList_base32Encode (bytes : List UInt8) :
    (base32Encode bytes).toList = (encode 5 bytes).map symbol := by
  have hloop := base32EncodeLoop_eq (by decide) (pending_nil 0) bytes []
  rw [List.length_nil, List.nil_append] at hloop
  rw [base32Encode, String.toList_ofList, hloop, encode, List.map_map]
  rfl

def isSymbol (c : Char) : Bool := ('A' ≤ c && c ≤ 'Z') || ('2' ≤ c && c ≤ '7')

def symbolsOf (toUpperCase : String → String) (input : String) : List Char :=
  (toUpperCase input).toList.filter isSymbol

theorem isSymbol_iff (c : Char) : isSymbol c = true ↔ c ∈ BASE32_ALPHABET := by
  have hascii : isSymbol c = true → c.toNat < 128 := JsString.lt_of_ranges (by decide) (by decide)
  constructor
  · intro h
    exact JsString.forall_ascii (p := fun c => isSymbol c = true → c ∈ BASE32_ALPHABET)
      (by decide +kernel) c (hascii h) h
  · have hall : ∀ c ∈ BASE32_ALPHABET, isSymbol c = true :=
      List.forall_iff_forall_mem.mp (by decide)
    exact hall c

-- The padding is no symbol.
theorem filter_dropPadding (text : List Char) :
    (dropPadding text).filter isSymbol = text.filter isSymbol := by
  have hsplit : dropPadding text ++ (text.reverse.takeWhile (· = '=')).reverse = text := by
    rw [dropPadding, ← List.reverse_append, List.takeWhile_append_dropWhile, List.reverse_reverse]
  have hpadding : (text.reverse.takeWhile (· = '=')).reverse.filter isSymbol = [] := by
    refine List.filter_eq_nil_iff.mpr fun c hc => ?_
    have heq : c = '=' := by simpa using List.mem_takeWhile_imp (List.mem_reverse.mp hc)
    rw [heq]
    decide
  conv_rhs => rw [← hsplit, List.filter_append, hpadding, List.append_nil]

theorem base32Decode_eq (toUpperCase : String → String) (input : String) :
    base32Decode toUpperCase input =
      decode 5 ((symbolsOf toUpperCase input).map BASE32_ALPHABET.idxOf) := by
  have hsymbols : ∀ c ∈ symbolsOf toUpperCase input, c ∈ BASE32_ALPHABET :=
    fun c hc => (isSymbol_iff c).mp (List.mem_filter.mp hc).2
  have hloop := base32DecodeLoop_eq (by decide) (pending_nil 0) hsymbols []
  rw [List.length_nil, List.nil_append] at hloop
  have hclean : (dropPadding (toUpperCase input).toList).filter isSymbol =
    symbolsOf toUpperCase input := filter_dropPadding _
  exact (congrArg (base32DecodeLoop · 0 0 []) hclean).trans hloop

-- Symbols and digits.

theorem idxOf_symbol : ∀ digit < 32, BASE32_ALPHABET.idxOf (symbol digit) = digit := by decide

theorem symbol_mem : ∀ digit < 32, symbol digit ∈ BASE32_ALPHABET := by decide

theorem symbol_idxOf : ∀ c ∈ BASE32_ALPHABET, symbol (BASE32_ALPHABET.idxOf c) = c :=
  List.forall_iff_forall_mem.mp (by decide)

theorem digits_lt {bytes : List UInt8} : ∀ digit ∈ encode 5 bytes, digit < 32 := fun _ =>
  encode_lt (by decide)

theorem mem_base32Encode {bytes : List UInt8} {c : Char} (h : c ∈ (base32Encode bytes).toList) :
    c ∈ BASE32_ALPHABET := by
  rw [toList_base32Encode] at h
  obtain ⟨digit, hdigit, rfl⟩ := List.mem_map.mp h
  exact symbol_mem digit (digits_lt digit hdigit)

theorem map_idxOf_base32Encode (bytes : List UInt8) :
    (base32Encode bytes).toList.map BASE32_ALPHABET.idxOf = encode 5 bytes := by
  rw [toList_base32Encode, List.map_map]
  exact (List.map_congr_left fun digit hm => idxOf_symbol digit (digits_lt digit hm)).trans
    (List.map_id _)

theorem length_base32Encode (bytes : List UInt8) :
    (base32Encode bytes).length = 8 * bytes.length ⌈/⌉ 5 := by
  rw [← String.length_toList, toList_base32Encode, List.length_map, length_encode (by decide),
    Nat.ceilDiv_eq_add_pred_div]
  rfl

-- The symbols of a retyped text are those of the text.
section Retyped

variable {special : Char → List Char} {between : Char → Prop} {text retyped : List Char}

theorem ascii_of_symbol : ∀ c ∈ BASE32_ALPHABET, c.toNat < 128 ∧ c.toLower.toNat < 128 :=
  List.forall_iff_forall_mem.mp (by decide)

theorem toUpper_symbol :
    ∀ c ∈ BASE32_ALPHABET, c.toUpper = c ∧ c.toLower.toUpper = c :=
  List.forall_iff_forall_mem.mp (by decide)

theorem Retyped.isAscii (h : Retyped between text retyped) (htext : ∀ c ∈ text, c ∈ BASE32_ALPHABET)
    (hbetween : ∀ c, between c → c.toNat < 128) : JsString.IsAscii retyped := by
  induction h with
  | nil => exact fun c hc => absurd hc List.not_mem_nil
  | same c _ ih =>
      obtain ⟨hc, hrest⟩ := List.forall_mem_cons.mp htext
      exact List.forall_mem_cons.mpr ⟨(ascii_of_symbol c hc).1, ih hrest⟩
  | lower c _ ih =>
      obtain ⟨hc, hrest⟩ := List.forall_mem_cons.mp htext
      exact List.forall_mem_cons.mpr ⟨(ascii_of_symbol c hc).2, ih hrest⟩
  | between c hc _ ih => exact List.forall_mem_cons.mpr ⟨hbetween c hc, ih htext⟩

theorem Retyped.filter_toUpper (h : Retyped Ignored text retyped)
    (htext : ∀ c ∈ text, c ∈ BASE32_ALPHABET) :
    (retyped.map Char.toUpper).filter isSymbol = text := by
  induction h with
  | nil => rfl
  | same c _ ih =>
      obtain ⟨hc, hrest⟩ := List.forall_mem_cons.mp htext
      rw [List.map_cons, (toUpper_symbol c hc).1,
        List.filter_cons_of_pos ((isSymbol_iff c).mpr hc), ih hrest]
  | lower c _ ih =>
      obtain ⟨hc, hrest⟩ := List.forall_mem_cons.mp htext
      rw [List.map_cons, (toUpper_symbol c hc).2,
        List.filter_cons_of_pos ((isSymbol_iff c).mpr hc), ih hrest]
  | between c hc _ ih =>
      have hno : ¬isSymbol c.toUpper = true := fun hsymbol => hc.2 ((isSymbol_iff _).mp hsymbol)
      rw [List.map_cons, List.filter_cons_of_neg hno, ih htext]

theorem Retyped.refl (text : List Char) : Retyped between text text := by
  induction text with
  | nil => exact .nil
  | cons c text ih => exact .same c ih

theorem symbolsOf_retyped {text retyped : String} (h : Retyped Ignored text.toList retyped.toList)
    (htext : ∀ c ∈ text.toList, c ∈ BASE32_ALPHABET) :
    symbolsOf (JsString.toUpperCase special) retyped = text.toList := by
  rw [symbolsOf, JsString.toList_toUpperCase (h.isAscii htext fun _ hc => hc.1),
    h.filter_toUpper htext]

end Retyped

theorem base32Decode_retyped {special : Char → List Char} {text retyped : String}
    (h : Retyped Ignored text.toList retyped.toList)
    (htext : ∀ c ∈ text.toList, c ∈ BASE32_ALPHABET) :
    base32Decode (JsString.toUpperCase special) retyped =
      decode 5 (text.toList.map BASE32_ALPHABET.idxOf) := by
  rw [base32Decode_eq, symbolsOf_retyped h htext]

-- What is typed for the encoding of bytes is decoded as the bytes.
theorem base32Decode_base32Encode {special : Char → List Char} {bytes : List UInt8} {text : String}
    (h : Retyped Ignored (base32Encode bytes).toList text.toList) :
    base32Decode (JsString.toUpperCase special) text = bytes := by
  rw [base32Decode_retyped h fun _ => mem_base32Encode, map_idxOf_base32Encode,
    decode_encode (by decide) (by decide)]

theorem length_unusedBits {text : String}
    (hlength : ∃ bytes, (base32Encode bytes).length = text.length) :
    (unusedBits text).length < 5 := by
  obtain ⟨bytes, hbytes⟩ := hlength
  rw [length_base32Encode, Nat.ceilDiv_eq_add_pred_div, ← String.length_toList] at hbytes
  have hback := congrArg List.length
    (octets_decode 5 (text.toList.map BASE32_ALPHABET.idxOf))
  rw [List.length_append, length_flatten_octets, length_flatten_bits, List.length_map] at hback
  have hoctet : (unusedBits text).length < 8 := length_left_lt (by decide)
  change _ + (unusedBits text).length = _ at hback
  have hbounds : 8 * bytes.length ≤ 5 * text.toList.length ∧
      5 * text.toList.length ≤ 8 * bytes.length + 4 := by omega
  rcases Nat.lt_or_ge (decode 5 (text.toList.map BASE32_ALPHABET.idxOf)).length bytes.length with
    hlt | hge
  · omega
  · omega

theorem base32Encode_base32Decode {special : Char → List Char} {text : String}
    (h : WellFormed text) :
    base32Encode (base32Decode (JsString.toUpperCase special) text) = text := by
  have hdigits : ∀ digit ∈ text.toList.map BASE32_ALPHABET.idxOf, digit < 2 ^ 5 := by
    intro digit hm
    obtain ⟨c, hc, rfl⟩ := List.mem_map.mp hm
    exact List.idxOf_lt_length_of_mem (h.symbols c hc)
  rw [← String.toList_inj, toList_base32Encode, base32Decode_retyped (.refl _) h.symbols,
    encode_decode (by decide) hdigits h.unused (length_unusedBits h.length), List.map_map]
  exact (List.map_congr_left fun c hc => symbol_idxOf c (h.symbols c hc)).trans (List.map_id _)

-- Base32 is a faithful codec, which ignores what is no symbol, also in upper case.
theorem base32_faithful (special : Char → List Char) :
    Faithful (JsString.toUpperCase special) Ignored where
  decodes bytes := base32Decode_base32Encode (.refl _)
  length := length_base32Encode
  symbols _ _ := mem_base32Encode
  retyped bytes text h := by
    rw [base32Decode_base32Encode h, base32Decode_base32Encode (.refl _)]
  encodes _ := base32Encode_base32Decode

end SmartParking.Auth.Rfc6238TotpAdapter
