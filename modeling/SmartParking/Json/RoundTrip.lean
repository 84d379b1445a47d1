import SmartParking.Json

namespace Json

variable {rest : List Char}

-- Texts.

theorem hexValue_hexDigit : ∀ n < 16, hexValue (hexDigit n) = some n := by decide

theorem hex4_control {n : ℕ} (h : n < 0x20) :
    hex4 '0' '0' (hexDigit (n / 16)) (hexDigit (n % 16)) = some n := by
  have hzero : hexValue '0' = some 0 := rfl
  simp only [hex4, hzero, hexValue_hexDigit (n / 16) (by omega),
    hexValue_hexDigit (n % 16) (by omega), Option.bind_eq_bind, Option.bind_some]
  exact congrArg some (by omega)

-- How each kind of piece is read.

section

variable {read : List (Char ⊕ ℕ)} {more : List Char}

theorem pieces_end : pieces ('"' :: rest) = some ([], rest) := by
  rw [pieces.eq_def]
  rfl

theorem pieces_char {c : Char} (hquote : c ≠ '"') (hslash : c ≠ '\\') (hcontrol : ¬c.toNat < 0x20)
    (h : pieces rest = some (read, more)) : pieces (c :: rest) = some (.inl c :: read, more) := by
  rw [pieces.eq_def]
  simp [hquote, hslash, hcontrol, h]

theorem pieces_unescape {c e : Char} (he : e ≠ 'u') (hunescape : unescape e = some c)
    (h : pieces rest = some (read, more)) :
    pieces ('\\' :: e :: rest) = some (.inl c :: read, more) := by
  rw [pieces.eq_def]
  simp [he, hunescape, h]

theorem pieces_unit {h₁ h₂ h₃ h₄ : Char} {unit : ℕ} (hunit : hex4 h₁ h₂ h₃ h₄ = some unit)
    (h : pieces rest = some (read, more)) :
    pieces ('\\' :: 'u' :: h₁ :: h₂ :: h₃ :: h₄ :: rest) = some (.inr unit :: read, more) := by
  rw [pieces.eq_def]
  simp [hunit, h]

-- A piece that stands for one character, whatever follows.
def Denotes (piece : Char ⊕ ℕ) (c : Char) : Prop := ∀ read, join (piece :: read) = c :: join read

theorem denotes_char (c : Char) : Denotes (.inl c) c := fun _ => by rw [join]

theorem denotes_unit {c : Char} (h : c.toNat < 0x20) : Denotes (.inr c.toNat) c := by
  have hvalid : c.toNat.isValidChar := .inl (by omega)
  have hsurrogate (low : ℕ) : ¬(0xD800 ≤ c.toNat ∧ c.toNat < 0xDC00 ∧ 0xDC00 ≤ low ∧
      low < 0xE000) := by omega
  intro read
  rw [join.eq_def]
  split
  next heq => cases heq
  next heq => cases heq
  next heq =>
    cases heq
    rw [if_neg (hsurrogate _), if_pos hvalid, Char.ofNat_toNat]
  next heq =>
    cases heq
    rw [if_pos hvalid, Char.ofNat_toNat]

theorem pieces_escape (c : Char) (h : pieces rest = some (read, more)) :
    ∃ piece, Denotes piece c ∧ pieces (escape c ++ rest) = some (piece :: read, more) := by
  have hshort {e : Char} (he : e ≠ 'u') (hunescape : unescape e = some c) :
      ∃ piece, Denotes piece c ∧ pieces (['\\', e] ++ rest) = some (piece :: read, more) :=
    ⟨_, denotes_char c, pieces_unescape he hunescape h⟩
  unfold escape
  split_ifs with hquote hslash hb hf hn hr ht hcontrol
  · exact hshort (by decide) (by rw [hquote]; rfl)
  · exact hshort (by decide) (by rw [hslash]; rfl)
  · exact hshort (by decide) (by rw [hb]; rfl)
  · exact hshort (by decide) (by rw [hf]; rfl)
  · exact hshort (by decide) (by rw [hn]; rfl)
  · exact hshort (by decide) (by rw [hr]; rfl)
  · exact hshort (by decide) (by rw [ht]; rfl)
  · exact ⟨_, denotes_unit hcontrol, pieces_unit (hex4_control hcontrol) h⟩
  · exact ⟨_, denotes_char c, pieces_char hquote hslash hcontrol h⟩

end

theorem readText_quoted (text : String) : readText (quoted text ++ rest) = some (text, rest) := by
  have hpieces (chars : List Char) : ∃ read, join read = chars ∧
      pieces (chars.flatMap escape ++ '"' :: rest) = some (read, rest) := by
    induction chars with
    | nil => exact ⟨[], rfl, pieces_end⟩
    | cons c chars ih =>
        obtain ⟨read, hjoin, hread⟩ := ih
        obtain ⟨piece, hdenotes, hpiece⟩ := pieces_escape c hread
        refine ⟨piece :: read, by rw [hdenotes, hjoin], ?_⟩
        rw [List.flatMap_cons, List.append_assoc, hpiece]
  obtain ⟨read, hjoin, hread⟩ := hpieces text.toList
  rw [readText, quoted, List.append_assoc]
  change (pieces (text.toList.flatMap escape ++ '"' :: rest)).bind _ = _
  rw [hread, Option.bind_some]
  dsimp only
  rw [hjoin, String.ofList_toList]

-- Numbers.

-- What follows a number does not continue it.
def NoDigit (rest : List Char) : Prop := ∀ c ∈ rest.head?, c.isDigit = false

def Ends (rest : List Char) : Prop := ∀ c ∈ rest.head?, c = ',' ∨ c = ']' ∨ c = '\x7d'

theorem Ends.noDigit (h : Ends rest) : NoDigit rest := by
  intro c hc
  rcases h c hc with rfl | rfl | rfl <;> rfl

theorem Ends.head_ne (h : Ends rest) {c : Char} (hc : c ≠ ',' ∧ c ≠ ']' ∧ c ≠ '\x7d') :
    rest.head? ≠ some c := by
  intro hhead
  rcases h c hhead with rfl | rfl | rfl
  · exact hc.1 rfl
  · exact hc.2.1 rfl
  · exact hc.2.2 rfl

theorem readDigits_append {digits : List Char} (hne : digits ≠ [])
    (hdigits : ∀ c ∈ digits, c.isDigit = true) (hrest : NoDigit rest) :
    readDigits (digits ++ rest) = some (digits, rest) := by
  have htake : rest.takeWhile Char.isDigit = [] ∧ rest.dropWhile Char.isDigit = rest := by
    cases rest with
    | nil => exact ⟨rfl, rfl⟩
    | cons c rest => simp [hrest c rfl]
  rw [readDigits, List.takeWhile_append_of_pos hdigits, List.dropWhile_append_of_pos hdigits,
    htake.1, htake.2, List.append_nil, if_neg hne]

theorem isDigit_toDigits (n : ℕ) : ∀ c ∈ Nat.toDigits 10 n, c.isDigit = true := fun _ =>
  Nat.isDigit_of_mem_toDigits (by decide) (by decide)

theorem head_toDigits (n : ℕ) : ∃ c, (Nat.toDigits 10 n ++ rest).head? = some c ∧ c.isDigit = true := by
  obtain ⟨c, digits, hdigits⟩ := List.exists_cons_of_ne_nil (@Nat.toDigits_ne_nil n 10)
  exact ⟨c, by rw [hdigits]; rfl, isDigit_toDigits n c (hdigits ▸ List.mem_cons_self)⟩

-- No number but zero begins with a zero.
theorem eq_zero_of_head {n : ℕ} (h : (Nat.toDigits 10 n).head? = some '0') : n = 0 := by
  induction n using Nat.strongRecOn with
  | ind n ih =>
      rcases Nat.lt_or_ge n 10 with hlt | hge
      · rw [Nat.toDigits_of_lt_base hlt] at h
        revert h
        exact (by decide : ∀ n < 10, [Nat.digitChar n].head? = some '0' → n = 0) n hlt
      · rw [Nat.toDigits_of_base_le (by decide) hge,
          List.head?_append_of_ne_nil _ Nat.toDigits_ne_nil] at h
        have hzero := ih (n / 10) (by omega) h
        omega

theorem readWhole_toDigits (n : ℕ) (hrest : NoDigit rest) :
    readWhole (Nat.toDigits 10 n ++ rest) = some (Nat.toDigits 10 n, rest) := by
  unfold readWhole
  split
  next h =>
    rw [List.head?_append_of_ne_nil _ Nat.toDigits_ne_nil] at h
    rw [eq_zero_of_head h, Nat.toDigits_zero]
    rfl
  next => exact readDigits_append Nat.toDigits_ne_nil (isDigit_toDigits n) hrest

theorem signed_toDigits (n : ℤ) : signed (n < 0) (Nat.toDigits 10 n.natAbs) = n := by
  rw [signed, Nat.ofDigitChars_ten_toDigits]
  split
  next h =>
    have hneg : n < 0 := of_decide_eq_true h
    omega
  next h =>
    have hpos : ¬n < 0 := fun hneg => h (decide_eq_true hneg)
    omega

-- The sign of an integer, and what follows it.

theorem head_integerText (n : ℤ) : (integerText n ++ rest).head? = some '-' ↔ n < 0 := by
  unfold integerText
  split
  next h => exact iff_of_true rfl h
  next h =>
    refine iff_of_false (fun hhead => ?_) h
    obtain ⟨c, hc, hdigit⟩ := @head_toDigits rest n.natAbs
    obtain rfl := Option.some.inj (hc.symm.trans hhead)
    exact absurd hdigit (by decide)

theorem unsigned_integerText (n : ℤ) :
    (if n < 0 then (integerText n ++ rest).tail else integerText n ++ rest) =
      Nat.toDigits 10 n.natAbs ++ rest := by
  unfold integerText
  split <;> rfl

theorem readExponent_none (hrest : Ends rest) : readExponent rest = some (0, rest) := by
  refine if_neg (not_or.mpr ⟨hrest.head_ne (by decide), hrest.head_ne (by decide)⟩)

theorem readExponent_integerText (exponent : ℤ) (hrest : NoDigit rest) :
    readExponent ('e' :: integerText exponent ++ rest) = some (exponent, rest) := by
  have hplus : (integerText exponent ++ rest).head? ≠ some '+' := by
    unfold integerText
    split
    next => nofun
    next =>
      obtain ⟨c, hc, hdigit⟩ := @head_toDigits rest exponent.natAbs
      rw [hc]
      rintro ⟨⟩
      exact absurd hdigit (by decide)
  have hread := readDigits_append Nat.toDigits_ne_nil (isDigit_toDigits exponent.natAbs) hrest
  simp only [readExponent, List.cons_append, List.head?_cons, List.tail_cons, true_or, if_true,
    head_integerText, hplus, or_false, decide_eq_true_eq]
  rw [unsigned_integerText, hread]
  exact congrArg (fun n => some (n, rest)) (signed_toDigits exponent)

theorem readNumber_integerText (mantissa : ℤ) {exponent : ℤ} {more : List Char}
    (hdigit : NoDigit more) (hpoint : more.head? ≠ some '.')
    (hexponent : readExponent more = some (exponent, rest)) :
    readNumber (integerText mantissa ++ more) = some (number mantissa exponent, rest) := by
  have hwhole := readWhole_toDigits mantissa.natAbs hdigit
  have hfraction : readFraction more = some ([], more) := if_neg hpoint
  simp only [readNumber, head_integerText, decide_eq_true_eq, unsigned_integerText, hwhole,
    hfraction, hexponent, Option.bind_eq_bind, Option.bind_some, List.append_nil, signed_toDigits,
    List.length_nil]
  exact congrArg (fun n => some (number mantissa n, rest)) (Int.sub_zero exponent)

theorem readNumber_numeral (mantissa exponent : ℤ) (hrest : Ends rest) :
    readNumber (numeral mantissa exponent ++ rest) = some (number mantissa exponent, rest) := by
  unfold numeral
  split
  next h =>
    subst h
    exact readNumber_integerText mantissa hrest.noDigit (hrest.head_ne (by decide))
      (readExponent_none hrest)
  next =>
    rw [List.append_assoc]
    refine readNumber_integerText mantissa ?_ (by simp)
      (readExponent_integerText exponent hrest.noDigit)
    rintro c ⟨⟩
    rfl

-- Values.

-- The first character of a number, which no other value begins with.
def BeginsNumber (c : Char) : Prop := c = '-' ∨ c.isDigit = true

theorem head_numeral (mantissa exponent : ℤ) :
    ∃ c more, numeral mantissa exponent ++ rest = c :: more ∧ BeginsNumber c := by
  have hinteger (more : List Char) :
      ∃ c text, integerText mantissa ++ more = c :: text ∧ BeginsNumber c := by
    unfold integerText
    split
    next => exact ⟨'-', _, rfl, .inl rfl⟩
    next =>
      obtain ⟨c, hc, hdigit⟩ := @head_toDigits more mantissa.natAbs
      obtain ⟨text, htext⟩ := List.head?_eq_some_iff.mp hc
      exact ⟨c, text, htext, .inr hdigit⟩
  unfold numeral
  split
  next => exact hinteger rest
  next =>
    rw [List.append_assoc]
    exact hinteger _

theorem BeginsNumber.ne {c other : Char} (h : BeginsNumber c) (hminus : other ≠ '-')
    (hdigit : other.isDigit = false) : c ≠ other := by
  rintro rfl
  rcases h with h | h
  · exact hminus h
  · exact absurd (hdigit.symm.trans h) (by decide)

theorem skipBlanks_number {c : Char} (h : BeginsNumber c) :
    skipBlanks (c :: rest) = c :: rest := by
  simp [skipBlanks, h.ne (by decide : ' ' ≠ '-') rfl, h.ne (by decide : '\t' ≠ '-') rfl,
    h.ne (by decide : '\n' ≠ '-') rfl, h.ne (by decide : '\r' ≠ '-') rfl]

theorem read_number (fuel : ℕ) {c : Char} (h : BeginsNumber c) :
    read (fuel + 1) (c :: rest) = readNumber (c :: rest) := by
  have hne {other : Char} (hminus : other ≠ '-') (hdigit : other.isDigit = false) {text : List Char}
      (heq : c :: rest = other :: text) : False := h.ne hminus hdigit (List.cons.inj heq).1
  rw [read, skipBlanks_number h]
  split
  next heq => exact (hne (by decide) rfl heq).elim
  next heq => exact (hne (by decide) rfl heq).elim
  next heq => exact (hne (by decide) rfl heq).elim
  next heq => exact (hne (by decide) rfl heq).elim
  next heq => exact (hne (by decide) rfl heq).elim
  next heq => exact (hne (by decide) rfl heq).elim
  next => rfl

-- How each kind of value is read.

section

variable {fuel : ℕ} {input after : List Char}

theorem read_array {item : Json} {items : List Json} (hopen : (skipBlanks input).head? ≠ some ']')
    (hitem : read fuel input = some (item, after))
    (hitems : readItems fuel after = some (items, rest)) :
    read (fuel + 1) ('[' :: input) = some (array (item :: items), rest) := by
  refine (if_neg hopen).trans ?_
  simp [hitem, hitems]

theorem readItems_cons {item : Json} {items : List Json}
    (hitem : read fuel input = some (item, after))
    (hitems : readItems fuel after = some (items, rest)) :
    readItems (fuel + 1) (',' :: input) = some (item :: items, rest) := by
  change (read fuel input).bind _ = _
  simp [hitem, hitems]

theorem read_object {member : String × Json} {members : List (String × Json)}
    (hopen : (skipBlanks input).head? ≠ some '\x7d')
    (hmember : readMember fuel input = some (member, after))
    (hmembers : readMembers fuel after = some (members, rest)) :
    read (fuel + 1) ('\x7b' :: input) = some (object (member :: members), rest) := by
  refine (if_neg hopen).trans ?_
  simp [hmember, hmembers]

theorem readMembers_cons {member : String × Json} {members : List (String × Json)}
    (hmember : readMember fuel input = some (member, after))
    (hmembers : readMembers fuel after = some (members, rest)) :
    readMembers (fuel + 1) (',' :: input) = some (member :: members, rest) := by
  change (readMember fuel input).bind _ = _
  simp [hmember, hmembers]

theorem readMember_eq {name : String} {value : Json} (hname : readText input = some (name, ':' :: after))
    (hvalue : read fuel after = some (value, rest)) :
    readMember (fuel + 1) ('"' :: input) = some ((name, value), rest) := by
  change (readText input).bind _ = _
  rw [hname, Option.bind_some]
  change (read fuel after).bind _ = _
  simp [hvalue]

theorem read_string {value : String} (h : readText input = some (value, rest)) :
    read (fuel + 1) ('"' :: input) = some (string value, rest) := by
  change (readText input).map _ = _
  rw [h]
  rfl

end

theorem head_text (value : Json) :
    ∃ c more, text value ++ rest = c :: more ∧ skipBlanks (c :: more) = c :: more ∧ c ≠ ']' := by
  cases value with
  | null => exact ⟨'n', _, rfl, rfl, by decide⟩
  | bool value => cases value <;> exact ⟨_, _, rfl, rfl, by decide⟩
  | number mantissa exponent =>
      obtain ⟨c, more, htext, hc⟩ := @head_numeral rest mantissa exponent
      rw [text]
      exact ⟨c, more, htext, skipBlanks_number hc, hc.ne (by decide) rfl⟩
  | string value => exact ⟨'"', _, rfl, rfl, by decide⟩
  | array items => cases items <;> exact ⟨'[', _, by rw [text]; rfl, rfl, by decide⟩
  | object members => cases members <;> exact ⟨'\x7b', _, by rw [text]; rfl, rfl, by decide⟩

theorem ends_textItems (items : List Json) : Ends (textItems items ++ rest) := by
  cases items <;> rintro c ⟨⟩ <;> simp

theorem ends_textMembers (members : List (String × Json)) : Ends (textMembers members ++ rest) := by
  cases members <;> rintro c ⟨⟩ <;> simp

-- Reading gives back what was written, if the fuel is not less than the text.
mutual

theorem read_text : ∀ (value : Json) (fuel : ℕ) (rest : List Char), (text value).length ≤ fuel →
    Ends rest → read fuel (text value ++ rest) = some (value, rest)
  | null, fuel + 1, rest, _, _ => rfl
  | bool true, fuel + 1, rest, _, _ => rfl
  | bool false, fuel + 1, rest, _, _ => rfl
  | number mantissa exponent, 0, rest, hfuel, _ => by
      obtain ⟨c, more, htext, -⟩ := @head_numeral [] mantissa exponent
      have hnil : numeral mantissa exponent = [] := List.length_eq_zero_iff.mp (Nat.le_zero.mp hfuel)
      rw [hnil] at htext
      cases htext
  | number mantissa exponent, fuel + 1, rest, _, hrest => by
      obtain ⟨c, more, htext, hc⟩ := @head_numeral rest mantissa exponent
      rw [text, htext, read_number fuel hc, ← htext, readNumber_numeral mantissa exponent hrest]
  | string value, fuel + 1, rest, _, _ => read_string (readText_quoted value)
  | array [], fuel + 1, rest, _, _ => rfl
  | array (item :: items), fuel + 1, rest, hfuel, _ => by
      rw [text, List.length_append, List.length_cons] at hfuel
      have hitem := read_text item fuel _ (by omega) (@ends_textItems rest items)
      have hitems := readItems_text items fuel rest (by omega)
      obtain ⟨c, more, htext, hblank, hc⟩ := @head_text (textItems items ++ rest) item
      rw [text, List.cons_append, List.cons_append, List.append_assoc]
      refine read_array ?_ hitem hitems
      rw [htext, hblank]
      exact fun h => hc (Option.some.inj h)
  | object [], fuel + 1, rest, _, _ => rfl
  | object (member :: members), fuel + 1, rest, hfuel, _ => by
      rw [text, List.length_append, List.length_cons] at hfuel
      have hmember := readMember_text member fuel _ (by omega) (@ends_textMembers rest members)
      have hmembers := readMembers_text members fuel rest (by omega)
      rw [text, List.cons_append, List.cons_append, List.append_assoc]
      refine read_object ?_ hmember hmembers
      obtain ⟨name, value⟩ := member
      rw [textMember]
      nofun

theorem readItems_text : ∀ (items : List Json) (fuel : ℕ) (rest : List Char),
    (textItems items).length ≤ fuel → readItems fuel (textItems items ++ rest) = some (items, rest)
  | [], fuel + 1, rest, _ => rfl
  | item :: items, fuel + 1, rest, hfuel => by
      rw [textItems, List.length_append, List.length_cons] at hfuel
      have hitem := read_text item fuel _ (by omega) (@ends_textItems rest items)
      have hitems := readItems_text items fuel rest (by omega)
      rw [textItems, List.cons_append, List.cons_append, List.append_assoc]
      exact readItems_cons hitem hitems

theorem readMembers_text : ∀ (members : List (String × Json)) (fuel : ℕ) (rest : List Char),
    (textMembers members).length ≤ fuel →
      readMembers fuel (textMembers members ++ rest) = some (members, rest)
  | [], fuel + 1, rest, _ => rfl
  | member :: members, fuel + 1, rest, hfuel => by
      rw [textMembers, List.length_append, List.length_cons] at hfuel
      have hmember := readMember_text member fuel _ (by omega) (@ends_textMembers rest members)
      have hmembers := readMembers_text members fuel rest (by omega)
      rw [textMembers, List.cons_append, List.cons_append, List.append_assoc]
      exact readMembers_cons hmember hmembers

theorem readMember_text : ∀ (member : String × Json) (fuel : ℕ) (rest : List Char),
    (textMember member).length ≤ fuel → Ends rest →
      readMember fuel (textMember member ++ rest) = some (member, rest)
  | (name, value), fuel + 1, rest, hfuel, hrest => by
      rw [textMember, List.length_append, List.length_cons, List.length_cons] at hfuel
      have hvalue := read_text value fuel rest (by omega) hrest
      rw [textMember, List.cons_append, List.cons_append, List.append_assoc]
      exact readMember_eq (readText_quoted name) hvalue

end

theorem parse_stringify (value : Json) : parse (stringify value) = some value := by
  have hread := read_text value ((text value).length + 1) [] (Nat.le_succ _) nofun
  rw [List.append_nil] at hread
  rw [parse, stringify, String.toList_ofList, hread]
  rfl

theorem stringify_ne_empty (value : Json) : stringify value ≠ "" := by
  intro hempty
  have hparse := parse_stringify value
  rw [hempty] at hparse
  cases hparse

end Json
