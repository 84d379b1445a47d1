import Mathlib.Data.List.DropRight

-- What the services use of the strings of their language.
namespace JsString

-- The code units of UTF-16: a pair of surrogates from U+10000 on.
def codeUnits (c : Char) : List ℕ :=
  if c.toNat < 0x10000 then [c.toNat]
  else [0xD800 + (c.toNat - 0x10000) / 0x400, 0xDC00 + (c.toNat - 0x10000) % 0x400]

-- White space and line terminators.
def isWhiteSpace (c : Char) : Bool :=
  c.toNat ∈ [0x09, 0x0A, 0x0B, 0x0C, 0x0D, 0x20, 0xA0, 0x1680, 0x2028, 0x2029, 0x202F, 0x205F,
    0x3000, 0xFEFF] || (0x2000 ≤ c.toNat && c.toNat ≤ 0x200A)

def trim (text : String) : String :=
  String.ofList ((text.toList.dropWhile isWhiteSpace).reverse.dropWhile isWhiteSpace).reverse

def split (separator : Char) (text : String) : List String :=
  (text.toList.splitOn separator).map String.ofList

-- The upper case of ASCII, and of the other characters as Unicode has it.
def toUpperCase (special : Char → List Char) (text : String) : String :=
  String.ofList (text.toList.flatMap fun c => if c.toNat < 128 then [c.toUpper] else special c)

-- What matches a class of characters stays, the rest is replaced by nothing.
def keep (allowed : Char → Bool) (text : String) : String :=
  String.ofList (text.toList.filter allowed)

def padStart (length : ℕ) (filler : Char) (text : String) : String :=
  String.ofList (text.toList.leftpad length filler)

-- Percent encoding of the UTF-8 bytes of all characters but some.
def hexDigit (n : ℕ) : Char := "0123456789ABCDEF".toList.getD n '0'

def percentEncodeChar (c : Char) : List Char :=
  (String.utf8EncodeChar c).flatMap fun byte =>
    ['%', hexDigit (byte.toNat / 16), hexDigit (byte.toNat % 16)]

def encodeURIComponent (text : String) : String :=
  String.ofList (text.toList.flatMap fun c =>
    if c.isAlphanum || c ∈ "-_.!~*'()".toList then [c] else percentEncodeChar c)

-- URLSearchParams: a blank is a plus sign.
def encodeQueryPart (text : String) : String :=
  String.ofList (text.toList.flatMap fun c =>
    if c.isAlphanum || c ∈ "*-._".toList then [c]
    else if c = ' ' then ['+'] else percentEncodeChar c)

def encodeQuery (params : List (String × String)) : String :=
  "&".intercalate (params.map fun (name, value) => encodeQueryPart name ++ "=" ++ encodeQueryPart value)

def IsAscii (text : List Char) : Prop := ∀ c ∈ text, c.toNat < 128

-- What holds of all numbers below 128 holds of the ASCII characters.
theorem forall_ascii {p : Char → Prop} (h : ∀ n < 128, p (Char.ofNat n)) (c : Char)
    (hc : c.toNat < 128) : p c := by
  have hof := h c.toNat hc
  rwa [Char.ofNat_toNat] at hof

-- A character of one of two ranges is an ASCII character when their ends are.
theorem lt_of_ranges {low high low' high' c : Char} (hhigh : high.toNat < 128)
    (hhigh' : high'.toNat < 128) (h : ((low ≤ c && c ≤ high) || (low' ≤ c && c ≤ high')) = true) :
    c.toNat < 128 := by
  simp only [Bool.or_eq_true, Bool.and_eq_true, decide_eq_true_eq, Char.le_def,
    UInt32.le_iff_toNat_le] at h
  rcases h with ⟨-, hle⟩ | ⟨-, hle⟩
  · exact hle.trans_lt hhigh
  · exact hle.trans_lt hhigh'

theorem toList_toUpperCase {special : Char → List Char} {text : String}
    (h : IsAscii text.toList) : (toUpperCase special text).toList = text.toList.map Char.toUpper := by
  rw [toUpperCase, String.toList_ofList, ← List.flatMap_pure_eq_map]
  exact List.flatMap_congr fun c hc => if_pos (h c hc)

theorem toList_trim (text : String) :
    (trim text).toList = (text.toList.dropWhile isWhiteSpace).rdropWhile isWhiteSpace :=
  String.toList_ofList

-- What stands before the text that is left, and what stands after it.
theorem trim_split (text : String) : text.toList.takeWhile isWhiteSpace ++ ((trim text).toList ++
    (text.toList.dropWhile isWhiteSpace).rtakeWhile isWhiteSpace) = text.toList := by
  rw [toList_trim, List.rdropWhile_append_rtakeWhile, List.takeWhile_append_dropWhile]

theorem mem_of_mem_trim {text : String} {c : Char} (h : c ∈ (trim text).toList) :
    c ∈ text.toList := by
  rw [← trim_split text]
  exact List.mem_append_right _ (List.mem_append_left _ h)

-- The blanks at the ends do not matter where blanks give nothing.
theorem flatMap_trim {α : Type} {f : Char → List α} {text : String}
    (h : ∀ c ∈ text.toList, isWhiteSpace c = true → f c = []) :
    (trim text).toList.flatMap f = text.toList.flatMap f := by
  have hfront : (text.toList.takeWhile isWhiteSpace).flatMap f = [] := by
    refine List.flatMap_eq_nil_iff.mpr fun c hc => ?_
    exact h c ((List.takeWhile_prefix _).subset hc) (List.mem_takeWhile_imp hc)
  have hback : ((text.toList.dropWhile isWhiteSpace).rtakeWhile isWhiteSpace).flatMap f = [] := by
    refine List.flatMap_eq_nil_iff.mpr fun c hc => ?_
    have hrest := (List.rtakeWhile_suffix _ _).subset hc
    exact h c ((List.dropWhile_suffix _).subset hrest) (List.mem_rtakeWhile_imp hc)
  conv_rhs => rw [← trim_split text]
  rw [List.flatMap_append, List.flatMap_append, hfront, hback, List.nil_append, List.append_nil]

theorem trim_trim (text : String) : trim (trim text) = trim text := by
  have hhead : (trim text).toList.dropWhile isWhiteSpace = (trim text).toList := by
    rw [toList_trim]
    refine List.dropWhile_eq_self_iff.mpr fun hlength => ?_
    have hfront := List.rdropWhile_prefix isWhiteSpace (text.toList.dropWhile isWhiteSpace)
    rw [hfront.getElem hlength]
    exact List.dropWhile_get_zero_not isWhiteSpace text.toList _
  rw [← String.toList_inj, toList_trim (trim text), hhead, toList_trim text,
    List.rdropWhile_idempotent]

-- What keeps blanks and the others apart can be applied before or after.
theorem trim_map {f : Char → Char} {text : List Char}
    (h : ∀ c ∈ text, isWhiteSpace (f c) = isWhiteSpace c) :
    ((text.map f).dropWhile isWhiteSpace).rdropWhile isWhiteSpace =
      ((text.dropWhile isWhiteSpace).rdropWhile isWhiteSpace).map f := by
  have hdrop : ∀ rest : List Char, (∀ c ∈ rest, c ∈ text) →
      (rest.map f).dropWhile isWhiteSpace = (rest.dropWhile isWhiteSpace).map f := by
    intro rest hrest
    induction rest with
    | nil => rfl
    | cons c rest ih =>
        obtain ⟨hc, hrest⟩ := List.forall_mem_cons.mp hrest
        rw [List.map_cons, List.dropWhile_cons, List.dropWhile_cons, h c hc]
        split
        · exact ih hrest
        · rfl
  rw [hdrop text fun _ hc => hc, List.rdropWhile, List.rdropWhile, ← List.map_reverse, hdrop,
    List.map_reverse]
  exact fun c hc => (List.dropWhile_suffix _).subset (List.mem_reverse.mp hc)

theorem split_append {separator : Char} {first second : String} (hfirst : separator ∉ first.toList)
    (hsecond : separator ∉ second.toList) :
    split separator (first ++ String.singleton separator ++ second) = [first, second] := by
  have htext : (first ++ String.singleton separator ++ second).toList =
      first.toList ++ separator :: second.toList := by simp
  rw [split, htext, List.splitOn_append_cons_self_of_not_mem hfirst,
    List.splitOn_eq_singleton hsecond, List.map_cons, List.map_singleton, String.ofList_toList,
    String.ofList_toList]

def join (separator : Char) (parts : List String) : String :=
  String.ofList ([separator].intercalate (parts.map String.toList))

end JsString
