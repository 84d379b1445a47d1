import SmartParking.JsString
import Mathlib.Tactic.Linarith

-- Time values of the language's dates, in milliseconds since 1970, and their ISO text.
namespace JsDate

def msPerDay : ℤ := 86400000

-- The calendar.

def dayFromYear (year : ℤ) : ℤ :=
  365 * (year - 1970) + (year - 1969) / 4 - (year - 1901) / 100 + (year - 1601) / 400

def inLeapYear (year : ℤ) : Bool := year % 4 = 0 && (year % 100 ≠ 0 || year % 400 = 0)

-- From the mean length of a year, which is wrong by one at most.
def yearFromDay (day : ℤ) : ℤ :=
  let guess := 400 * day / 146097 + 1970
  if day < dayFromYear guess then guess - 1
  else if dayFromYear (guess + 1) ≤ day then guess + 1
  else guess

def monthLengths (leap : Bool) : List ℕ :=
  [31, if leap then 29 else 28, 31, 30, 31, 30, 31, 31, 30, 31, 30, 31]

-- The month of a day of the year, and the day in it, both from zero on.
def locate : List ℕ → ℕ → ℕ × ℕ
  | [], day => (0, day)
  | length :: lengths, day =>
      if day < length then (0, day)
      else ((locate lengths (day - length)).1 + 1, (locate lengths (day - length)).2)

def makeDay (year : ℤ) (month date : ℕ) : ℤ :=
  dayFromYear year + ((monthLengths (inLeapYear year)).take month).sum + date

def maxTime : ℤ := 8640000000000000

-- The time value of a valid date.
structure Time where
  ms : ℤ
  lower : -maxTime ≤ ms
  upper : ms ≤ maxTime
  deriving DecidableEq

-- The text of a time.

def digit (n : ℕ) : Char := "0123456789".toList.getD n '0'

def padded : (width : ℕ) → ℕ → List Char
  | 0, _ => []
  | width + 1, n => padded width (n / 10) ++ [digit (n % 10)]

def yearText (year : ℤ) : List Char :=
  if 0 ≤ year ∧ year ≤ 9999 then padded 4 year.natAbs
  else (if year < 0 then '-' else '+') :: padded 6 year.natAbs

structure Fields where
  year : ℤ
  month : ℕ
  date : ℕ
  ms : ℕ

def fields (ms : ℤ) : Fields :=
  let day := ms / msPerDay
  let year := yearFromDay day
  let located := locate (monthLengths (inLeapYear year)) (day - dayFromYear year).toNat
  { year, month := located.1, date := located.2, ms := (ms % msPerDay).toNat }

def Fields.time (fields : Fields) : ℤ :=
  makeDay fields.year fields.month fields.date * msPerDay + fields.ms

def Fields.text (fields : Fields) : List Char :=
  yearText fields.year ++ ('-' :: padded 2 (fields.month + 1) ++ '-' :: padded 2 (fields.date + 1) ++
    'T' :: padded 2 (fields.ms / 3600000) ++ ':' :: padded 2 (fields.ms / 60000 % 60) ++
    ':' :: padded 2 (fields.ms / 1000 % 60) ++ '.' :: padded 3 (fields.ms % 1000) ++ ['Z'])

def toISOString (time : Time) : String := String.ofList (fields time.ms).text

-- Reading such a text, by the places of its digits.

def number (digits : List Char) : ℕ := digits.foldl (fun n c => 10 * n + (c.toNat - 48)) 0

def readYear : List Char → ℤ × List Char
  | '-' :: rest => (-number (rest.take 6), rest.drop 6)
  | '+' :: rest => (number (rest.take 6), rest.drop 6)
  | text => (number (text.take 4), text.drop 4)

def readFields (text : List Char) : Fields :=
  let (year, rest) := readYear text
  let field (start length : ℕ) := number ((rest.drop start).take length)
  { year
    month := field 1 2 - 1
    date := field 4 2 - 1
    ms := field 7 2 * 3600000 + field 10 2 * 60000 + field 13 2 * 1000 + field 16 3 }

def ofMs (ms : ℤ) : Option Time :=
  if h : -maxTime ≤ ms ∧ ms ≤ maxTime then some ⟨ms, h.1, h.2⟩ else none

theorem ms_of_ofMs {ms : ℤ} {time : Time} (h : ofMs ms = some time) : time.ms = ms := by
  unfold ofMs at h
  split at h
  · exact congrArg Time.ms (Option.some.inj h).symm
  · cases h

-- A text that toISOString gives is that time. What other texts are depends on the host,
-- its time zone among others.
def parse (other : String → Option Time) (text : String) : Option Time :=
  match ofMs (readFields text.toList).time with
  | some time => if toISOString time = text then some time else other text
  | none => other text

-- Years have 365 or 366 days, which makes 365.2425 in the mean.

theorem dayFromYear_succ (year : ℤ) :
    365 ≤ dayFromYear (year + 1) - dayFromYear year ∧
      dayFromYear (year + 1) - dayFromYear year ≤ 366 := by
  unfold dayFromYear
  omega

theorem dayFromYear_mean (year : ℤ) :
    -1000 ≤ 400 * dayFromYear year - 146097 * (year - 1970) ∧
      400 * dayFromYear year - 146097 * (year - 1970) ≤ 1000 := by
  unfold dayFromYear
  omega

-- The year of a day begins before it, and the next one after it.
theorem dayFromYear_yearFromDay (day : ℤ) :
    dayFromYear (yearFromDay day) ≤ day ∧ day < dayFromYear (yearFromDay day + 1) := by
  unfold yearFromDay
  generalize hguess : 400 * day / 146097 + 1970 = guess
  have hmean := dayFromYear_mean guess
  have hmean' := dayFromYear_mean (guess + 1)
  have hbefore := dayFromYear_succ (guess - 1)
  have hafter := dayFromYear_succ (guess + 1)
  rw [sub_add_cancel] at hbefore
  dsimp only
  split_ifs with hearly hlate
  · rw [sub_add_cancel]
    exact ⟨by omega, hearly⟩
  · exact ⟨hlate, by omega⟩
  · exact ⟨by omega, by omega⟩

theorem sum_monthLengths (year : ℤ) :
    ((monthLengths (inLeapYear year)).sum : ℤ) = dayFromYear (year + 1) - dayFromYear year := by
  have hsum : ((monthLengths (inLeapYear year)).sum : ℤ) = if inLeapYear year then 366 else 365 := by
    cases inLeapYear year <;> rfl
  have hleap : inLeapYear year = true ↔ year % 4 = 0 ∧ (year % 100 ≠ 0 ∨ year % 400 = 0) := by
    simp [inLeapYear]
  rw [hsum, dayFromYear, dayFromYear]
  split_ifs with h
  · rw [hleap] at h
    omega
  · rw [hleap] at h
    omega

theorem locate_spec {lengths : List ℕ} {day : ℕ} (h : day < lengths.sum) :
    (locate lengths day).1 < lengths.length ∧
      (∃ length ∈ lengths, (locate lengths day).2 < length) ∧
      (lengths.take (locate lengths day).1).sum + (locate lengths day).2 = day := by
  induction lengths generalizing day with
  | nil => cases h
  | cons length lengths ih =>
      unfold locate
      split_ifs with hlt
      · exact ⟨Nat.succ_pos _, ⟨length, List.mem_cons_self, hlt⟩, Nat.zero_add _⟩
      · rw [List.sum_cons] at h
        obtain ⟨hmonth, ⟨other, hm, hdate⟩, hsum⟩ := @ih (day - length) (by omega)
        refine ⟨Nat.succ_lt_succ hmonth, ⟨other, List.mem_cons_of_mem _ hm, hdate⟩, ?_⟩
        rw [List.take_succ_cons, List.sum_cons]
        omega

theorem le_of_mem_monthLengths {leap : Bool} : ∀ length ∈ monthLengths leap, length ≤ 31 := by
  cases leap <;> decide

-- Fields within their bounds.
structure Fields.Valid (fields : Fields) : Prop where
  year : fields.year.natAbs < 1000000
  month : fields.month < 12
  date : fields.date < 31
  ms : fields.ms < 86400000

theorem day_located (day : ℤ) :
    (day - dayFromYear (yearFromDay day)).toNat <
      (monthLengths (inLeapYear (yearFromDay day))).sum := by
  have hyear := dayFromYear_yearFromDay day
  have hsum := sum_monthLengths (yearFromDay day)
  omega

theorem time_fields (ms : ℤ) : (fields ms).time = ms := by
  have hyear := dayFromYear_yearFromDay (ms / msPerDay)
  obtain ⟨-, -, hsum⟩ := locate_spec (day_located (ms / msPerDay))
  simp only [fields, Fields.time, makeDay]
  unfold msPerDay at *
  omega

theorem valid_fields (time : Time) : (fields time.ms).Valid := by
  have hlower := time.lower
  have hupper := time.upper
  have hyear := dayFromYear_yearFromDay (time.ms / msPerDay)
  have hmean := dayFromYear_mean (yearFromDay (time.ms / msPerDay))
  have hmean' := dayFromYear_mean (yearFromDay (time.ms / msPerDay) + 1)
  obtain ⟨hmonth, ⟨length, hm, hdate⟩, -⟩ := locate_spec (day_located (time.ms / msPerDay))
  have hlength := le_of_mem_monthLengths length hm
  unfold msPerDay maxTime at *
  refine ⟨?_, hmonth, by simp only [fields, msPerDay]; omega, ?_⟩
  · simp only [fields, msPerDay]
    omega
  · simp only [fields, msPerDay]
    omega

-- Digits are read back.

theorem toNat_digit : ∀ n < 10, (digit n).toNat - 48 = n := by decide

@[simp] theorem length_padded (width n : ℕ) : (padded width n).length = width := by
  induction width generalizing n with
  | zero => rfl
  | succ width ih => simp [padded, ih]

theorem number_padded (width n : ℕ) (h : n < 10 ^ width) : number (padded width n) = n := by
  induction width generalizing n with
  | zero => simp only [pow_zero, Nat.lt_one_iff] at h; simp [h, padded, number]
  | succ width ih =>
      have hhead := ih (n / 10) (by rw [pow_succ] at h; omega)
      unfold number at hhead
      rw [padded, number, List.foldl_append, hhead, List.foldl_cons, List.foldl_nil,
        toNat_digit (n % 10) (Nat.mod_lt _ (by decide))]
      omega

theorem take_padded (width n : ℕ) (rest : List Char) :
    (padded width n ++ rest).take width = padded width n := by
  rw [List.take_left' (length_padded width n)]

theorem drop_padded (width n : ℕ) (rest : List Char) :
    (padded width n ++ rest).drop width = rest := by
  rw [List.drop_left' (length_padded width n)]

theorem readYear_of_ne {c : Char} (hminus : c ≠ '-') (hplus : c ≠ '+') (rest : List Char) :
    readYear (c :: rest) = ((number ((c :: rest).take 4) : ℤ), (c :: rest).drop 4) := by
  unfold readYear
  split
  next heq => exact absurd (List.cons.inj heq).1 hminus
  next heq => exact absurd (List.cons.inj heq).1 hplus
  next => rfl

theorem digit_ne_sign : ∀ n < 10, digit n ≠ '-' ∧ digit n ≠ '+' := by decide

theorem readYear_padded (n : ℕ) (rest : List Char) :
    readYear (padded 4 n ++ rest) = ((number (padded 4 n) : ℤ), rest) := by
  have hsign := digit_ne_sign (n / 10 / 10 / 10 % 10) (Nat.mod_lt _ (by decide))
  have hcons : padded 4 n ++ rest =
      digit (n / 10 / 10 / 10 % 10) :: ((padded 4 n).tail ++ rest) := rfl
  rw [hcons, readYear_of_ne hsign.1 hsign.2, ← hcons, take_padded, drop_padded]

theorem readYear_yearText {year : ℤ} (h : year.natAbs < 1000000) (rest : List Char) :
    readYear (yearText year ++ rest) = (year, rest) := by
  have hnumber := number_padded 6 year.natAbs h
  unfold yearText
  split_ifs with hshort hneg
  · rw [readYear_padded, number_padded 4 year.natAbs (by omega)]
    exact Prod.ext (by dsimp only; omega) rfl
  · rw [List.cons_append, readYear, take_padded, drop_padded, hnumber]
    exact Prod.ext (by dsimp only; omega) rfl
  · rw [List.cons_append, readYear, take_padded, drop_padded, hnumber]
    exact Prod.ext (by dsimp only; omega) rfl

theorem readFields_text {fields : Fields} (h : fields.Valid) :
    readFields fields.text = fields := by
  have hmonth := number_padded 2 (fields.month + 1) (by have := h.month; omega)
  have hdate := number_padded 2 (fields.date + 1) (by have := h.date; omega)
  have hhours := number_padded 2 (fields.ms / 3600000) (by have := h.ms; omega)
  have hminutes := number_padded 2 (fields.ms / 60000 % 60) (by omega)
  have hseconds := number_padded 2 (fields.ms / 1000 % 60) (by omega)
  have hms := number_padded 3 (fields.ms % 1000) (by omega)
  rw [readFields, Fields.text, readYear_yearText h.year]
  simp only [padded, List.nil_append, List.cons_append, List.drop_succ_cons, List.drop_zero,
    List.take_succ_cons, List.take_zero] at *
  rw [hmonth, hdate, hhours, hminutes, hseconds, hms]
  obtain ⟨year, month, date, ms⟩ := fields
  simp only [Fields.mk.injEq, Nat.add_sub_cancel, true_and]
  omega

-- The text of a time is read as that time.
theorem parse_toISOString (other : String → Option Time) (time : Time) :
    parse other (toISOString time) = some time := by
  have hread : (readFields (toISOString time).toList).time = time.ms := by
    rw [toISOString, String.toList_ofList, readFields_text (valid_fields time), time_fields]
  have hofMs : ofMs time.ms = some time := by
    unfold ofMs
    rw [dif_pos ⟨time.lower, time.upper⟩]
  unfold parse
  rw [hread, hofMs]
  dsimp only
  rw [if_pos rfl]

end JsDate
