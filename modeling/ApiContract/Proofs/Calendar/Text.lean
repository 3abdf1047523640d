import ApiContract.Calendar.Reader
import ApiContract.Proofs.Calendar.Day
import Mathlib.Data.List.TakeWhile

/-!
The text of an instant is read back.

Every field of the text has the width that RFC 3339 fixes, so each reader takes its digits and
leaves the rest. What is lost is what the text does not show, the digits after the milliseconds.
-/

namespace ApiContract.Calendar

open Instant

variable {width n : Nat} {rest : List Char}

theorem length_padded (wide : 0 < width) (fits : n < Nat.pow 10 width) :
    (padded width n).length = width := by
  have short : (Nat.toDigits 10 n).length ≤ width :=
    (Nat.length_toDigits_le_iff (by decide) wide).mpr fits
  simp only [padded, List.length_append, List.length_replicate]
  omega

theorem isDigit_of_mem_padded {c : Char} (isChar : c ∈ padded width n) : c.isDigit = true := by
  rcases List.mem_append.mp isChar with zero | digit
  · rw [List.eq_of_mem_replicate zero]
    decide
  · exact Nat.isDigit_of_mem_toDigits (by decide) (by decide) digit

theorem ofDigits_padded (width n : Nat) : Decimal.ofDigits (padded width n) = n := by
  have zeros (count : Nat) : Decimal.ofDigits (List.replicate count '0') = 0 := by
    induction count with
    | zero => rfl
    | succ count ih => exact ih
  have split : Decimal.ofDigits (padded width n) =
      Nat.ofDigitChars 10 (Nat.toDigits 10 n) (Decimal.ofDigits (List.replicate _ '0')) :=
    Nat.ofDigitChars_append 0
  rw [split, zeros]
  exact Nat.ofDigitChars_ten_toDigits

theorem takeWhile_padded (width n : Nat) :
    (padded width n).takeWhile Char.isDigit = padded width n :=
  List.takeWhile_eq_self_iff.mpr fun _ => isDigit_of_mem_padded

theorem digitsWithin?_padded (wide : 0 < width) (fits : n < Nat.pow 10 width) :
    digitsWithin? width width (padded width n ++ rest) = some (n, rest) := by
  have length := length_padded wide fits
  simp [digitsWithin?, List.take_left' length, takeWhile_padded, length, ofDigits_padded,
    List.drop_left' length]

theorem mark?_cons {c : Char} : mark? c (c :: rest) = some rest := by
  simp [mark?]

theorem fraction?_padded {millis : Nat} (fits : millis < 1000) :
    fraction? ('.' :: (padded 3 millis ++ ['Z'])) = some (millis * nanosPerMilli, ['Z']) := by
  have length : (padded 3 millis).length = 3 := length_padded (by decide) fits
  have digits : ((padded 3 millis ++ ['Z']).take 9).takeWhile Char.isDigit = padded 3 millis := by
    rw [List.take_of_length_le (by simp [length]), List.takeWhile_append, takeWhile_padded,
      if_pos rfl]
    simp
  have some : padded 3 millis ≠ [] := List.ne_nil_of_length_pos (by simp [length])
  simp [fraction?, digits, some, length, ofDigits_padded, nanosPerMilli]

theorem bind_of_eq_some {α β : Type} {x : Option α} {a : α} {f : α → Option β}
    (found : x = some a) : (x >>= f) = f a := by
  rw [found]
  rfl

/-- The text of a date and a time of day in UTC. -/
def timeText (date clock : List Char) (millis : Nat) : List Char :=
  date ++ 'T' :: (clock ++ '.' :: (padded 3 millis ++ ['Z']))

def dateText (year month day : Nat) : List Char :=
  padded 4 year ++ '-' :: (padded 2 month ++ '-' :: padded 2 day)

def clockText (hour minute second : Nat) : List Char :=
  padded 2 hour ++ ':' :: (padded 2 minute ++ ':' :: padded 2 second)

/-- A text with fields of fixed width is read field by field. -/
theorem ofRfc3339?_timeText {year month day hour minute second millis : Nat}
    (fourDigits : year < 10000) (isMonth : month < 100) (isDay : day < 100) (isHour : hour < 100)
    (isMinute : minute < 100) (isSecond : second < 100) (isFraction : millis < 1000) :
    ofRfc3339? (timeText (dateText year month day) (clockText hour minute second) millis) =
      instant? ⟨year, month, day⟩ ⟨hour, minute, second, millis * nanosPerMilli⟩ 0 := by
  have two {n : Nat} (fits : n < 100) (rest : List Char) :
      digitsWithin? 2 2 (padded 2 n ++ rest) = some (n, rest) :=
    digitsWithin?_padded (by decide) fits
  have four (rest : List Char) : digitsWithin? 4 4 (padded 4 year ++ rest) = some (year, rest) :=
    digitsWithin?_padded (by decide) fourDigits
  have utc : offset? ['Z'] = some (0, []) := rfl
  simp only [timeText, dateText, clockText, List.append_assoc, List.cons_append]
  unfold ofRfc3339?
  refine (bind_of_eq_some (four _)).trans ?_
  refine (bind_of_eq_some mark?_cons).trans ?_
  refine (bind_of_eq_some (two isMonth _)).trans ?_
  refine (bind_of_eq_some mark?_cons).trans ?_
  refine (bind_of_eq_some (two isDay _)).trans ?_
  refine (if_pos (Or.inl rfl)).trans ?_
  refine (bind_of_eq_some rfl).trans ?_
  refine (bind_of_eq_some (two isHour _)).trans ?_
  refine (bind_of_eq_some mark?_cons).trans ?_
  refine (bind_of_eq_some (two isMinute _)).trans ?_
  refine (bind_of_eq_some mark?_cons).trans ?_
  refine (bind_of_eq_some (two isSecond _)).trans ?_
  refine (bind_of_eq_some (fraction?_padded isFraction)).trans ?_
  refine (bind_of_eq_some utc).trans ?_
  exact if_neg (by simp)

theorem isBlank_eq_false_of_isDigit {c : Char} (digit : c.isDigit = true) :
    Text.isBlank c = false := by
  simp only [Char.isDigit, Bool.and_eq_true, decide_eq_true_eq, ge_iff_le, UInt32.le_iff_toNat_le]
    at digit
  have least : 48 ≤ c.toNat := digit.1
  have most : c.toNat ≤ 57 := digit.2
  simp [Text.isBlank]
  omega

theorem trim_eq_self {cs : List Char}
    (starts : ∃ first rest, cs = first :: rest ∧ Text.isBlank first = false)
    (ends : ∃ init last, cs = init ++ [last] ∧ Text.isBlank last = false) : Text.trim cs = cs := by
  have start : Text.trimStart cs = cs := by
    obtain ⟨first, rest, rfl, shown⟩ := starts
    rw [Text.trimStart, List.dropWhile_cons_of_neg (by simp [shown])]
  obtain ⟨init, last, rfl, shown⟩ := ends
  rw [Text.trim, start, Text.trimEnd]
  simp [shown]

theorem trim_timeText {year month day : Nat} (fits : year < 10000) (clock : List Char)
    (millis : Nat) :
    Text.trim (timeText (dateText year month day) clock millis) =
      timeText (dateText year month day) clock millis := by
  obtain ⟨first, digits, padding⟩ : ∃ first digits, padded 4 year = first :: digits := by
    have length : (padded 4 year).length = 4 := length_padded (by decide) fits
    exact List.exists_cons_of_length_pos (by omega)
  have digit : first.isDigit = true := isDigit_of_mem_padded (by rw [padding]; exact .head _)
  refine trim_eq_self ⟨first, ?_, ?_, isBlank_eq_false_of_isDigit digit⟩ ⟨?_, 'Z', ?_, by decide⟩
  · exact digits ++ '-' :: (padded 2 month ++ '-' :: padded 2 day) ++
      'T' :: (clock ++ '.' :: (padded 3 millis ++ ['Z']))
  · simp [timeText, dateText, padding]
  · exact dateText year month day ++ 'T' :: (clock ++ '.' :: padded 3 millis)
  · simp [timeText]

namespace Instant

/-- The year in UTC. -/
def year (t : Instant) : Int := (Date.ofDayNumber (t.seconds / 86400)).year

/-- The instant without the digits after the milliseconds. -/
def truncated (t : Instant) : Instant where
  seconds := t.seconds
  nanos := t.nanos / nanosPerMilli * nanosPerMilli
  valid := by
    have less : t.nanos / nanosPerMilli * nanosPerMilli ≤ t.nanos := Nat.div_mul_le_self _ _
    exact t.valid.imp less.trans_lt fun valid => ⟨less.trans_lt valid.1, valid.2⟩

theorem toList_text (t : Instant) (least : 0 ≤ t.year) (most : t.year ≤ 9999) :
    ∃ (date : Date) (second : Nat), date = Date.ofDayNumber (t.seconds / 86400) ∧
      second = (t.seconds % 60).toNat + (if nanosPerSecond ≤ t.nanos then 1 else 0) ∧
      t.text.toList = timeText (dateText date.year.toNat date.month date.day)
        (clockText ((t.seconds % 86400).toNat / 3600) ((t.seconds % 86400).toNat / 60 % 60) second)
        (t.nanos % nanosPerSecond / nanosPerMilli) := by
  refine ⟨_, _, rfl, rfl, ?_⟩
  have inDay : (t.seconds % 86400).toNat % 60 = (t.seconds % 60).toNat := by omega
  have fourDigits : yearText (Date.ofDayNumber (t.seconds / 86400)).year =
      padded 4 (Date.ofDayNumber (t.seconds / 86400)).year.toNat := by
    rw [yearText, if_pos ⟨least, most⟩]
  simp [text, timeText, dateText, clockText, inDay, fourDigits]

theorem ofParts?_eq_some (t : Instant) : ofParts? t.seconds t.nanos = some t :=
  dif_pos t.valid

theorem instant?_eq_truncated (t : Instant) {date : Date} (valid : date.Valid)
    (inRange : leastYear ≤ date.year ∧ date.year ≤ greatestYear)
    (number : date.dayNumber = t.seconds / 86400) {second : Nat}
    (isSecond : second = (t.seconds % 60).toNat + if nanosPerSecond ≤ t.nanos then 1 else 0) :
    instant? date ⟨(t.seconds % 86400).toNat / 3600, (t.seconds % 86400).toNat / 60 % 60, second,
      t.nanos % nanosPerSecond / nanosPerMilli * nanosPerMilli⟩ 0 = some t.truncated := by
  have nanos := t.valid
  unfold nanosPerSecond at nanos isSecond
  have atMost : second ≤ 60 := by
    split at isSecond <;> omega
  have isLeap : second = 60 ↔ nanosPerSecond ≤ t.nanos := by
    unfold nanosPerSecond
    split at isSecond <;> omega
  have clock : (t.seconds % 86400).toNat / 3600 < 24 ∧
      (t.seconds % 86400).toNat / 60 % 60 < 60 := by omega
  unfold instant?
  rw [if_pos ⟨valid, inRange.1, inRange.2, clock.1, clock.2, atMost⟩]
  refine (congrArg₂ ofParts? ?_ ?_).trans (ofParts?_eq_some t.truncated)
  · simp only [number, truncated]
    split at isSecond <;> split <;> omega
  · unfold nanosPerSecond at isLeap
    simp only [truncated, nanosPerSecond, nanosPerMilli]
    split <;> omega

/-- The text of an instant in one of the years that have four digits is read as the instant, but for
the digits after the milliseconds. -/
theorem ofText?_text (t : Instant) (least : 0 ≤ t.year) (most : t.year ≤ 9999) :
    ofText? t.text = some t.truncated := by
  obtain ⟨date, second, isDate, isSecond, text⟩ := t.toList_text least most
  obtain ⟨valid, number⟩ : date.Valid ∧ date.dayNumber = t.seconds / 86400 := by
    rw [isDate]
    exact Date.ofDayNumber_spec _
  have year : date.year = t.year := congrArg Date.year isDate
  have fourDigits : date.year.toNat < 10000 := by omega
  have read : ofRfc3339? t.text.toList = some t.truncated := by
    have days : daysInMonth date.year date.month ≤ 31 := by
      unfold daysInMonth
      grind
    have millis : t.nanos % nanosPerSecond / nanosPerMilli < 1000 := by
      unfold nanosPerSecond nanosPerMilli
      omega
    have month : date.month ≤ 12 := valid.2.1
    have day : date.day ≤ daysInMonth date.year date.month := valid.2.2.2
    rw [text, ofRfc3339?_timeText fourDigits (by omega) (by omega) (by omega) (by omega)
      (by split at isSecond <;> omega) millis]
    have asInt : (date.year.toNat : Int) = date.year := by omega
    rw [asInt]
    exact instant?_eq_truncated t valid ⟨by unfold leastYear; omega, by unfold greatestYear; omega⟩
      number isSecond
  simp only [ofText?, text, trim_timeText fourDigits]
  rw [← text, read]
  rfl

end Instant

end ApiContract.Calendar
