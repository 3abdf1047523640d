import ApiContract.Calendar.Day
import Mathlib.Order.Monotone.Basic

/-!
Day numbers and dates are inverse to each other.

The day of an era is split into the year of the era and the day of that year by one quotient. The
quotient grows with the day, so it is enough to know it for the first and the last day of each of
the 400 years.
-/

namespace ApiContract.Calendar

def yearStart (year : Nat) : Nat := year * 365 + year / 4 - year / 100

/-- Whether the year, which is counted from March, ends with a leap day. -/
def endsLeap (year : Nat) : Bool :=
  (year + 1) % 4 == 0 && ((year + 1) % 100 != 0 || (year + 1) % 400 == 0)

def yearLength (year : Nat) : Nat := if endsLeap year then 366 else 365

def yearOfDay (day : Nat) : Nat := (day - day / 1460 + day / 36524 - day / 146096) / 365

theorem yearOfDay_mono : Monotone yearOfDay :=
  monotone_nat_of_le_succ fun day => Nat.div_le_div_right (by omega)

theorem yearOfDay_bounds : ∀ year < 400, yearOfDay (yearStart year) = year ∧
    yearOfDay (yearStart year + yearLength year - 1) = year := by
  decide +kernel

theorem yearStart_succ : ∀ year < 399, yearStart (year + 1) = yearStart year + yearLength year := by
  decide +kernel

theorem exists_year {day : Nat} (inEra : day < 146097) :
    ∃ year < 400, yearStart year ≤ day ∧ day < yearStart year + yearLength year := by
  have within (years : Nat) (few : years ≤ 399)
      (early : day < yearStart years + yearLength years) :
      ∃ year < 400, yearStart year ≤ day ∧ day < yearStart year + yearLength year := by
    induction years with
    | zero => exact ⟨0, by decide, Nat.zero_le _, early⟩
    | succ years ih =>
      by_cases later : yearStart (years + 1) ≤ day
      · exact ⟨years + 1, by omega, later, early⟩
      · exact ih (by omega) (by rw [← yearStart_succ years (by omega)]; omega)
  exact within 399 (Nat.le_refl _) inEra

theorem yearOfDay_spec {day : Nat} (inEra : day < 146097) :
    yearOfDay day < 400 ∧ yearStart (yearOfDay day) ≤ day ∧
      day < yearStart (yearOfDay day) + yearLength (yearOfDay day) := by
  obtain ⟨year, inRange, start, stop⟩ := exists_year inEra
  obtain ⟨first, last⟩ := yearOfDay_bounds year inRange
  have least : year ≤ yearOfDay day := first ▸ yearOfDay_mono start
  have most : yearOfDay day ≤ year := by
    have upTo : day ≤ yearStart year + yearLength year - 1 := by omega
    exact (yearOfDay_mono upTo).trans_eq last
  obtain rfl := Nat.le_antisymm least most
  exact ⟨inRange, start, stop⟩

/-- The month that a day of the year lies in, counted from March. -/
def monthOfDay (day : Nat) : Nat := (5 * day + 2) / 153

def monthStart (month : Nat) : Nat := (153 * month + 2) / 5

def calendarMonth (month : Nat) : Nat := if month < 10 then month + 3 else month - 9

theorem monthStart_le (day : Nat) : monthStart (monthOfDay day) ≤ day := by
  unfold monthStart monthOfDay
  omega

theorem monthOfDay_lt {day : Nat} (inYear : day < 366) : monthOfDay day < 12 := by
  unfold monthOfDay
  omega

theorem calendarMonth_spec {month : Nat} (inYear : month < 12) :
    1 ≤ calendarMonth month ∧ calendarMonth month ≤ 12 ∧
      ((calendarMonth month : Int) + 9) % 12 = month := by
  unfold calendarMonth
  split <;> omega

theorem day_le_daysInMonth (year : Int) : ∀ day < 366,
    (day = 365 → isLeapYear year = true) →
      day - monthStart (monthOfDay day) + 1 ≤
        daysInMonth year (calendarMonth (monthOfDay day)) := by
  unfold daysInMonth
  generalize isLeapYear year = leap
  revert leap
  decide +kernel

/-- The date of a day in some month of some year of an era, years and months being counted from
March. -/
def dateOf (era : Int) (year month day : Nat) : Date where
  year := if calendarMonth month ≤ 2 then year + era * 400 + 1 else year + era * 400
  month := calendarMonth month
  day

theorem isLeapYear_of_endsLeap {era : Int} {year : Nat} (leap : endsLeap year = true) :
    isLeapYear (year + era * 400 + 1) = true := by
  simp only [endsLeap, isLeapYear, Bool.and_eq_true, Bool.or_eq_true, beq_iff_eq, bne_iff_ne]
    at leap ⊢
  omega

theorem dayNumber_dateOf {era : Int} {year month day : Nat} (inEra : year < 400)
    (inYear : month < 12) :
    (dateOf era year month (day + 1)).dayNumber =
      era * daysPerEra + (yearStart year + (monthStart month + day)) - 719468 := by
  obtain ⟨-, -, asMonth⟩ := calendarMonth_spec inYear
  have marchYear : (if calendarMonth month ≤ 2 then (dateOf era year month (day + 1)).year - 1
      else (dateOf era year month (day + 1)).year) = year + era * 400 := by
    unfold dateOf
    split <;> simp
  have ofEra : (year + era * 400) / 400 = era := by omega
  have inEra : (year + era * 400) % 400 = year := by omega
  have start : (yearStart year : Int) = year * 365 + year / 4 - year / 100 := by
    unfold yearStart
    omega
  have sameMonth : (dateOf era year month (day + 1)).month = calendarMonth month := rfl
  have sameDay : (dateOf era year month (day + 1)).day = day + 1 := rfl
  simp only [Date.dayNumber, sameMonth, sameDay, marchYear, ofEra, inEra, asMonth, start,
    monthStart]
  omega

theorem ofDayNumber_eq (n : Int) :
    ∃ (era : Int) (day : Nat), day < 146097 ∧ n = era * daysPerEra + day - 719468 ∧
      Date.ofDayNumber n = dateOf era (yearOfDay day) (monthOfDay (day - yearStart (yearOfDay day)))
        (day - yearStart (yearOfDay day) -
          monthStart (monthOfDay (day - yearStart (yearOfDay day))) + 1) := by
  refine ⟨(n + 719468) / daysPerEra, ((n + 719468) % daysPerEra).toNat, ?_, ?_, ?_⟩
  · unfold daysPerEra
    omega
  · unfold daysPerEra
    omega
  · unfold Date.ofDayNumber yearStart
    simp only [Nat.mul_comm 365]
    rfl

/-- The date of a day number is a date of the calendar, and its number is that number. -/
theorem Date.ofDayNumber_spec (n : Int) :
    (Date.ofDayNumber n).Valid ∧ (Date.ofDayNumber n).dayNumber = n := by
  obtain ⟨era, day, inEra, rfl, same⟩ := ofDayNumber_eq n
  obtain ⟨inRange, start, stop⟩ := yearOfDay_spec inEra
  rw [same]
  generalize yearOfDay day = year at inRange start stop ⊢
  obtain ⟨rest, rfl⟩ := Nat.exists_eq_add_of_le start
  simp only [Nat.add_sub_cancel_left]
  have inYear : rest < 366 := by
    unfold yearLength at stop
    split at stop <;> omega
  have inMonths := monthOfDay_lt inYear
  obtain ⟨least, most, -⟩ := calendarMonth_spec inMonths
  refine ⟨⟨least, most, Nat.le_add_left 1 _, day_le_daysInMonth _ rest inYear ?_⟩, ?_⟩
  · rintro rfl
    have leap : endsLeap year = true := by
      by_contra common
      simp [yearLength, common] at stop
    exact isLeapYear_of_endsLeap leap
  · rw [dayNumber_dateOf inRange inMonths]
    have split := monthStart_le rest
    omega

end ApiContract.Calendar
