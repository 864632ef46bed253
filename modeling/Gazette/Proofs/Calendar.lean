import Gazette.Time.Calendar
import Mathlib.Order.Monotone.Basic
import Mathlib.Tactic.Common
import Mathlib.Tactic.IntervalCases

/-!
# The order of dates

The count of days and the date go up together. A date is found in three steps, from the day to the
period, from there to a year that starts in March, and from there to the month. Each step keeps
the order.
-/
namespace Gazette.CivilDate

def IsBefore (a b : CivilDate) : Prop :=
  a.year < b.year ∨
    a.year = b.year ∧ (a.month < b.month ∨ a.month = b.month ∧ a.day < b.day)

/-- The first day of a year, counted from the start of the period. -/
def yearStart (year : Nat) : Nat :=
  365 * year + year / 4 - year / 100 + year / 400

/-- A day of a period, less the leap days before it. -/
def plainDay (day : Nat) : Nat :=
  day - day / 1460 + day / 36524 - day / 146096

theorem plainDay_mono : Monotone plainDay := by
  refine monotone_nat_of_le_succ fun day => ?_
  unfold plainDay
  omega

/-- Among the plain days, every year starts after as many times 365 days as there are years before
it. -/
theorem plainDay_yearStart :
    ∀ year < 400, 365 * year ≤ plainDay (yearStart year) ∧
      plainDay (yearStart (year + 1) - 1) < 365 * (year + 1) := by
  decide +kernel

/-- The year that is found for a day of a period is the one that the day is in. -/
theorem year_of_day {day : Nat} (h : day < 146097) :
    plainDay day / 365 < 400 ∧ yearStart (plainDay day / 365) ≤ day ∧
      day < yearStart (plainDay day / 365 + 1) := by
  generalize hyear : plainDay day / 365 = year
  have hlast : plainDay day ≤ plainDay 146096 := plainDay_mono (Nat.le_of_lt_succ h)
  have hbound : year < 400 := by
    have : plainDay 146096 = 145999 := rfl
    omega
  refine ⟨hbound, ?_, ?_⟩
  · by_contra hearly
    cases year with
    | zero => exact hearly (Nat.zero_le _)
    | succ year =>
        have hmono : plainDay day ≤ plainDay (yearStart (year + 1) - 1) :=
          plainDay_mono (by omega)
        have hend := (plainDay_yearStart year (by omega)).2
        omega
  · by_contra hlate
    have hmono : plainDay (yearStart (year + 1)) ≤ plainDay day := plainDay_mono (by omega)
    have hnext : year + 1 < 400 := by
      by_contra hlast
      obtain rfl : year = 399 := by omega
      exact hlate h
    have hstart := (plainDay_yearStart (year + 1) hnext).1
    omega

/-- The day of its period that a day is. -/
def periodDay (days : Int) : Nat :=
  ((days + 719468) % 146097).toNat

/-- The year of a day, if every year starts in March. -/
def marchYear (days : Int) : Int :=
  (days + 719468) / 146097 * 400 + (plainDay (periodDay days) / 365 : Nat)

/-- The number of days since the last first of March. -/
def marchDay (days : Int) : Nat :=
  periodDay days - yearStart (plainDay (periodDay days) / 365)

theorem periodDay_lt (days : Int) : periodDay days < 146097 := by
  unfold periodDay
  omega

theorem marchDay_lt (days : Int) : marchDay days < 366 := by
  have hyear := year_of_day (periodDay_lt days)
  unfold marchDay
  unfold yearStart at *
  omega

theorem march_lt {a b : Int} (h : a < b) :
    marchYear a < marchYear b ∨ marchYear a = marchYear b ∧ marchDay a < marchDay b := by
  have ha := year_of_day (periodDay_lt a)
  have hb := year_of_day (periodDay_lt b)
  by_cases hperiod : (a + 719468) / 146097 < (b + 719468) / 146097
  · left
    unfold marchYear
    omega
  · have hsame : (a + 719468) / 146097 = (b + 719468) / 146097 := by omega
    have hday : periodDay a < periodDay b := by
      unfold periodDay
      omega
    have hyear : plainDay (periodDay a) / 365 ≤ plainDay (periodDay b) / 365 :=
      Nat.div_le_div_right (plainDay_mono hday.le)
    unfold marchYear marchDay
    rcases hyear.lt_or_eq with hless | hequal
    · omega
    · refine .inr ⟨by rw [hsame, hequal], ?_⟩
      rw [hequal] at ha ⊢
      omega

def ofMarch (year : Int) (day : Nat) : CivilDate :=
  let shiftedMonth := (5 * day + 2) / 153
  let month := if shiftedMonth < 10 then shiftedMonth + 3 else shiftedMonth - 9
  { year := year + (if month ≤ 2 then 1 else 0)
    month := month
    day := day - (153 * shiftedMonth + 2) / 5 + 1 }

theorem ofDays_eq (days : Int) : ofDays days = ofMarch (marchYear days) (marchDay days) := by
  have hyear := (year_of_day (periodDay_lt days)).1
  have hleap : plainDay (periodDay days) / 365 / 400 = 0 := Nat.div_eq_of_lt hyear
  unfold ofMarch marchYear marchDay yearStart
  rw [hleap]
  rfl

/-- Counting months goes on over the end of the year, wherever the year starts. -/
theorem ofMarch_month (year : Int) {day : Nat} (h : day < 366) :
    12 * (ofMarch year day).year + (ofMarch year day).month =
        12 * year + ((5 * day + 2) / 153 : Nat) + 3 ∧
      1 ≤ (ofMarch year day).month ∧ (ofMarch year day).month ≤ 12 := by
  have hmonth : (5 * day + 2) / 153 < 12 := by omega
  simp only [ofMarch]
  split
  · rw [if_neg (by omega)]
    omega
  · rw [if_pos (by omega)]
    omega

theorem ofMarch_isBefore {year next : Int} {day later : Nat} (hday : day < 366)
    (hlater : later < 366) (h : year < next ∨ year = next ∧ day < later) :
    (ofMarch year day).IsBefore (ofMarch next later) := by
  have hmonth := ofMarch_month year hday
  have hnext := ofMarch_month next hlater
  have hdays : (5 * day + 2) / 153 = (5 * later + 2) / 153 → day < later →
      (ofMarch year day).day < (ofMarch next later).day := by
    simp only [ofMarch]
    omega
  unfold IsBefore
  omega

theorem ofDays_bounds (days : Int) : (ofDays days).month < 100 ∧ (ofDays days).day < 100 := by
  have hday := marchDay_lt days
  have hmonth := ofMarch_month (marchYear days) hday
  rw [ofDays_eq]
  refine ⟨by omega, ?_⟩
  simp only [ofMarch]
  omega

theorem ofDays_isBefore {a b : Int} (h : a < b) : (ofDays a).IsBefore (ofDays b) := by
  rw [ofDays_eq, ofDays_eq]
  exact ofMarch_isBefore (marchDay_lt a) (marchDay_lt b) (march_lt h)

/-- A period has a leap day less than its hundreds of years, so its first days tell the year. -/
theorem marchYear_emod (days : Int) :
    marchYear days / 400 = (days + 719468) / 146097 ∧
      marchYear days % 400 = (plainDay (periodDay days) / 365 : Nat) := by
  have hyear := (year_of_day (periodDay_lt days)).1
  unfold marchYear
  omega

/-- A date shows the year that starts in March, and the day of that year. -/
theorem ofMarch_back (year : Int) {day : Nat} (h : day < 366) :
    (if (ofMarch year day).month ≤ 2 then (ofMarch year day).year - 1
      else (ofMarch year day).year) = year ∧
    (153 * (((ofMarch year day).month + 9) % 12) + 2) / 5 + (ofMarch year day).day - 1 = day := by
  have hmonth : (5 * day + 2) / 153 < 12 := by omega
  simp only [ofMarch]
  split
  · have hshift : ((5 * day + 2) / 153 + 3 + 9) % 12 = (5 * day + 2) / 153 := by omega
    rw [hshift, if_neg (by omega), if_neg (by omega)]
    omega
  · have hshift : ((5 * day + 2) / 153 - 9 + 9) % 12 = (5 * day + 2) / 153 := by omega
    rw [hshift, if_pos (by omega), if_pos (by omega)]
    omega

theorem toDays_ofDays (days : Int) : (ofDays days).toDays = days := by
  obtain ⟨hback, hcount⟩ := ofMarch_back (marchYear days) (marchDay_lt days)
  obtain ⟨hperiod, hyear⟩ := marchYear_emod days
  obtain ⟨hbound, hstart, -⟩ := year_of_day (periodDay_lt days)
  simp only [ofDays_eq, toDays, hback, hcount, hperiod, hyear]
  unfold marchDay
  have hday : (periodDay days : Int) = (days + 719468) % 146097 := by
    unfold periodDay
    omega
  unfold yearStart at *
  omega

theorem isLeapYear_iff {year : Int} :
    isLeapYear year = true ↔ year % 4 = 0 ∧ (year % 100 ≠ 0 ∨ year % 400 = 0) := by
  simp [isLeapYear]

theorem marchDay_lt_or (days : Int) :
    marchDay days < 365 ∨ isLeapYear (marchYear days + 1) = true := by
  obtain ⟨-, hyear⟩ := marchYear_emod days
  obtain ⟨hbound, hstart, hend⟩ := year_of_day (periodDay_lt days)
  rw [isLeapYear_iff]
  unfold marchDay
  generalize plainDay (periodDay days) / 365 = year at *
  unfold yearStart at *
  omega

theorem isValid_iff {date : CivilDate} :
    date.isValid = true ↔
      1 ≤ date.month ∧ date.month ≤ 12 ∧ 1 ≤ date.day ∧
        date.day ≤ daysInMonth date.year date.month := by
  simp [isValid, and_assoc]

theorem isValid_ofMarch {year : Int} {day : Nat} (h : day < 366)
    (hleap : day < 365 ∨ isLeapYear (year + 1) = true) : (ofMarch year day).isValid = true := by
  obtain ⟨shifted, hshifted⟩ : ∃ shifted, (5 * day + 2) / 153 = shifted := ⟨_, rfl⟩
  have hmonth : shifted < 12 := by omega
  rw [isValid_iff]
  simp only [ofMarch, hshifted, daysInMonth]
  interval_cases shifted <;> simp <;> try omega
  split
  · omega
  · have hshort := hleap.resolve_right ‹_›
    omega

theorem isValid_ofDays (days : Int) : (ofDays days).isValid = true := by
  rw [ofDays_eq]
  exact isValid_ofMarch (marchDay_lt days) (marchDay_lt_or days)

end Gazette.CivilDate
