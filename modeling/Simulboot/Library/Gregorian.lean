import Mathlib.Algebra.BigOperators.Intervals
import Mathlib.Algebra.Order.Group.Int
import Mathlib.Data.Int.SuccPred
import Mathlib.Tactic.IntervalCases
import Mathlib.Tactic.Linarith
import Mathlib.Tactic.Ring

/-!
# The Gregorian calendar

Dates and times of the proleptic Gregorian calendar in UTC, counted from the
first of January 1970. Years that begin in March end with the day that a leap
year adds, so days are found in such years.
-/

set_option autoImplicit false

namespace Library.Gregorian

open Finset

/-! ## Dates -/

def IsLeap (year : Int) : Prop :=
  4 ∣ year ∧ (¬ 100 ∣ year ∨ 400 ∣ year)

instance (year : Int) : Decidable (IsLeap year) :=
  inferInstanceAs (Decidable (_ ∧ _))

def yearLength (year : Int) : Int :=
  if IsLeap year then 366 else 365

def monthLength (year month : Int) : Int :=
  if month = 2 then if IsLeap year then 29 else 28
  else if month = 4 ∨ month = 6 ∨ month = 9 ∨ month = 11 then 30
  else 31

/-- The sum over the numbers from the first one up to below the last, and
backwards where the last one lies before the first. -/
def sumFrom (f : Int → Int) (first last : Int) : Int :=
  ∑ n ∈ range (last - first).toNat, f (first + n) -
    ∑ n ∈ range (first - last).toNat, f (last + n)

structure Date where
  year : Int
  month : Int
  day : Int
  deriving DecidableEq, Repr

namespace Date

structure Valid (date : Date) : Prop where
  month : 1 ≤ date.month ∧ date.month ≤ 12
  day : 1 ≤ date.day ∧ date.day ≤ monthLength date.year date.month

/-- The days from the first of January 1970, negative before it. -/
def daysSinceEpoch (date : Date) : Int :=
  sumFrom yearLength 1970 date.year + sumFrom (monthLength date.year) 1 date.month +
    (date.day - 1)

end Date

structure DateTime where
  date : Date
  hour : Nat
  minute : Nat
  second : Nat
  deriving DecidableEq, Repr

namespace DateTime

structure Valid (moment : DateTime) : Prop where
  date : moment.date.Valid
  hour : moment.hour < 24
  minute : moment.minute < 60
  second : moment.second < 60

def secondsSinceEpoch (moment : DateTime) : Int :=
  86400 * moment.date.daysSinceEpoch +
    (3600 * moment.hour + 60 * moment.minute + moment.second : Nat)

end DateTime

/-! ## Years and months in closed form -/

theorem sumFrom_self (f : Int → Int) (first : Int) : sumFrom f first first = 0 := by
  simp [sumFrom]

theorem sumFrom_add_one (f : Int → Int) (first last : Int) :
    sumFrom f first (last + 1) = sumFrom f first last + f last := by
  unfold sumFrom
  rcases le_or_gt first last with forward | backward
  · have count : (last + 1 - first).toNat = (last - first).toNat + 1 := by omega
    have reached : first + ((last - first).toNat : Int) = last := by omega
    have none : (first - (last + 1)).toNat = 0 ∧ (first - last).toNat = 0 := by omega
    rw [count, sum_range_succ, reached, none.1, none.2, range_zero, sum_empty, sum_empty]
    ring
  · have count : (first - last).toNat = (first - (last + 1)).toNat + 1 := by omega
    have none : (last + 1 - first).toNat = 0 ∧ (last - first).toNat = 0 := by omega
    have shifted : ∀ n : Nat, f (last + (n + 1 : Nat)) = f (last + 1 + n) := by
      intro n
      congr 1
      push_cast
      ring
    rw [count, sum_range_succ', none.1, none.2, range_zero, sum_empty]
    simp only [shifted, Nat.cast_zero, add_zero]
    ring

/-- The leap years up to a year, but for a constant. -/
def leapsThrough (year : Int) : Int :=
  year / 4 - year / 100 + year / 400

theorem yearLength_eq (year : Int) :
    yearLength year = 365 + (leapsThrough year - leapsThrough (year - 1)) := by
  unfold yearLength leapsThrough
  by_cases leap : IsLeap year
  · rw [if_pos leap]
    unfold IsLeap at leap
    omega
  · rw [if_neg leap]
    unfold IsLeap at leap
    omega

theorem sumFrom_yearLength (first last : Int) :
    sumFrom yearLength first last =
      365 * (last - first) + (leapsThrough (last - 1) - leapsThrough (first - 1)) := by
  induction last using Int.inductionOn' (b := first) with
  | zero => simp [sumFrom_self]
  | succ last range ih =>
      rw [sumFrom_add_one, ih, yearLength_eq, add_sub_cancel_right]
      ring
  | pred last range ih =>
      have next := sumFrom_add_one yearLength first (last - 1)
      rw [sub_add_cancel, ih, yearLength_eq] at next
      linarith

theorem sumFrom_monthLength (year : Int) {march : Int} (low : 0 ≤ march) (high : march ≤ 9) :
    sumFrom (monthLength year) 1 (march + 3) =
      59 + (if IsLeap year then 1 else 0) + (153 * march + 2) / 5 := by
  induction march, low using Int.leInduction with
  | base =>
      have february : sumFrom (monthLength year) 1 3 =
          monthLength year 1 + monthLength year 2 := by
        simp [sumFrom, sum_range_succ]
      rw [zero_add, february]
      by_cases leap : IsLeap year <;> simp [monthLength, leap]
  | succ march low ih =>
      have next : march + 1 + 3 = march + 3 + 1 := by ring
      rw [next, sumFrom_add_one, ih (by omega)]
      have range : march ≤ 8 := by omega
      unfold monthLength
      interval_cases march <;> split_ifs <;> omega

/-! ## Years from March on -/

/-- The date of a day in a year that begins in March. -/
def Date.fromMarch (year march day : Int) : Date :=
  if march < 10 then { year, month := march + 3, day }
  else { year := year + 1, month := march - 9, day }

private theorem year_fromMarch (year day : Int) {march : Int} (low : 0 ≤ march) (high : march ≤ 11) :
    (Date.fromMarch year march day).year = year + march / 10 := by
  unfold Date.fromMarch
  split <;> dsimp only <;> omega

private theorem daysSinceEpoch_fromMarch {year march : Int} (day : Int) (low : 0 ≤ march)
    (high : march ≤ 11) :
    (Date.fromMarch year march day).daysSinceEpoch =
      365 * year + leapsThrough year + (153 * march + 2) / 5 + (day - 1) - 719468 := by
  have before : leapsThrough (1970 - 1) = 477 := by decide
  unfold Date.fromMarch Date.daysSinceEpoch
  by_cases sameYear : march < 10
  · have leapDay := yearLength_eq year
    unfold yearLength at leapDay
    rw [if_pos sameYear]
    dsimp only
    rw [sumFrom_yearLength, sumFrom_monthLength year low (by omega), before]
    split_ifs at leapDay ⊢ <;> omega
  · have months : sumFrom (monthLength (year + 1)) 1 (march - 9) = 31 * (march - 10) := by
      obtain rfl | rfl : march = 10 ∨ march = 11 := by omega
      · simp [sumFrom]
      · simp [sumFrom, monthLength]
    rw [if_neg sameYear]
    dsimp only
    rw [months, sumFrom_yearLength, before, add_sub_cancel_right]
    omega

/-- A day of the year that falls in a month from March on, where the last day is
there only in front of a leap year. -/
theorem valid_fromMarch {year day march : Int} (low : 0 ≤ day) (high : day ≤ 365)
    (leapDay : day = 365 → IsLeap (year + 1)) (month : (5 * day + 2) / 153 = march) :
    (Date.fromMarch year march (day - (153 * march + 2) / 5 + 1)).Valid := by
  unfold Date.fromMarch
  by_cases sameYear : march < 10
  · rw [if_pos sameYear]
    refine ⟨by simp only; omega, ?_⟩
    simp only [monthLength]
    split_ifs <;> omega
  · rw [if_neg sameYear]
    refine ⟨by simp only; omega, ?_⟩
    by_cases last : day = 365
    · simp only [monthLength, leapDay last]
      split_ifs <;> omega
    · simp only [monthLength]
      split_ifs <;> omega

/-- A day of an era of 400 years lies in a century, in four years of it, and in
one of these. The last day of a year is there only in front of a leap year. -/
theorem exists_yearOfEra {day : Int} (low : 0 ≤ day) (high : day < 146097) :
    ∃ century olympiad year rest : Int, (0 ≤ century ∧ century ≤ 3) ∧
      (0 ≤ olympiad ∧ olympiad ≤ 24) ∧ (0 ≤ year ∧ year ≤ 3) ∧ (0 ≤ rest ∧ rest ≤ 365) ∧
      (rest = 365 → year = 3 ∧ (olympiad = 24 → century = 3)) ∧
      day = 36524 * century + 1461 * olympiad + 365 * year + rest := by
  obtain ⟨century, behind, centuryRange, behindRange, split⟩ :
      ∃ century behind : Int, (0 ≤ century ∧ century ≤ 3) ∧
        (0 ≤ behind ∧ behind ≤ 36524 ∧ (behind = 36524 → century = 3)) ∧
        day = 36524 * century + behind :=
    ⟨min (day / 36524) 3, day - 36524 * min (day / 36524) 3, by omega, by omega, by omega⟩
  obtain ⟨olympiad, days, olympiadRange, daysRange, splitCentury⟩ :
      ∃ olympiad days : Int, (0 ≤ olympiad ∧ olympiad ≤ 24) ∧ (0 ≤ days ∧ days ≤ 1460) ∧
        behind = 1461 * olympiad + days :=
    ⟨behind / 1461, behind % 1461, by omega, by omega, by omega⟩
  refine ⟨century, olympiad, min (days / 365) 3, days - 365 * min (days / 365) 3, centuryRange,
    olympiadRange, by omega, by omega, by omega, by omega⟩

/-- The date of a day that is given by its era and its place there. -/
theorem fromMarch_ofEra (era : Int) {century olympiad year rest march : Int}
    (centuries : 0 ≤ century ∧ century ≤ 3) (olympiads : 0 ≤ olympiad ∧ olympiad ≤ 24)
    (years : 0 ≤ year ∧ year ≤ 3) (days : 0 ≤ rest ∧ rest ≤ 365)
    (leapDay : rest = 365 → year = 3 ∧ (olympiad = 24 → century = 3))
    (month : (5 * rest + 2) / 153 = march)
    (since : 719468 ≤ 146097 * era + 36524 * century + 1461 * olympiad + 365 * year + rest) :
    let date := Date.fromMarch (400 * era + 100 * century + 4 * olympiad + year) march
      (rest - (153 * march + 2) / 5 + 1)
    date.Valid ∧ 1970 ≤ date.year ∧ date.daysSinceEpoch =
      146097 * era + 36524 * century + 1461 * olympiad + 365 * year + rest - 719468 := by
  have fours : (400 * era + 100 * century + 4 * olympiad + year) / 4 =
      100 * era + 25 * century + olympiad := by omega
  have hundreds : (400 * era + 100 * century + 4 * olympiad + year) / 100 = 4 * era + century := by
    omega
  have eras : (400 * era + 100 * century + 4 * olympiad + year) / 400 = era := by omega
  refine ⟨?_, ?_, ?_⟩
  · refine valid_fromMarch days.1 days.2 (fun last => ?_) month
    obtain ⟨lastOfFour, inLast⟩ := leapDay last
    unfold IsLeap
    omega
  · rw [year_fromMarch _ _ (by omega) (by omega)]
    by_contra early
    by_cases lastYear : 400 * era + 100 * century + 4 * olympiad + year = 1969
    · have inYear : era = 4 ∧ century = 3 ∧ olympiad = 17 ∧ year = 1 := by omega
      omega
    · have before : 400 * era + 100 * century + 4 * olympiad + year ≤ 1968 := by omega
      omega
  · rw [daysSinceEpoch_fromMarch _ (by omega) (by omega)]
    unfold leapsThrough
    rw [fours, hundreds, eras]
    omega

end Library.Gregorian
