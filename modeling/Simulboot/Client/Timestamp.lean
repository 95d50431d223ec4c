import Simulboot.Library.Checked
import Simulboot.Library.Gregorian
import Simulboot.Library.Numerals

/-!
# Timestamps

The time of a checkpoint: seconds since 1970 as a date and a time of day, and
their text.
-/

set_option autoImplicit false

namespace Simulboot

open Library Library.Gregorian

/-- A number with zeros in front of its digits, to a width. -/
def padded (width : Nat) : Int → Str
  | .ofNat n => List.replicate (width - (displayNat n).length) '0' ++ displayNat n
  | .negSucc n =>
      '-' :: (List.replicate (width - 1 - (displayNat (n + 1)).length) '0' ++ displayNat (n + 1))

/-- The date so many days after the first of January 1970, computed in `i64`. -/
def civilFromDays (days : Int) : Except ArithmeticError Date := do
  let z ← I64.add days 719468
  let era ← I64.div (← if 0 ≤ z then .ok z else I64.sub z 146096) 146097
  let doe ← I64.sub z (← I64.mul era 146097)
  let yoe ← I64.div
    (← I64.sub (← I64.add (← I64.sub doe (← I64.div doe 1460)) (← I64.div doe 36524))
      (← I64.div doe 146096)) 365
  let y ← I64.add yoe (← I64.mul era 400)
  let doy ← I64.sub doe
    (← I64.sub (← I64.add (← I64.mul 365 yoe) (← I64.div yoe 4)) (← I64.div yoe 100))
  let mp ← I64.div (← I64.add (← I64.mul 5 doy) 2) 153
  let d ← I64.add (← I64.sub doy (← I64.div (← I64.add (← I64.mul 153 mp) 2) 5)) 1
  let m ← if mp < 10 then I64.add mp 3 else I64.sub mp 9
  let year ← if m ≤ 2 then I64.add y 1 else .ok y
  return { year, month := m, day := d }

/-- The numbers that `formatEpochUtc` prints. -/
def epochUtc (secs : UInt64) : Except ArithmeticError DateTime := do
  let days := I64.ofUInt64 (secs / 86400)
  let rem := secs % 86400
  let date ← civilFromDays days
  return { date, hour := (rem / 3600).toNat, minute := (rem % 3600 / 60).toNat
           second := (rem % 60).toNat }

def rfc3339 (moment : DateTime) : Str :=
  padded 4 moment.date.year ++ '-' :: padded 2 moment.date.month ++ '-' :: padded 2 moment.date.day ++
    'T' :: padded 2 moment.hour ++ ':' :: padded 2 moment.minute ++ ':' :: padded 2 moment.second ++
    ['Z']

def formatEpochUtc (secs : UInt64) : Except ArithmeticError Str :=
  rfc3339 <$> epochUtc secs

/-- A clock that stands before 1970 counts as 1970. -/
def nowRfc3339 (sinceEpoch : Option UInt64) : Except ArithmeticError Str :=
  formatEpochUtc (sinceEpoch.getD 0)

/-! ## The computed date -/

private theorem yearOfEra_eq {century olympiad year rest day : Int} (centuries : 0 ≤ century ∧ century ≤ 3)
    (olympiads : 0 ≤ olympiad ∧ olympiad ≤ 24) (years : 0 ≤ year ∧ year ≤ 3)
    (days : 0 ≤ rest ∧ rest ≤ 365)
    (leapDay : rest = 365 → year = 3 ∧ (olympiad = 24 → century = 3))
    (split : day = 36524 * century + 1461 * olympiad + 365 * year + rest) :
    (day - day / 1460 + day / 36524 - day / 146096) / 365 =
      100 * century + 4 * olympiad + year := by
  have years : day / 36524 - day / 146096 = century := by
    by_cases last : day = 146096
    · omega
    · have noEra : day / 146096 = 0 := by omega
      have whole : day / 36524 = century := by omega
      omega
  obtain ⟨step, range, fours⟩ : ∃ step : Int,
      (0 ≤ step ∧ step ≤ 1 ∧ (rest = 365 → step = 1) ∧ (rest = 0 → step = 0)) ∧
        day / 1460 = 25 * century + olympiad + step := by
    by_cases early : 24 * century + olympiad + 365 * year + rest < 1460
    · exact ⟨0, by omega, by omega⟩
    · exact ⟨1, by omega, by omega⟩
  have withoutLeapDays : day - day / 1460 + day / 36524 - day / 146096 =
      365 * (100 * century + 4 * olympiad + year) + (rest - step) := by
    rw [fours]
    linarith
  rw [withoutLeapDays]
  clear withoutLeapDays fours
  omega

theorem civilFromDays_eq_ok {days era doe year doy march : Int}
    (split : days + 719468 = 146097 * era + doe) (inEra : 0 ≤ doe ∧ doe < 146097)
    (eras : 0 ≤ era ∧ era < 1000000000000)
    (yoe : (doe - doe / 1460 + doe / 36524 - doe / 146096) / 365 = year)
    (years : 0 ≤ year ∧ year ≤ 399)
    (inYear : doe - (365 * year + year / 4 - year / 100) = doy) (rest : 0 ≤ doy ∧ doy ≤ 365)
    (month : (5 * doy + 2) / 153 = march) :
    civilFromDays days =
      .ok (Date.fromMarch (year + era * 400) march (doy - (153 * march + 2) / 5 + 1)) := by
  revert yoe
  have z : I64.add days 719468 = .ok (146097 * era + doe) :=
    I64.add_eq_ok split ⟨by omega, by omega⟩
  have nonneg : 0 ≤ 146097 * era + doe := by omega
  have era_eq : I64.div (146097 * era + doe) 146097 = .ok era :=
    I64.div_eq_ok nonneg (by decide) (by omega) ⟨by omega, by omega⟩
  have start : I64.mul era 146097 = .ok (era * 146097) :=
    I64.mul_eq_ok rfl ⟨by omega, by omega⟩
  have doe_eq : I64.sub (146097 * era + doe) (era * 146097) = .ok doe :=
    I64.sub_eq_ok (by omega) ⟨by omega, by omega⟩
  have fours : I64.div doe 1460 = .ok (doe / 1460) :=
    I64.div_eq_ok inEra.1 (by decide) rfl ⟨by omega, by omega⟩
  have centuries : I64.div doe 36524 = .ok (doe / 36524) :=
    I64.div_eq_ok inEra.1 (by decide) rfl ⟨by omega, by omega⟩
  have eraEnd : I64.div doe 146096 = .ok (doe / 146096) :=
    I64.div_eq_ok inEra.1 (by decide) rfl ⟨by omega, by omega⟩
  have withoutFours : I64.sub doe (doe / 1460) = .ok (doe - doe / 1460) :=
    I64.sub_eq_ok rfl ⟨by omega, by omega⟩
  have withCenturies : I64.add (doe - doe / 1460) (doe / 36524) =
      .ok (doe - doe / 1460 + doe / 36524) :=
    I64.add_eq_ok rfl ⟨by omega, by omega⟩
  have wholeYears : I64.sub (doe - doe / 1460 + doe / 36524) (doe / 146096) =
      .ok (doe - doe / 1460 + doe / 36524 - doe / 146096) :=
    I64.sub_eq_ok rfl ⟨by omega, by omega⟩
  have bounds : 0 ≤ doe - doe / 1460 + doe / 36524 - doe / 146096 := by omega
  intro yoe
  have yoe_eq : I64.div (doe - doe / 1460 + doe / 36524 - doe / 146096) 365 = .ok year :=
    I64.div_eq_ok bounds (by decide) yoe (by clear yoe; exact ⟨by omega, by omega⟩)
  clear yoe
  have eraYears : I64.mul era 400 = .ok (era * 400) := I64.mul_eq_ok rfl ⟨by omega, by omega⟩
  have y : I64.add year (era * 400) = .ok (year + era * 400) :=
    I64.add_eq_ok rfl ⟨by omega, by omega⟩
  have yearDays : I64.mul 365 year = .ok (365 * year) := I64.mul_eq_ok rfl ⟨by omega, by omega⟩
  have leaps : I64.div year 4 = .ok (year / 4) :=
    I64.div_eq_ok years.1 (by decide) rfl ⟨by omega, by omega⟩
  have noLeaps : I64.div year 100 = .ok (year / 100) :=
    I64.div_eq_ok years.1 (by decide) rfl ⟨by omega, by omega⟩
  have withLeaps : I64.add (365 * year) (year / 4) = .ok (365 * year + year / 4) :=
    I64.add_eq_ok rfl ⟨by omega, by omega⟩
  have before : I64.sub (365 * year + year / 4) (year / 100) =
      .ok (365 * year + year / 4 - year / 100) :=
    I64.sub_eq_ok rfl ⟨by omega, by omega⟩
  have doy_eq : I64.sub doe (365 * year + year / 4 - year / 100) = .ok doy :=
    I64.sub_eq_ok inYear ⟨by omega, by omega⟩
  have fives : I64.mul 5 doy = .ok (5 * doy) := I64.mul_eq_ok rfl ⟨by omega, by omega⟩
  have fivesTwo : I64.add (5 * doy) 2 = .ok (5 * doy + 2) :=
    I64.add_eq_ok rfl ⟨by omega, by omega⟩
  have mp : I64.div (5 * doy + 2) 153 = .ok march :=
    I64.div_eq_ok (by omega) (by decide) month ⟨by omega, by omega⟩
  have monthDays : I64.mul 153 march = .ok (153 * march) :=
    I64.mul_eq_ok rfl ⟨by omega, by omega⟩
  have monthDaysTwo : I64.add (153 * march) 2 = .ok (153 * march + 2) :=
    I64.add_eq_ok rfl ⟨by omega, by omega⟩
  have monthStart : I64.div (153 * march + 2) 5 = .ok ((153 * march + 2) / 5) :=
    I64.div_eq_ok (by omega) (by decide) rfl ⟨by omega, by omega⟩
  have inMonth : I64.sub doy ((153 * march + 2) / 5) = .ok (doy - (153 * march + 2) / 5) :=
    I64.sub_eq_ok rfl ⟨by omega, by omega⟩
  have d : I64.add (doy - (153 * march + 2) / 5) 1 = .ok (doy - (153 * march + 2) / 5 + 1) :=
    I64.add_eq_ok rfl ⟨by omega, by omega⟩
  unfold civilFromDays Date.fromMarch
  simp only [z, bind, Except.bind, nonneg, ↓reduceIte, era_eq, start, doe_eq, fours, withoutFours,
    centuries, withCenturies, eraEnd, wholeYears, yoe_eq, eraYears, y, yearDays, leaps, withLeaps,
    noLeaps, before, doy_eq, fives, fivesTwo, mp, monthDays, monthDaysTwo, monthStart, inMonth, d]
  by_cases sameYear : march < 10
  · have m : I64.add march 3 = .ok (march + 3) := I64.add_eq_ok rfl ⟨by omega, by omega⟩
    have notEarly : ¬ march + 3 ≤ 2 := by omega
    simp only [sameYear, ↓reduceIte, m, notEarly, pure, Except.pure]
  · have m : I64.sub march 9 = .ok (march - 9) := I64.sub_eq_ok rfl ⟨by omega, by omega⟩
    have early : march - 9 ≤ 2 := by omega
    have next : I64.add (year + era * 400) 1 = .ok (year + era * 400 + 1) :=
      I64.add_eq_ok rfl ⟨by omega, by omega⟩
    simp only [sameYear, ↓reduceIte, m, early, next, pure, Except.pure]

private theorem civilFromDays_date (days : Int) (low : 0 ≤ days) (high : days < 1000000000000000) :
    ∃ date, civilFromDays days = .ok date ∧ date.Valid ∧ 1970 ≤ date.year ∧
      date.daysSinceEpoch = days := by
  obtain ⟨era, doe, inEra, eras, split⟩ : ∃ era doe : Int, (0 ≤ doe ∧ doe < 146097) ∧
      (0 ≤ era ∧ era < 1000000000000) ∧ days + 719468 = 146097 * era + doe :=
    ⟨(days + 719468) / 146097, (days + 719468) % 146097, by omega, by omega, by omega⟩
  obtain ⟨century, olympiad, year, doy, centuries, olympiads, years, rest, leapDay, ofDay⟩ :=
    exists_yearOfEra inEra.1 inEra.2
  have inYear : doe - (365 * (100 * century + 4 * olympiad + year) +
      (100 * century + 4 * olympiad + year) / 4 - (100 * century + 4 * olympiad + year) / 100) =
        doy := by
    have fours : (100 * century + 4 * olympiad + year) / 4 = 25 * century + olympiad := by omega
    have hundreds : (100 * century + 4 * olympiad + year) / 100 = century := by omega
    rw [fours, hundreds]
    omega
  have yoe := yearOfEra_eq centuries olympiads years rest leapDay ofDay
  have computed := civilFromDays_eq_ok split inEra eras yoe (by clear yoe; omega) inYear rest rfl
  have date := fromMarch_ofEra era centuries olympiads years rest leapDay rfl
    (by clear yoe computed; omega)
  have sameYear : 400 * era + 100 * century + 4 * olympiad + year =
      100 * century + 4 * olympiad + year + era * 400 := by ring
  rw [sameYear] at date
  exact ⟨_, computed, date.1, date.2.1, date.2.2.trans (by clear yoe computed date; omega)⟩

private theorem epochUtc_eq {secs : UInt64} {date : Date}
    (computed : civilFromDays (secs.toNat / 86400 : Nat) = .ok date) :
    epochUtc secs = .ok
      { date, hour := secs.toNat % 86400 / 3600, minute := secs.toNat % 86400 % 3600 / 60
        second := secs.toNat % 86400 % 60 } := by
  have days : (secs / 86400).toNat = secs.toNat / 86400 := by simp
  have small : (secs / 86400).toNat < 2 ^ 63 := by
    have range := secs.toNat_lt
    omega
  have hour : (secs % 86400 / 3600).toNat = secs.toNat % 86400 / 3600 := by simp
  have minute : (secs % 86400 % 3600 / 60).toNat = secs.toNat % 86400 % 3600 / 60 := by simp
  have second : (secs % 86400 % 60).toNat = secs.toNat % 86400 % 60 := by simp
  have cast : I64.ofUInt64 (secs / 86400) = (secs.toNat / 86400 : Nat) := by
    rw [I64.ofUInt64_eq small, days]
  unfold epochUtc
  dsimp only
  rw [cast, computed, hour, minute, second]
  rfl

theorem epochUtc_correct (secs : UInt64) :
    ∃ moment, epochUtc secs = .ok moment ∧ moment.Valid ∧ 1970 ≤ moment.date.year ∧
      moment.secondsSinceEpoch = secs.toNat := by
  have range := secs.toNat_lt
  obtain ⟨date, computed, valid, year, distance⟩ :=
    civilFromDays_date (secs.toNat / 86400 : Nat) (by omega) (by omega)
  refine ⟨_, epochUtc_eq computed, ?_, year, ?_⟩
  · exact ⟨valid, by dsimp only; omega, by dsimp only; omega, by dsimp only; omega⟩
  · unfold DateTime.secondsSinceEpoch
    rw [distance]
    dsimp only
    omega

/-- For every number of seconds the computed fields are a date and a time of day,
so many seconds after the beginning of 1970. -/
theorem formatEpochUtc_correct (secs : UInt64) :
    ∃ moment, epochUtc secs = .ok moment ∧ formatEpochUtc secs = .ok (rfc3339 moment) ∧
      moment.Valid ∧ 1970 ≤ moment.date.year ∧ moment.secondsSinceEpoch = secs.toNat := by
  obtain ⟨moment, fields, valid, year, distance⟩ := epochUtc_correct secs
  refine ⟨moment, fields, ?_, valid, year, distance⟩
  unfold formatEpochUtc
  rw [fields]
  rfl

example : formatEpochUtc 1782675849 = .ok "2026-06-28T19:44:09Z".toList := by decide +kernel

end Simulboot
