import Pantoken.Lib.Gregorian
import Pantoken.Polytoken.HistorySeed

/-!
# Dates

The server turns counts of days into dates and back in three functions of its own, in years
that run from March to February so that the leap day comes last.  A machine integer that
overflows is a panic, here `none`.

## Main definitions

* `civilFromDaysI64`, `epochToCivil`, `daysFromCivil` — the code.
* `BackInRange` — the dates whose day `daysFromCivil` counts without an overflow.

## Main results

* `civilFromDaysI64_eq`, `epochToCivil_eq` — the date of a day is the one of the calendar, unless
  the arithmetic overflows.
* `daysFromCivil_eq` — and the day of a date.
-/

namespace Pantoken

open Gregorian

/-! ### Machine integers -/

/-- The value of `i64` arithmetic, unless it overflows. -/
def i64 (n : ℤ) : Option ℤ := if -2 ^ 63 ≤ n ∧ n < 2 ^ 63 then some n else none

/-- The value of `i32` arithmetic, unless it overflows. -/
def i32 (n : ℤ) : Option ℤ := if -2 ^ 31 ≤ n ∧ n < 2 ^ 31 then some n else none

theorem i64_of_mem {n : ℤ} (h : -2 ^ 63 ≤ n ∧ n < 2 ^ 63) : i64 n = some n := if_pos h

theorem i32_of_mem {n : ℤ} (h : -2 ^ 31 ≤ n ∧ n < 2 ^ 31) : i32 n = some n := if_pos h

/-! ### The code -/

/-- The era of `n` days or years that a number falls into, in the arithmetic of a machine
integer. -/
def eraOf (int : ℤ → Option ℤ) (n z : ℤ) : Option ℤ :=
  (if 0 ≤ z then some z else int (z - (n - 1))).map (·.tdiv n)

/-- The year of an era, the month and the day of a day of the era. -/
def civilOfEra (doe : ℕ) : ℕ × ℕ × ℕ :=
  let yoe := (doe - doe / 1460 + doe / 36524 - doe / 146096) / 365
  let doy := doe - (365 * yoe + yoe / 4 - yoe / 100)
  let mp := (5 * doy + 2) / 153
  (yoe, if mp < 10 then mp + 3 else mp - 9, doy - (153 * mp + 2) / 5 + 1)

/-- `civil_from_days`, of any count of days. -/
def civilFromDaysI64 (days : ℤ) : Option (ℤ × ℕ × ℕ) := do
  let z ← i64 (days + 719468)
  let era ← eraOf i64 146097 z
  let (yoe, m, d) := civilOfEra (z - era * 146097).toNat
  let y := yoe + era * 400
  some (if m ≤ 2 then y + 1 else y, m, d)

/-- `epoch_to_civil`.  The era goes into an `i32` before it becomes years. -/
def epochToCivil (secs : ℕ) : Option (ℤ × ℕ × ℕ × ℕ × ℕ × ℕ) := do
  let days := secs / 86400
  let timeSecs := secs % 86400
  let z := days + 719468
  let era := z / 146097
  let (yoe, mo, d) := civilOfEra (z - era * 146097)
  let y ← i32 (yoe + (← i32 ((era : ℤ).bmod (2 ^ 32) * 400)))
  let y ← if mo ≤ 2 then i32 (y + 1) else some y
  some (y, mo, d, timeSecs / 3600, timeSecs % 3600 / 60, timeSecs % 60)

/-- `days_from_civil` -/
def daysFromCivil (y : ℤ) (m d : ℕ) : Option (Option ℤ) :=
  if ¬ (1 ≤ m ∧ m ≤ 12) ∨ ¬ (1 ≤ d ∧ d ≤ 31) then some none
  else do
    let marchYear := if m ≤ 2 then i32 (y - 1) else some y
    let y ← marchYear
    let era ← eraOf i32 400 y
    let yoe := (y - era * 400).toNat
    let doy := (153 * (if m > 2 then m - 3 else m + 9) + 2) / 5 + d - 1
    let doe := yoe * 365 + yoe / 4 - yoe / 100 + doy
    some (some (era * 146097 + doe - 719468))

/-! ### Eras -/

/-- A truncating division is moved to the next era below for numbers that are negative. -/
theorem tdiv_floor (z : ℤ) {n : ℤ} (hn : 0 < n) :
    (if 0 ≤ z then z else z - (n - 1)).tdiv n = z / n := by
  split
  · next h => exact Int.tdiv_eq_ediv_of_nonneg h
  · next h =>
    have hneg : z - (n - 1) = -(n - 1 - z) := by omega
    rw [hneg, Int.neg_tdiv, Int.tdiv_eq_ediv_of_nonneg (by omega)]
    have hz := Int.emod_add_mul_ediv z n
    have hz' := Int.emod_add_mul_ediv (n - 1 - z) n
    have hpos := Int.emod_nonneg z hn.ne'
    have hlt := Int.emod_lt_of_pos z hn
    have hpos' := Int.emod_nonneg (n - 1 - z) hn.ne'
    have hlt' := Int.emod_lt_of_pos (n - 1 - z) hn
    -- the two quotients add up to nothing
    have hsum : n * (z / n + (n - 1 - z) / n) < n * 1 ∧
        n * (-1) < n * (z / n + (n - 1 - z) / n) := by
      rw [mul_add]
      omega
    have hle := lt_of_mul_lt_mul_left hsum.1 hn.le
    have hge := lt_of_mul_lt_mul_left hsum.2 hn.le
    omega

theorem eraOf_of_mem {int : ℤ → Option ℤ} {n z : ℤ} (hn : 0 < n)
    (h : z < 0 → int (z - (n - 1)) = some (z - (n - 1))) : eraOf int n z = some (z / n) := by
  rw [← tdiv_floor z hn, eraOf]
  split
  · rfl
  · next hz => rw [h (by omega), Option.map_some]

/-! ### The date of a day -/

/-- The day of an era on which a year of it begins. -/
def eraStart (yoe : ℕ) : ℕ := 365 * yoe + yoe / 4 - yoe / 100

theorem civilFromDays_eq_civilOfEra (days : ℕ) :
    civilFromDays days =
      let z := days + 719468
      let (yoe, m, d) := civilOfEra (z - z / 146097 * 146097)
      (if m ≤ 2 then yoe + z / 146097 * 400 + 1 else yoe + z / 146097 * 400, m, d) := rfl

/-- The year of a day of an era. -/
theorem yearOfEra_eq {k doy : ℕ} (hk : k < 400)
    (hdoy : eraStart k + doy < 365 * (k + 1) + (k + 1) / 4 - (k + 1) / 100 + (k + 1) / 400) :
    ((eraStart k + doy) - (eraStart k + doy) / 1460 + (eraStart k + doy) / 36524 -
      (eraStart k + doy) / 146096) / 365 = k := by
  obtain ⟨doe, hd⟩ : ∃ doe, doe = eraStart k + doy := ⟨_, rfl⟩
  rw [← hd]
  unfold eraStart at hd hdoy
  -- by the century of the era, the leap years of the century and the years after one
  obtain ⟨c, q, r, hc, hq, hr, rfl⟩ : ∃ c q r, c < 4 ∧ q < 25 ∧ r < 4 ∧ k = 100 * c + 4 * q + r :=
    ⟨k / 100, k % 100 / 4, k % 4, by omega, by omega, by omega, by omega⟩
  have hdoe : doe = 36524 * c + 1461 * q + 365 * r + doy := by omega
  have hlen : doy < 365 ∨ doy = 365 ∧ r = 3 ∧ (q < 24 ∨ c = 3) := by omega
  clear hd hdoy
  have hcentury : doe / 36524 = c + doe / 146096 := by
    obtain ⟨w, hw⟩ : ∃ w, w = 1461 * q + 365 * r + doy := ⟨_, rfl⟩
    have hle : w < 36524 ∨ w = 36524 ∧ c = 3 := by omega
    clear hlen
    omega
  obtain ⟨e, he⟩ : ∃ e, doe / 1460 = 25 * c + q + e := ⟨doe / 1460 - (25 * c + q), by omega⟩
  have hleap : 1460 * e ≤ 24 * c + q + 365 * r + doy ∧
      24 * c + q + 365 * r + doy < 1460 * (e + 1) := by omega
  omega

/-- The place of a date in its era. -/
theorem exists_era (d : Date) : ∃ (era : ℤ) (yoe : ℕ), yoe < 400 ∧ d.marchYear = 400 * era + yoe ∧
    d.dayNumber + 719468 = 146097 * era + (eraStart yoe + d.marchDay : ℕ) ∧
    eraStart yoe + d.marchDay < 146097 ∧
    civilOfEra (eraStart yoe + d.marchDay) = (yoe, d.month, d.day) := by
  have hday := d.dayNumber_eq_march
  obtain ⟨hlen, hmonth, hmonth'⟩ := marchDay_lt d
  obtain ⟨era, yoe, hyoe, hyear⟩ :
      ∃ (era : ℤ) (yoe : ℕ), yoe < 400 ∧ d.marchYear = 400 * era + yoe :=
    ⟨d.marchYear / 400, (d.marchYear % 400).toNat, by omega, by omega⟩
  unfold marchStart at hday hlen
  rw [hyear] at hday hlen
  have hstart : (eraStart yoe : ℤ) = 365 * yoe + yoe / 4 - yoe / 100 := by
    unfold eraStart
    omega
  have hlt : eraStart yoe + d.marchDay <
      365 * (yoe + 1) + (yoe + 1) / 4 - (yoe + 1) / 100 + (yoe + 1) / 400 := by omega
  refine ⟨era, yoe, hyoe, hyear, by omega, by omega, ?_⟩
  have hyo := yearOfEra_eq hyoe hlt
  have hdoy : eraStart yoe + d.marchDay - (365 * yoe + yoe / 4 - yoe / 100) = d.marchDay := by
    unfold eraStart
    omega
  have hmp : (5 * d.marchDay + 2) / 153 = d.marchMonth := by omega
  have hpos := d.day_pos
  have hm := d.month_pos
  have hm' := d.month_le
  simp only [civilOfEra, hyo, hdoy, hmp]
  refine Prod.ext rfl (Prod.ext ?_ ?_)
  · unfold Date.marchMonth
    simp only
    split_ifs <;> omega
  · unfold Date.marchDay
    simp only
    omega

/-- The year of a date, from the year that begins in March. -/
theorem Date.year_eq (d : Date) :
    (if d.month ≤ 2 then d.marchYear + 1 else d.marchYear) = d.year := by
  unfold Date.marchYear
  split_ifs <;> omega

/-- **The date of a day is the one of the calendar, unless the sum overflows.** -/
theorem civilFromDaysI64_eq (d : Date) (hlow : -2 ^ 63 ≤ d.dayNumber) :
    civilFromDaysI64 d.dayNumber =
      if d.dayNumber + 719468 < 2 ^ 63 then some (d.year, d.month, d.day) else none := by
  obtain ⟨era, yoe, hyoe, hyear, hday, hdoe, hcivil⟩ := exists_era d
  unfold civilFromDaysI64
  split
  · next hhigh =>
    have hera : eraOf i64 146097 (d.dayNumber + 719468) =
        some ((d.dayNumber + 719468) / 146097) :=
      eraOf_of_mem (by omega) fun h => i64_of_mem (by omega)
    rw [show (d.dayNumber + 719468) / 146097 = era by omega] at hera
    have hdoe' : (d.dayNumber + 719468 - era * 146097).toNat = eraStart yoe + d.marchDay := by omega
    have hyear' : (yoe : ℤ) + era * 400 = d.marchYear := by omega
    rw [i64_of_mem (by omega)]
    simp only [Option.bind_eq_bind, Option.bind_some, hera, hdoe', hcivil, hyear', Date.year_eq]
  · next hhigh =>
    have hover : i64 (d.dayNumber + 719468) = none := if_neg (by omega)
    rw [hover]
    rfl

/-- The dates of days from the epoch on. -/
theorem civilFromDays_eq {n : ℕ} {d : Date} (h : OnDay n d) :
    civilFromDays n = (d.year.toNat, d.month, d.day) ∧ 1969 ≤ d.marchYear := by
  obtain ⟨era, yoe, hyoe, hyear, hday, hdoe, hcivil⟩ := exists_era d
  rw [onDay_iff.mp h] at hday
  have hera : (((n + 719468) / 146097 : ℕ) : ℤ) = era := by omega
  have hdoe' : n + 719468 - (n + 719468) / 146097 * 146097 = eraStart yoe + d.marchDay := by omega
  have hge : 1969 ≤ d.marchYear := by
    have hlen := (marchDay_lt d).1
    have hn := d.dayNumber_eq_march
    rw [onDay_iff.mp h] at hn
    unfold marchStart at hlen hn
    omega
  rw [civilFromDays_eq_civilOfEra]
  simp only [hdoe', hcivil]
  refine ⟨Prod.ext ?_ rfl, hge⟩
  have hy := Date.year_eq d
  simp only
  split_ifs at hy ⊢ <;> omega

/-- **So is the date of a time since the epoch, unless its year is none of the machine.** -/
theorem epochToCivil_eq {secs : ℕ} {d : Date} (h : OnDay (secs / 86400 : ℕ) d)
    (hsecs : secs < 2 ^ 64) : epochToCivil secs =
      if d.year < 2 ^ 31 then some (d.year, d.month, d.day, secs % 86400 / 3600,
        secs % 86400 % 3600 / 60, secs % 86400 % 60) else none := by
  obtain ⟨era, yoe, hyoe, hyear, hday, hdoe, hcivil⟩ := exists_era d
  obtain ⟨-, hge⟩ := civilFromDays_eq h
  rw [onDay_iff.mp h] at hday
  obtain ⟨n, hn⟩ : ∃ n, n = secs / 86400 := ⟨_, rfl⟩
  have hlt : n < 2 ^ 48 := by omega
  rw [← hn] at hday
  have hera : (((n + 719468) / 146097 : ℕ) : ℤ) = era := by omega
  have hdoe' : n + 719468 - (n + 719468) / 146097 * 146097 = eraStart yoe + d.marchDay := by omega
  have hbmod : era.bmod (2 ^ 32) = era := by
    rw [Int.bmod_eq_of_le] <;> omega
  have hy := Date.year_eq d
  unfold epochToCivil
  simp only [← hn, hdoe', hcivil, hera, hbmod, Option.bind_eq_bind]
  have hsum : (yoe : ℤ) + era * 400 = d.marchYear := by omega
  by_cases hlast : d.marchYear < 2 ^ 31
  · rw [i32_of_mem (n := era * 400) (by omega), Option.bind_some, hsum, i32_of_mem (by omega),
      Option.bind_some]
    split at hy
    · next hm =>
      rw [if_pos hm, hy]
      split
      · rw [i32_of_mem (by omega), Option.bind_some]
      · rw [show i32 d.year = none from if_neg (by omega)]
        rfl
    · next hm =>
      rw [if_neg hm, if_pos (by omega), Option.bind_some, hy]
  · have hyear' : ¬ d.year < 2 ^ 31 := by
      split at hy <;> omega
    rw [if_neg hyear']
    by_cases hfit : era * 400 < 2 ^ 31
    · rw [i32_of_mem (n := era * 400) (by omega), Option.bind_some, hsum,
        show i32 d.marchYear = none from if_neg (by omega)]
      rfl
    · rw [show i32 (era * 400) = none from if_neg (by omega)]
      rfl

/-! ### The day of a date -/

/-- The year that begins in March is far enough from the first year of the machine. -/
def BackInRange (d : Date) : Prop := -2 ^ 31 + 399 ≤ d.marchYear

instance (d : Date) : Decidable (BackInRange d) := inferInstanceAs (Decidable (_ ≤ _))

/-- **The day of a date is counted back, unless its year is next to the first of the machine.** -/
theorem daysFromCivil_eq (d : Date) (hlow : -2 ^ 31 ≤ d.year) (hhigh : d.year < 2 ^ 31) :
    daysFromCivil d.year d.month d.day =
      if BackInRange d then some (some d.dayNumber) else none := by
  have hm := d.month_pos
  have hm' := d.month_le
  have hk := d.day_pos
  have hk' : d.day ≤ 31 := by
    have := d.day_le
    have := monthLength_le d.year d.month
    omega
  have hpart : (if d.month ≤ 2 then i32 (d.year - 1) else some d.year) = i32 d.marchYear := by
    unfold Date.marchYear
    split
    · rfl
    · rw [i32_of_mem (by omega)]
  have hmonth : (if d.month > 2 then d.month - 3 else d.month + 9) = d.marchMonth := by
    unfold Date.marchMonth
    split_ifs <;> omega
  have hday := d.dayNumber_eq_march
  unfold daysFromCivil
  rw [if_neg (by omega)]
  simp only [hpart, hmonth]
  have hle : d.marchYear ≤ d.year := by
    unfold Date.marchYear
    split <;> omega
  split
  · next hback =>
    unfold BackInRange at hback
    have hera : eraOf i32 400 d.marchYear = some (d.marchYear / 400) :=
      eraOf_of_mem (by omega) fun h => i32_of_mem (by omega)
    rw [i32_of_mem (by omega)]
    simp only [Option.bind_eq_bind, Option.bind_some, hera, Option.some.injEq]
    rw [hday]
    unfold marchStart Date.marchDay
    omega
  · next hback =>
    unfold BackInRange at hback
    by_cases hfit : -2 ^ 31 ≤ d.marchYear
    · have hover : eraOf i32 400 d.marchYear = none := by
        rw [eraOf, if_neg (by omega), show i32 (d.marchYear - (400 - 1)) = none from
          if_neg (by omega)]
        rfl
      rw [i32_of_mem (by omega)]
      simp only [Option.bind_eq_bind, Option.bind_some, hover, Option.bind_none]
    · rw [show i32 d.marchYear = none from if_neg (by omega)]
      rfl

end Pantoken
