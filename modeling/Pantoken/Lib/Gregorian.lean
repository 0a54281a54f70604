import Mathlib.Data.Int.Basic
import Mathlib.Data.Prod.Lex
import Mathlib.Tactic.IntervalCases

/-!
# The Gregorian calendar

The calendar is a succession of dates: the day after a date is the next day of its month, or the
first of the next month, or the first of the next year.  Days are counted from the first of
January 1970, in both directions, and the count has a closed form.

## Main definitions

* `Date` — a year, a month of it and a day of that month.
* `Date.next` — the day after.
* `OnDay` — the date of a day, by counting from the epoch.
* `Date.dayNumber` — the closed form of the count.

## Main results

* `onDay_iff`, `existsUnique_onDay` — **each day has one date, and the closed form counts it.**
* `Date.dayNumber_lt_iff` — days are in the order of their year, month and day.
-/

namespace Pantoken.Gregorian

/-! ### Dates -/

def IsLeap (y : ℤ) : Prop := 4 ∣ y ∧ (¬ 100 ∣ y ∨ 400 ∣ y)

instance (y : ℤ) : Decidable (IsLeap y) := inferInstanceAs (Decidable (_ ∧ _))

def february (y : ℤ) : ℕ := if IsLeap y then 29 else 28

/-- The days of a month. -/
def monthLength (y : ℤ) : ℕ → ℕ
  | 2 => february y
  | 4 | 6 | 9 | 11 => 30
  | _ => 31

theorem monthLength_pos (y : ℤ) (m : ℕ) : 0 < monthLength y m := by
  unfold monthLength
  split
  · unfold february
    split <;> omega
  all_goals omega

theorem monthLength_le (y : ℤ) (m : ℕ) : monthLength y m ≤ 31 := by
  unfold monthLength
  split
  · unfold february
    split <;> omega
  all_goals omega

@[ext] structure Date where
  year : ℤ
  month : ℕ
  day : ℕ
  month_pos : 1 ≤ month
  month_le : month ≤ 12
  day_pos : 1 ≤ day
  day_le : day ≤ monthLength year month

/-- The day after. -/
def Date.next (d : Date) : Date :=
  if hd : d.day < monthLength d.year d.month then
    { d with day := d.day + 1, day_pos := by omega, day_le := hd }
  else if hm : d.month < 12 then
    { d with
      month := d.month + 1
      day := 1
      month_pos := by omega
      month_le := hm
      day_pos := le_rfl
      day_le := monthLength_pos d.year (d.month + 1) }
  else ⟨d.year + 1, 1, 1, le_rfl, by omega, le_rfl, monthLength_pos _ _⟩

/-- The first of January 1970. -/
def epoch : Date := ⟨1970, 1, 1, le_rfl, by omega, le_rfl, monthLength_pos _ _⟩

/-- The date of a day, by counting from the epoch. -/
inductive OnDay : ℤ → Date → Prop
  | epoch : OnDay 0 epoch
  | next {n d} : OnDay n d → OnDay (n + 1) d.next
  | previous {n d} : OnDay (n + 1) d.next → OnDay n d

/-! ### The count of the days -/

/-- The days from the year 1 to a year. -/
def yearStart (y : ℤ) : ℤ := 365 * (y - 1) + (y - 1) / 4 - (y - 1) / 100 + (y - 1) / 400

/-- The days of a year before a month. -/
def daysBefore (y : ℤ) : ℕ → ℕ
  | 0 | 1 => 0
  | m + 2 => daysBefore y (m + 1) + monthLength y (m + 1)

/-- The days from the epoch to a date. -/
def Date.dayNumber (d : Date) : ℤ :=
  yearStart d.year + daysBefore d.year d.month + d.day - 719163

theorem daysBefore_succ {y : ℤ} {m : ℕ} (hm : 1 ≤ m) :
    daysBefore y (m + 1) = daysBefore y m + monthLength y m := by
  obtain ⟨m, rfl⟩ := Nat.exists_eq_add_of_le' hm
  rfl

/-- The leap days are counted by the years that four divides, without those that a hundred
divides, with those that four hundred divides. -/
theorem february_eq (y : ℤ) : (february y : ℤ) =
    28 + (y / 4 - (y - 1) / 4) - (y / 100 - (y - 1) / 100) + (y / 400 - (y - 1) / 400) := by
  unfold february
  split
  · next h =>
    obtain ⟨h4, h100⟩ := h
    omega
  · next h =>
    simp only [IsLeap, not_and_or] at h
    omega

theorem yearStart_succ (y : ℤ) : yearStart (y + 1) = yearStart y + 337 + february y := by
  rw [february_eq]
  unfold yearStart
  omega

theorem daysBefore_twelve (y : ℤ) : daysBefore y 12 = 306 + february y := by
  simp only [daysBefore, monthLength]
  omega

theorem dayNumber_next (d : Date) : d.next.dayNumber = d.dayNumber + 1 := by
  have hpos := d.month_pos
  have hle := d.day_le
  unfold Date.next
  split
  · simp only [Date.dayNumber]
    omega
  · split
    · simp only [Date.dayNumber]
      rw [daysBefore_succ hpos]
      omega
    · have hmonth : d.month = 12 := by
        have := d.month_le
        omega
      have hday : d.day = 31 := by
        have hlen : monthLength d.year d.month = 31 := by
          rw [hmonth]
          rfl
        omega
      simp only [Date.dayNumber, yearStart_succ, hmonth, hday, daysBefore_twelve, daysBefore]
      omega

theorem daysBefore_mono {y : ℤ} {m m' : ℕ} (h : m ≤ m') : daysBefore y m ≤ daysBefore y m' := by
  induction h with
  | refl => exact le_rfl
  | step h ih =>
    rename_i k
    cases k with
    | zero => exact ih
    | succ k =>
      rw [daysBefore]
      omega

/-- A day of a month comes before the next month. -/
theorem daysBefore_add_lt {y : ℤ} {m m' k : ℕ} (hm : 1 ≤ m) (h : m < m')
    (hk : k ≤ monthLength y m) : daysBefore y m + k ≤ daysBefore y m' := by
  have hmono := daysBefore_mono (y := y) (show m + 1 ≤ m' from h)
  rw [daysBefore_succ hm] at hmono
  omega

/-- A date is in its year. -/
theorem Date.dayNumber_mem (d : Date) :
    yearStart d.year - 719163 < d.dayNumber ∧
      d.dayNumber ≤ yearStart (d.year + 1) - 719163 := by
  have hpos := d.day_pos
  have hle : daysBefore d.year d.month + d.day ≤ daysBefore d.year 12 + 31 := by
    rcases Nat.lt_or_ge d.month 12 with h | h
    · have := daysBefore_add_lt (y := d.year) d.month_pos h d.day_le
      omega
    · have hmonth : d.month = 12 := by
        have := d.month_le
        omega
      have hday := d.day_le
      rw [hmonth] at hday ⊢
      exact Nat.add_le_add_left hday _
  rw [daysBefore_twelve] at hle
  rw [yearStart_succ]
  unfold Date.dayNumber
  omega

theorem yearStart_mono {y y' : ℤ} (h : y ≤ y') : yearStart y ≤ yearStart y' := by
  unfold yearStart
  omega

/-- A date before the start of a year is in an earlier one. -/
theorem Date.year_lt {d : Date} {y : ℤ} (h : d.dayNumber ≤ yearStart y - 719163) : d.year < y := by
  by_contra hge
  have hmem := d.dayNumber_mem.1
  have hstart := yearStart_mono (Int.not_lt.mp hge)
  omega

/-- A date of an earlier year, month or day comes earlier. -/
theorem Date.dayNumber_lt {d e : Date}
    (h : d.year < e.year ∨ d.year = e.year ∧ (d.month < e.month ∨
      d.month = e.month ∧ d.day < e.day)) : d.dayNumber < e.dayNumber := by
  rcases h with hyear | ⟨hyear, hmonth | ⟨hmonth, hday⟩⟩
  · have hd := d.dayNumber_mem
    have he := e.dayNumber_mem
    have := yearStart_mono (show d.year + 1 ≤ e.year from hyear)
    omega
  · have hle := daysBefore_add_lt (y := d.year) d.month_pos hmonth d.day_le
    have hpos := e.day_pos
    unfold Date.dayNumber
    rw [← hyear]
    omega
  · unfold Date.dayNumber
    rw [← hyear, ← hmonth]
    omega

/-- Days are in the order of their year, month and day. -/
theorem Date.dayNumber_lt_iff (d e : Date) : d.dayNumber < e.dayNumber ↔
    d.year < e.year ∨ d.year = e.year ∧ (d.month < e.month ∨
      d.month = e.month ∧ d.day < e.day) := by
  refine ⟨fun h => ?_, Date.dayNumber_lt⟩
  by_contra hle
  rcases eq_or_ne d e with rfl | hne
  · omega
  · have hgt : e.dayNumber < d.dayNumber := by
      apply Date.dayNumber_lt
      have hdiff : ¬ (d.year = e.year ∧ d.month = e.month ∧ d.day = e.day) := by
        rintro ⟨hy, hm, hd⟩
        exact hne (Date.ext hy hm hd)
      omega
    omega

theorem Date.dayNumber_inj {d e : Date} (h : d.dayNumber = e.dayNumber) : d = e := by
  have hd := d.dayNumber_lt_iff e
  have he := e.dayNumber_lt_iff d
  apply Date.ext <;> omega

/-! ### The date of a day -/

/-- There is no first date. -/
theorem exists_next_eq (d : Date) : ∃ e : Date, e.next = d := by
  have hday := d.day_pos
  have hmonth := d.month_pos
  have hle := d.day_le
  suffices h : ∃ e : Date, e.dayNumber + 1 = d.dayNumber by
    obtain ⟨e, he⟩ := h
    exact ⟨e, Date.dayNumber_inj (by rw [dayNumber_next, he])⟩
  rcases Nat.lt_or_ge 1 d.day with h | h
  · refine ⟨⟨d.year, d.month, d.day - 1, hmonth, d.month_le, by omega, by omega⟩, ?_⟩
    simp only [Date.dayNumber]
    omega
  · rcases Nat.lt_or_ge 1 d.month with h' | h'
    · have hle := d.month_le
      refine ⟨⟨d.year, d.month - 1, monthLength d.year (d.month - 1), by omega, by omega,
        monthLength_pos _ _, le_rfl⟩, ?_⟩
      have hsucc := daysBefore_succ (y := d.year) (m := d.month - 1) (by omega)
      rw [Nat.sub_add_cancel hmonth] at hsucc
      simp only [Date.dayNumber]
      omega
    · refine ⟨⟨d.year - 1, 12, 31, by omega, le_rfl, by omega, le_rfl⟩, ?_⟩
      have hstart := yearStart_succ (d.year - 1)
      rw [Int.sub_add_cancel] at hstart
      have hfirst : d.month = 1 := by omega
      have htwelve := daysBefore_twelve (d.year - 1)
      simp only [Date.dayNumber, hfirst, show daysBefore d.year 1 = 0 from rfl]
      omega

theorem dayNumber_of_onDay {n : ℤ} {d : Date} (h : OnDay n d) : d.dayNumber = n := by
  induction h with
  | epoch => decide
  | next _ ih => rw [dayNumber_next, ih]
  | previous _ ih =>
    rw [dayNumber_next] at ih
    omega

theorem exists_onDay (n : ℤ) : ∃ d, OnDay n d := by
  induction n using Int.induction_on with
  | zero => exact ⟨_, .epoch⟩
  | succ n ih =>
    obtain ⟨d, hd⟩ := ih
    exact ⟨_, hd.next⟩
  | pred n ih =>
    obtain ⟨d, hd⟩ := ih
    obtain ⟨e, rfl⟩ := exists_next_eq d
    refine ⟨e, OnDay.previous ?_⟩
    rwa [Int.sub_add_cancel]

/-- **The closed form counts the days.** -/
theorem onDay_iff {n : ℤ} {d : Date} : OnDay n d ↔ d.dayNumber = n := by
  refine ⟨dayNumber_of_onDay, fun h => ?_⟩
  obtain ⟨e, he⟩ := exists_onDay n
  have heq : e = d := Date.dayNumber_inj (by rw [dayNumber_of_onDay he, h])
  rwa [← heq]

/-- **Each day has one date.** -/
theorem existsUnique_onDay (n : ℤ) : ∃! d, OnDay n d := by
  obtain ⟨d, hd⟩ := exists_onDay n
  refine ⟨d, hd, fun e he => ?_⟩
  apply Date.dayNumber_inj
  rw [onDay_iff.mp he, onDay_iff.mp hd]

/-! ### Years from March to February -/

/-- The year a date is in when the leap day comes last. -/
def Date.marchYear (d : Date) : ℤ := if d.month ≤ 2 then d.year - 1 else d.year

/-- The months since March. -/
def Date.marchMonth (d : Date) : ℕ := if d.month ≤ 2 then d.month + 9 else d.month - 3

/-- The days since the first of March. -/
def Date.marchDay (d : Date) : ℕ := (153 * d.marchMonth + 2) / 5 + d.day - 1

/-- The days from the first of March of the year 0 to that of a year. -/
def marchStart (y : ℤ) : ℤ := 365 * y + y / 4 - y / 100 + y / 400

/-- The days since the first of March are those of the calendar. -/
theorem daysBefore_march (d : Date) : (d.marchDay : ℤ) + marchStart d.marchYear =
    yearStart d.year + daysBefore d.year d.month + d.day + 305 := by
  obtain ⟨y, m, k, hm, hm', hk, hk'⟩ := d
  have hday : 1 ≤ k := hk
  have hleap := february_eq y
  unfold Date.marchDay Date.marchYear Date.marchMonth marchStart yearStart
  simp only at hm hm' ⊢
  clear hk'
  interval_cases m <;> simp only [daysBefore, monthLength, Nat.reduceLeDiff, if_true, if_false] <;>
    omega

theorem Date.dayNumber_eq_march (d : Date) :
    d.dayNumber = marchStart d.marchYear + d.marchDay - 719468 := by
  have h := daysBefore_march d
  unfold Date.dayNumber
  omega

/-- The months since March begin in a regular way. -/
theorem marchDay_lt (d : Date) :
    marchStart d.marchYear + d.marchDay < marchStart (d.marchYear + 1) ∧
      5 * d.marchDay + 2 < 153 * (d.marchMonth + 1) ∧ 153 * d.marchMonth ≤ 5 * d.marchDay + 2 := by
  obtain ⟨y, m, k, hm, hm', hk, hk'⟩ := d
  have hleap := february_eq y
  unfold Date.marchDay Date.marchYear Date.marchMonth marchStart
  simp only at hm hm' hk hk' ⊢
  interval_cases m <;> simp only [monthLength] at hk' <;>
    simp only [Nat.reduceLeDiff, if_true, if_false, Int.sub_add_cancel] <;> omega

end Pantoken.Gregorian
