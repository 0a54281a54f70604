import Mathlib.Algebra.Order.Ring.Rat
import Mathlib.Data.Int.Log
import Mathlib.Data.Rat.Floor
import Mathlib.Tactic.FieldSimp
import Mathlib.Tactic.GCongr
import Mathlib.Tactic.Linarith
import Mathlib.Tactic.NormNum

/-!
# Rounded arithmetic

A computation that rounds each of its results is off by no more than a factor of the sizes that it
adds up, and the factor grows with each rounding.

## Main definitions

* `RelErr u round` — `round` is off by no more than the fraction `u` of a number.
* `Near c t a x` — `a` is computed for `x`, which is of size `t`, with the factor `c`.
* `binary64` — the nearest number with a mantissa of 53 bits, ties to the even one.

## Main results

* `Near.add`, `Near.round` — **what an addition and a rounding do to the factor.**
* `relErr_binary64` — the error of a double.
* `one_add_pow_le` — the factor after some roundings.
-/

namespace Pantoken.Rounding

/-! ### Errors that add up -/

/-- The results of a rounding are off by no more than a fraction. -/
def RelErr (u : ℚ) (round : ℚ → ℚ) : Prop := ∀ x, |round x - x| ≤ u * |x|

/-- `a` is computed for a number `x` of size `t`: it is off by no more than `c - 1` times the
size. -/
structure Near (c t a x : ℚ) : Prop where
  error : |a - x| ≤ (c - 1) * t
  bound : |x| ≤ t

section Near

variable {u c c' t t' a b x y : ℚ}

theorem Near.nonneg (h : Near c t a x) : 0 ≤ t := (abs_nonneg x).trans h.bound

theorem Near.exact (h : |x| ≤ t) : Near 1 t x x := ⟨by simp, h⟩

theorem Near.mono (h : Near c t a x) (hc : c ≤ c') (hc' : 1 ≤ c') (ht : t ≤ t') :
    Near c' t' a x := by
  refine ⟨h.error.trans ?_, h.bound.trans ht⟩
  have := h.nonneg
  have : 0 ≤ c' - 1 := by linarith
  gcongr

/-- The sizes of what is added are added. -/
theorem Near.add (h : Near c t a x) (h' : Near c t' b y) : Near c (t + t') (a + b) (x + y) := by
  constructor
  · calc |a + b - (x + y)| = |(a - x) + (b - y)| := by ring_nf
      _ ≤ |a - x| + |b - y| := abs_add_le _ _
      _ ≤ (c - 1) * t + (c - 1) * t' := add_le_add h.error h'.error
      _ = (c - 1) * (t + t') := by ring
  · exact (abs_add_le x y).trans (add_le_add h.bound h'.bound)

theorem Near.add_exact (h : Near c t a x) (hc : 1 ≤ c) (hy : |y| ≤ t') :
    Near c (t + t') (a + y) (x + y) := h.add ((Near.exact hy).mono hc hc le_rfl)

theorem Near.sub (h : Near c t a x) (h' : Near c t' b y) : Near c (t + t') (a - b) (x - y) := by
  have hneg : Near c t' (-b) (-y) := by
    refine ⟨?_, by simpa using h'.bound⟩
    rw [show -b - -y = -(b - y) by ring, abs_neg]
    exact h'.error
  simpa [sub_eq_add_neg] using h.add hneg

/-- A factor that is exact stays so. -/
theorem Near.mul (h : Near c t a x) {n : ℚ} (hn : 0 ≤ n) : Near c (n * t) (n * a) (n * x) := by
  constructor
  · rw [← mul_sub, abs_mul, abs_of_nonneg hn, mul_left_comm]
    exact mul_le_mul_of_nonneg_left h.error hn
  · rw [abs_mul, abs_of_nonneg hn]
    exact mul_le_mul_of_nonneg_left h.bound hn

/-- A rounding multiplies the factor. -/
theorem Near.round {round : ℚ → ℚ} (hround : RelErr u round) (hu : 0 ≤ u)
    (h : Near c t a x) : Near (c * (1 + u)) t (round a) x := by
  refine ⟨?_, h.bound⟩
  have ha : |a| ≤ (c - 1) * t + t := by
    calc |a| = |(a - x) + x| := by ring_nf
      _ ≤ |a - x| + |x| := abs_add_le _ _
      _ ≤ (c - 1) * t + t := add_le_add h.error h.bound
  calc |round a - x| = |(round a - a) + (a - x)| := by ring_nf
    _ ≤ |round a - a| + |a - x| := abs_add_le _ _
    _ ≤ u * ((c - 1) * t + t) + (c - 1) * t :=
      add_le_add ((hround a).trans (mul_le_mul_of_nonneg_left ha hu)) h.error
    _ = (c * (1 + u) - 1) * t := by ring

/-- The factor after `n` roundings, as long as they are not too many. -/
theorem one_add_pow_le {n : ℕ} (hu : 0 ≤ u) (hn : 2 * n * u ≤ 1) :
    (1 + u) ^ n ≤ 1 + 2 * n * u := by
  induction n with
  | zero => simp
  | succ n ih =>
    push_cast at hn ⊢
    have hsmall : 2 * n * u ≤ 1 := by nlinarith
    calc (1 + u) ^ (n + 1) = (1 + u) ^ n * (1 + u) := pow_succ _ _
      _ ≤ (1 + 2 * n * u) * (1 + u) := mul_le_mul_of_nonneg_right (ih hsmall) (by linarith)
      _ = 1 + 2 * n * u + u + 2 * n * u * u := by ring
      _ ≤ 1 + 2 * n * u + u + 1 * u := by gcongr
      _ = 1 + 2 * (n + 1) * u := by ring

end Near

/-! ### Doubles -/

/-- The nearest integer, and of two the even one. -/
def roundHalfEven (x : ℚ) : ℤ :=
  if x - ⌊x⌋ < 1 / 2 then ⌊x⌋
  else if 1 / 2 < x - ⌊x⌋ then ⌊x⌋ + 1
  else if ⌊x⌋ % 2 = 0 then ⌊x⌋
  else ⌊x⌋ + 1

theorem abs_roundHalfEven_sub_le (x : ℚ) : |(roundHalfEven x : ℚ) - x| ≤ 1 / 2 := by
  have hle := Int.floor_le x
  have hlt := Int.lt_floor_add_one x
  unfold roundHalfEven
  rw [abs_le]
  split_ifs <;> push_cast <;> constructor <;> linarith

/-- The double nearest to a number, in an unbounded range of exponents. -/
def binary64 (x : ℚ) : ℚ :=
  if x = 0 then 0
  else roundHalfEven (x / 2 ^ (Int.log 2 |x| - 52)) * 2 ^ (Int.log 2 |x| - 52)

/-- **A double is off by no more than half of its last bit.** -/
theorem relErr_binary64 : RelErr (1 / 2 ^ 53) binary64 := by
  intro x
  unfold binary64
  split_ifs with hx
  · simp [hx]
  · obtain ⟨ulp, hulp⟩ : ∃ ulp : ℚ, ulp = 2 ^ (Int.log 2 |x| - 52) := ⟨_, rfl⟩
    have hpos : 0 < ulp := by
      rw [hulp]
      exact zpow_pos (by norm_num) _
    -- the first bit is no more than the number, and the last is 52 places behind it
    have hlog : ulp * 2 ^ 52 ≤ |x| := by
      have hle := Int.zpow_log_le_self (b := 2) (by decide) (abs_pos.mpr hx)
      rwa [hulp, zpow_sub₀ (by norm_num), zpow_ofNat, div_mul_cancel₀ _ (by positivity)]
    rw [← hulp]
    calc |(roundHalfEven (x / ulp) : ℚ) * ulp - x|
        = |(roundHalfEven (x / ulp) - x / ulp) * ulp| := by
          rw [sub_mul, div_mul_cancel₀ _ hpos.ne']
      _ = |(roundHalfEven (x / ulp) : ℚ) - x / ulp| * ulp := by
          rw [abs_mul, abs_of_pos hpos]
      _ ≤ 1 / 2 * ulp :=
          mul_le_mul_of_nonneg_right (abs_roundHalfEven_sub_le _) hpos.le
      _ = 1 / 2 ^ 53 * (ulp * 2 ^ 52) := by ring
      _ ≤ 1 / 2 ^ 53 * |x| := mul_le_mul_of_nonneg_left hlog (by positivity)

end Pantoken.Rounding
