import Mathlib.Algebra.BigOperators.Intervals
import Mathlib.Algebra.Order.BigOperators.Group.Finset
import Mathlib.Tactic.Linarith
import Pprev.Data.Gregorian

/-!
# Counting days

The days from the first of January of the year 0 to a date, counted by the lengths of years and
months. Every number of days is that of a date, later dates have more days, and the count has a
closed form in the cycle of 400 years that starts in March.
-/

namespace Gregorian

open Finset

def yearLength (y : ℕ) : ℕ := if IsLeap y then 366 else 365

/-- The days of the years before a year. -/
def daysBeforeYear (y : ℕ) : ℕ := ∑ i ∈ range y, yearLength i

/-- The days of a year before a month. -/
def daysBeforeMonth (y m : ℕ) : ℕ := ∑ i ∈ Ico 1 m, monthLength y i

theorem daysBeforeYear_succ (y : ℕ) : daysBeforeYear (y + 1) = daysBeforeYear y + yearLength y :=
  sum_range_succ _ _

theorem daysBeforeYear_mono {y z : ℕ} (h : y ≤ z) : daysBeforeYear y ≤ daysBeforeYear z :=
  sum_le_sum_of_subset (range_mono h)

theorem daysBeforeMonth_succ (y : ℕ) {m : ℕ} (h : 1 ≤ m) :
    daysBeforeMonth y (m + 1) = daysBeforeMonth y m + monthLength y m :=
  sum_Ico_succ_top h _

theorem daysBeforeMonth_mono (y : ℕ) {m n : ℕ} (h : m ≤ n) :
    daysBeforeMonth y m ≤ daysBeforeMonth y n :=
  sum_le_sum_of_subset (Ico_subset_Ico_right h)

theorem daysBeforeMonth_one (y : ℕ) : daysBeforeMonth y 1 = 0 := by simp [daysBeforeMonth]

theorem succ_div_eq (y n : ℕ) :
    (y + 1) / n = y / n + if (y + 1) % n = 0 then 1 else 0 := by
  rw [Nat.succ_div]
  simp only [Nat.dvd_iff_mod_eq_zero]

theorem leapDay_eq (y : ℕ) :
    (if IsLeap y then 1 else 0) + (if y % 100 = 0 then 1 else 0) =
      (if y % 4 = 0 then 1 else 0) + if y % 400 = 0 then 1 else 0 := by
  have h100 : y % 400 = 0 → y % 100 = 0 := by omega
  have h4 : y % 100 = 0 → y % 4 = 0 := by omega
  by_cases h : y % 4 = 0 <;> by_cases h' : y % 100 = 0 <;> by_cases h'' : y % 400 = 0 <;>
    simp_all [IsLeap]

/-- Which years have leap days. -/
theorem leapDays_succ (y : ℕ) :
    (y + 1) / 4 + (y + 1) / 400 + y / 100 =
      y / 4 + y / 400 + (y + 1) / 100 + if IsLeap (y + 1) then 1 else 0 := by
  have hleap := leapDay_eq (y + 1)
  rw [succ_div_eq y 4, succ_div_eq y 100, succ_div_eq y 400]
  omega

/-- The days up to the year and its leap day. -/
theorem daysBeforeYear_eq (y : ℕ) :
    daysBeforeYear y + (if IsLeap y then 1 else 0) + y / 100 =
      365 * y + y / 4 + y / 400 + 1 := by
  induction y with
  | zero => rfl
  | succ y ih =>
    have hleap := leapDays_succ y
    have hlength : yearLength y = 365 + if IsLeap y then 1 else 0 := by
      unfold yearLength
      split_ifs <;> rfl
    rw [daysBeforeYear_succ, hlength]
    linarith

/-- The days of the months of a year, with those before March apart. -/
theorem daysBeforeMonth_eq (y : ℕ) {m : ℕ} (h : 1 ≤ m ∧ m ≤ 12) :
    daysBeforeMonth y m = if m ≤ 2 then 31 * (m - 1)
      else (153 * (m - 3) + 2) / 5 + 31 + monthLength y 2 := by
  have hfeb : ∀ k, monthLength y (3 + k) = monthLength 0 (3 + k) := by
    intro k
    unfold monthLength
    split_ifs <;> omega
  obtain ⟨h1, h12⟩ := h
  have hjan : monthLength y 1 = 31 := rfl
  have h3 : daysBeforeMonth y 3 = 31 + monthLength y 2 := by
    rw [daysBeforeMonth_succ y (by omega), daysBeforeMonth_succ y (by omega), daysBeforeMonth_one,
      hjan, zero_add]
  rcases Nat.lt_or_ge m 3 with hm | hm
  · rw [if_pos (by omega)]
    interval_cases m
    · exact daysBeforeMonth_one y
    · rw [daysBeforeMonth_succ y (by omega), daysBeforeMonth_one, hjan]
  · rw [if_neg (by omega)]
    obtain ⟨k, rfl⟩ := Nat.exists_eq_add_of_le hm
    have hk : k ≤ 9 := by omega
    clear h1 h12 hm
    induction k with
    | zero => rw [h3]
    | succ k ih =>
      rw [← Nat.add_assoc, daysBeforeMonth_succ y (by omega), ih (by omega), hfeb]
      have hk' : k < 9 := by omega
      interval_cases k <;> simp [monthLength] <;> omega

theorem daysBeforeMonth_thirteen (y : ℕ) : daysBeforeMonth y 13 = yearLength y := by
  rw [daysBeforeMonth_succ y (by omega), daysBeforeMonth_eq y (by omega)]
  unfold yearLength monthLength
  split_ifs <;> simp_all

namespace Date

/-- The days from the first of January of the year 0 to the date. -/
def ordinal (d : Date) : ℕ := daysBeforeYear d.year + daysBeforeMonth d.year d.month + (d.day - 1)

/-- The day after a date. -/
def next (d : Date) : Date :=
  if h : d.day < monthLength d.year d.month then
    { d with day := d.day + 1, day_mem := ⟨by omega, h⟩ }
  else if h : d.month < 12 then
    { year := d.year, month := d.month + 1, day := 1
      month_mem := ⟨by omega, h⟩
      day_mem := ⟨le_rfl, by have := le_monthLength d.year (d.month + 1); omega⟩ }
  else
    { year := d.year + 1, month := 1, day := 1
      month_mem := by omega
      day_mem := ⟨le_rfl, by have := le_monthLength (d.year + 1) 1; omega⟩ }

theorem ordinal_next (d : Date) : d.next.ordinal = d.ordinal + 1 := by
  have hday := d.day_mem
  have hmonth := d.month_mem
  unfold next
  split_ifs with h h12
  · simp only [ordinal]
    omega
  · simp only [ordinal]
    rw [daysBeforeMonth_succ _ hmonth.1]
    omega
  · have hyear := daysBeforeMonth_succ d.year hmonth.1
    have hm : d.month = 12 := by omega
    rw [hm, daysBeforeMonth_thirteen] at hyear
    rw [hm] at h hday
    simp only [ordinal, daysBeforeYear_succ, daysBeforeMonth_one, hm]
    omega

/-- Every day from the first of January of the year 0 on has a date. -/
theorem exists_ordinal_eq (n : ℕ) : ∃ d : Date, d.ordinal = n := by
  induction n with
  | zero => exact ⟨⟨0, 1, 1, by decide, by decide⟩, rfl⟩
  | succ n ih =>
    obtain ⟨d, rfl⟩ := ih
    exact ⟨d.next, d.ordinal_next⟩

theorem ordinal_lt_daysBeforeYear (d : Date) : d.ordinal < daysBeforeYear (d.year + 1) := by
  have hday := d.day_mem
  have hmonth := d.month_mem
  have hsucc := daysBeforeMonth_succ d.year hmonth.1
  have hle := daysBeforeMonth_mono d.year (show d.month + 1 ≤ 13 by omega)
  rw [daysBeforeMonth_thirteen] at hle
  rw [daysBeforeYear_succ, ordinal]
  omega

/-- A later date has more days before it. -/
theorem ordinal_lt_of_ymd_lt {d e : Date} (h : d.ymd < e.ymd) : d.ordinal < e.ordinal := by
  have hd := d.day_mem
  have hd31 := d.day_le
  have he := e.day_mem
  have he31 := e.day_le
  have hdm := d.month_mem
  have hem := e.month_mem
  unfold ymd at h
  rcases Nat.lt_trichotomy d.year e.year with hy | hy | hy
  · have hle := daysBeforeYear_mono (show d.year + 1 ≤ e.year from hy)
    have hlt := d.ordinal_lt_daysBeforeYear
    have : daysBeforeYear e.year ≤ e.ordinal := by rw [ordinal]; omega
    omega
  · simp only [ordinal, hy]
    rcases Nat.lt_or_ge d.month e.month with hm | hm
    · have hsucc := daysBeforeMonth_succ e.year hdm.1
      have hle := daysBeforeMonth_mono e.year (show d.month + 1 ≤ e.month from hm)
      rw [hy] at hd
      omega
    · have hm : d.month = e.month := by omega
      rw [hm]
      omega
  · omega

theorem ordinal_lt_iff {d e : Date} : d.ordinal < e.ordinal ↔ d.ymd < e.ymd := by
  refine ⟨fun h => ?_, ordinal_lt_of_ymd_lt⟩
  by_contra hle
  rcases Nat.lt_or_eq_of_le (Nat.le_of_not_lt hle) with hlt | heq
  · exact Nat.lt_asymm h (ordinal_lt_of_ymd_lt hlt)
  · rw [ymd_injective heq] at h
    exact Nat.lt_irrefl _ h

theorem ordinal_injective : Function.Injective ordinal := by
  intro d e h
  have hd := mt (ordinal_lt_iff (d := d) (e := e)).mpr (by omega)
  have he := mt (ordinal_lt_iff (d := e) (e := d)).mpr (by omega)
  exact ymd_injective (by omega)

/-- The first of January 1970. -/
def epoch : Date := ⟨1970, 1, 1, by decide, by decide⟩

/-- The days from the first of January 1970 to the date. -/
def unixDay (d : Date) : ℤ := d.ordinal - epoch.ordinal

theorem ordinal_epoch : epoch.ordinal = 719528 := by
  have h := daysBeforeYear_eq 1970
  rw [if_neg (by decide)] at h
  simp only [ordinal, epoch, daysBeforeMonth_one]
  omega

theorem unixDay_lt_iff {d e : Date} : d.unixDay < e.unixDay ↔ d.ymd < e.ymd := by
  rw [← ordinal_lt_iff, unixDay, unixDay]
  omega

theorem unixDay_injective : Function.Injective unixDay := by
  intro d e h
  exact ordinal_injective (by unfold unixDay at h; omega)

end Date

end Gregorian
