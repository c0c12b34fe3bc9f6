import Mathlib.Data.Nat.Basic
import Mathlib.Tactic.IntervalCases

/-!
# The proleptic Gregorian calendar

Valid dates from the year 0 on, and the number that spells one.
-/

namespace Gregorian

def IsLeap (y : ℕ) : Prop := y % 4 = 0 ∧ (y % 100 ≠ 0 ∨ y % 400 = 0)

instance (y : ℕ) : Decidable (IsLeap y) := by unfold IsLeap; infer_instance

def monthLength (y m : ℕ) : ℕ :=
  if m = 2 then (if IsLeap y then 29 else 28)
  else if m = 4 ∨ m = 6 ∨ m = 9 ∨ m = 11 then 30 else 31

theorem monthLength_le (y m : ℕ) : monthLength y m ≤ 31 := by
  unfold monthLength
  split_ifs <;> omega

theorem le_monthLength (y m : ℕ) : 28 ≤ monthLength y m := by
  unfold monthLength
  split_ifs <;> omega

/-- A valid date. -/
structure Date where
  year : ℕ
  month : ℕ
  day : ℕ
  month_mem : 1 ≤ month ∧ month ≤ 12
  day_mem : 1 ≤ day ∧ day ≤ monthLength year month
  deriving DecidableEq

namespace Date

theorem day_le (d : Date) : d.day ≤ 31 := d.day_mem.2.trans (monthLength_le _ _)

theorem ext_iff' {d e : Date} : d = e ↔ d.year = e.year ∧ d.month = e.month ∧ d.day = e.day := by
  cases d
  cases e
  simp

/-- The number that spells the date. -/
def ymd (d : Date) : ℕ := d.year * 10000 + d.month * 100 + d.day

theorem ymd_injective : Function.Injective ymd := by
  intro d e h
  have hd := d.day_le
  have he := e.day_le
  have hm := d.month_mem
  have hm' := e.month_mem
  unfold ymd at h
  rw [ext_iff']
  omega

/-- Below ten thousand years the number has eight digits. -/
theorem ymd_lt {d : Date} (h : d.year < 10000) : d.ymd < 100000000 := by
  have hd := d.day_le
  have hm := d.month_mem
  unfold ymd
  omega

end Date

end Gregorian
