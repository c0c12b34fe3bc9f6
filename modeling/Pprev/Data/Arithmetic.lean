import Mathlib.Algebra.Order.Field.Rat
import Mathlib.Algebra.Order.Ring.Int
import Mathlib.Data.Nat.Cast.Order.Field
import Mathlib.Tactic.FieldSimp
import Mathlib.Tactic.Linarith
import Mathlib.Tactic.Positivity
import Mathlib.Tactic.Ring

/-!
# Arithmetic with failures and roundings

Operations whose exact result is not a number of the type: signed sums that do not fit, and parts
of numbers that are rounded down.
-/

/-!
## Checked signed arithmetic

Integers of a type of a number of bits in two's complement, and the failure of an operation whose
result is not one of them.
-/

namespace Checked

/-- The integers of a signed type. -/
def Fits (bits : ℕ) (x : ℤ) : Prop := -2 ^ (bits - 1) ≤ x ∧ x < 2 ^ (bits - 1)

instance (bits : ℕ) (x : ℤ) : Decidable (Fits bits x) := by unfold Fits; infer_instance

/-- A result of the type, or a failure. -/
def int {ε : Type} (bits : ℕ) (overflow : ε) (x : ℤ) : Except ε ℤ :=
  if Fits bits x then .ok x else .error overflow

variable {ε : Type} {bits : ℕ} {overflow : ε} {x : ℤ}

theorem int_eq_ok (h : Fits bits x) : int bits overflow x = .ok x := if_pos h

theorem Fits.of_le {m : ℕ} (hx : -2 ^ m ≤ x ∧ x < 2 ^ m) (h : m ≤ bits - 1) : Fits bits x := by
  have hpow : (2 : ℤ) ^ m ≤ 2 ^ (bits - 1) := pow_le_pow_right₀ (by decide) h
  unfold Fits
  omega

/-- Division that truncates, of a dividend that is lowered if it is negative. -/
def loweredDiv {ε : Type} (int : ℤ → Except ε ℤ) (x n : ℤ) : Except ε ℤ :=
  if x ≥ 0 then .ok (x.tdiv n) else (int (x - (n - 1))).map (·.tdiv n)

theorem loweredDiv_eq {int : ℤ → Except ε ℤ} {n : ℤ} (hn : 0 < n)
    (hint : int (x - (n - 1)) = .ok (x - (n - 1))) : loweredDiv int x n = .ok (x / n) := by
  unfold loweredDiv
  split_ifs with hx
  · rw [Int.tdiv_eq_ediv_of_nonneg hx]
  · have hlow := Int.emod_nonneg x hn.ne'
    have hhigh := Int.emod_lt_of_pos x hn
    have hdiv := Int.emod_add_mul_ediv x n
    rw [hint, Except.map,
      show x - (n - 1) = -((n - 1 - x % n) + n * -(x / n)) by linarith, Int.neg_tdiv,
      Int.tdiv_eq_ediv_of_nonneg (by linarith), Int.add_mul_ediv_left _ _ hn.ne',
      Int.ediv_eq_zero_of_lt (by omega) (by omega), zero_add, neg_neg]

end Checked

/-!
## Parts of parts, rounded down

A part of a number is taken again and again, and each time rounded down. The roundings cost less
than the sum of a geometric series.
-/

namespace Rounding

/-- The part `a / b` of a number, rounded down. -/
def part (a b x : ℕ) : ℕ := x * a / b

variable {a b : ℕ}

theorem part_lt (h : a < b) {x : ℕ} (hx : 0 < x) : part a b x < x :=
  Nat.div_lt_of_lt_mul (by rw [Nat.mul_comm b]; exact Nat.mul_lt_mul_of_pos_left h hx)

/-! ### The cost of rounding -/

theorem part_le_mul (x : ℕ) : (part a b x : ℚ) ≤ x * (a / b) := by
  have h : (part a b x : ℚ) ≤ ((x * a : ℕ) : ℚ) / b := Nat.cast_div_le
  rwa [Nat.cast_mul, mul_div_assoc] at h

theorem lt_part_add_one (hb : 0 < b) (x : ℕ) : (x : ℚ) * (a / b) < part a b x + 1 := by
  have hpos : (0 : ℚ) < b := by exact_mod_cast hb
  have h : x * a < b * (part a b x + 1) := Nat.lt_mul_div_succ (x * a) hb
  have hq : (x : ℚ) * a < b * (part a b x + 1) := by exact_mod_cast h
  rw [← mul_div_assoc, div_lt_iff₀ hpos]
  linarith

/-- After `k` rounds at most the `k`-th power of the part is left. -/
theorem iterate_part_le (x k : ℕ) : ((part a b)^[k] x : ℚ) ≤ x * (a / b : ℚ) ^ k := by
  have hratio : (0 : ℚ) ≤ a / b := by positivity
  induction k with
  | zero => simp
  | succ k ih =>
    rw [Function.iterate_succ_apply']
    calc (part a b ((part a b)^[k] x) : ℚ)
      _ ≤ (part a b)^[k] x * (a / b) := part_le_mul _
      _ ≤ x * (a / b : ℚ) ^ k * (a / b) := mul_le_mul_of_nonneg_right ih hratio
      _ = x * (a / b : ℚ) ^ (k + 1) := by ring

/-- The roundings of any number of rounds cost less than `1 / (1 - a / b)`. -/
theorem lt_iterate_part (hab : a < b) (x k : ℕ) :
    (x * (a / b : ℚ) ^ k - 1 / (1 - a / b)) < (part a b)^[k] x := by
  have hb : (0 : ℚ) < b := by exact_mod_cast (Nat.zero_le a).trans_lt hab
  have hlt : (a / b : ℚ) < 1 := by
    rw [div_lt_one hb]
    exact_mod_cast hab
  have hratio : (0 : ℚ) ≤ a / b := by positivity
  generalize hr : (a / b : ℚ) = r at hlt hratio
  have hone : 0 < 1 - r := by linarith
  -- the series satisfies its own recurrence
  have hseries : r * (1 / (1 - r)) + 1 = 1 / (1 - r) := by
    field_simp
    ring
  induction k with
  | zero =>
    have : 0 < 1 / (1 - r) := by positivity
    rw [pow_zero, mul_one, Function.iterate_zero_apply]
    linarith
  | succ k ih =>
    have hround := lt_part_add_one (a := a) ((Nat.zero_le a).trans_lt hab) ((part a b)^[k] x)
    have hscale := mul_le_mul_of_nonneg_right ih.le hratio
    rw [hr] at hround
    rw [Function.iterate_succ_apply', pow_succ]
    linarith

end Rounding
