import Mathlib.Algebra.BigOperators.Intervals
import Mathlib.Algebra.BigOperators.Ring.Finset
import Mathlib.Data.List.GetD
import Mathlib.Data.Nat.Digits.Lemmas
import Mathlib.Tactic.Ring

/-!
# Digits and bits in a semiring

Numbers written most significant digit first, the loops that read them, and the sums that read
bits, in an arbitrary semiring: none of these loops and sums knows whether the number it reads
still fits.
-/

namespace Digits

open Finset

variable {R : Type*}

/-- The number with the given digits, most significant first. -/
def bigEndian (b : ℕ) (l : List ℕ) : ℕ := Nat.ofDigits b l.reverse

theorem bigEndian_append (b : ℕ) (l m : List ℕ) :
    bigEndian b (l ++ m) = bigEndian b l * b ^ m.length + bigEndian b m := by
  rw [bigEndian, List.reverse_append, Nat.ofDigits_append, List.length_reverse]
  show bigEndian b m + _ * bigEndian b l = _
  ring

theorem bigEndian_snoc (b : ℕ) (l : List ℕ) (d : ℕ) :
    bigEndian b (l ++ [d]) = bigEndian b l * b + d := by
  rw [bigEndian_append]
  simp [bigEndian]

theorem bigEndian_lt {b : ℕ} (hb : 1 < b) {l : List ℕ} (hl : ∀ d ∈ l, d < b) :
    bigEndian b l < b ^ l.length := by
  have h := Nat.ofDigits_lt_base_pow_length hb (l := l.reverse) fun d hd =>
    hl d (List.mem_reverse.mp hd)
  rwa [List.length_reverse] at h

theorem bigEndian_inj {b : ℕ} (hb : 1 < b) {l m : List ℕ} (hlen : l.length = m.length)
    (hl : ∀ d ∈ l, d < b) (hm : ∀ d ∈ m, d < b) (h : bigEndian b l = bigEndian b m) : l = m := by
  refine List.reverse_injective (Nat.ofDigits_inj_of_len_eq hb ?_ ?_ ?_ h)
  · rw [List.length_reverse, List.length_reverse, hlen]
  · exact fun d hd => hl d (List.mem_reverse.mp hd)
  · exact fun d hd => hm d (List.mem_reverse.mp hd)

/-- The values are the digits of the list. -/
def Carries [Semiring R] (x : ℕ → R) (l : List ℕ) : Prop :=
  ∀ i < l.length, x i = (l.getD i 0 : ℕ)

theorem Carries.of_append [Semiring R] {x : ℕ → R} {l m : List ℕ} (h : Carries x (l ++ m)) :
    Carries x l ∧ Carries (fun i => x (l.length + i)) m := by
  refine ⟨fun i hi => ?_, fun i hi => ?_⟩
  · rw [h i (by rw [List.length_append]; omega), List.getD_append _ _ _ _ hi]
  · show x (l.length + i) = _
    rw [h _ (by rw [List.length_append]; omega), List.getD_append_right _ _ _ _ (by omega),
      Nat.add_sub_cancel_left]

/-- A loop over digits reads their number. -/
theorem Carries.foldl [Semiring R] {x : ℕ → R} {l : List ℕ} (b : ℕ) (h : Carries x l) :
    (List.range l.length).foldl (fun acc i => acc * (b : R) + x i) 0 = (bigEndian b l : ℕ) := by
  induction l using List.reverseRecOn with
  | nil => simp [bigEndian]
  | append_singleton l d ih =>
    obtain ⟨hl, hd⟩ := h.of_append
    have hd0 : x l.length = (d : R) := by simpa using hd 0 (by simp)
    rw [List.length_append, List.length_singleton, List.range_succ, List.foldl_append, ih hl,
      List.foldl_cons, List.foldl_nil, bigEndian_snoc, hd0]
    push_cast
    rfl

/-! ## Bits -/

theorem sum_bits_mod (v n : ℕ) : ∑ i ∈ range n, v / 2 ^ i % 2 * 2 ^ i = v % 2 ^ n := by
  induction n with
  | zero => simp [Nat.mod_one]
  | succ n ih => rw [sum_range_succ, ih, Nat.mod_pow_succ, Nat.mul_comm]

theorem sum_bits {v n : ℕ} (hv : v < 2 ^ n) : ∑ i ∈ range n, v / 2 ^ i % 2 * 2 ^ i = v := by
  rw [sum_bits_mod, Nat.mod_eq_of_lt hv]

/-- Bits that are summed up are those of the sum. -/
theorem exists_of_bits [Semiring R] {x : ℕ → R} {n : ℕ} (h : ∀ i < n, x i = 0 ∨ x i = 1) :
    ∃ v : ℕ, v < 2 ^ n ∧ ∑ i ∈ range n, x i * 2 ^ i = (v : R) ∧
      ∀ i < n, x i = (v / 2 ^ i % 2 : ℕ) := by
  induction n with
  | zero => exact ⟨0, Nat.one_pos, by simp, by simp⟩
  | succ n ih =>
    obtain ⟨v, hv, hsum, hbits⟩ := ih fun i hi => h i (by omega)
    obtain ⟨c, hc, hx⟩ : ∃ c < 2, x n = (c : ℕ) := by
      rcases h n (by omega) with hx | hx
      · exact ⟨0, by omega, by simp [hx]⟩
      · exact ⟨1, by omega, by simp [hx]⟩
    refine ⟨v + c * 2 ^ n, ?_, ?_, fun i hi => ?_⟩
    · have : c * 2 ^ n ≤ 1 * 2 ^ n := Nat.mul_le_mul_right _ (by omega)
      rw [pow_succ, Nat.mul_two]
      exact Nat.add_lt_add_of_lt_of_le hv (by rwa [Nat.one_mul] at this)
    · rw [sum_range_succ, hsum, hx]
      push_cast
      rfl
    · rcases Nat.lt_succ_iff_lt_or_eq.mp hi with hlt | rfl
      · -- a lower bit does not change
        have hsplit : (v + c * 2 ^ n) / 2 ^ i % 2 = v / 2 ^ i % 2 := by
          obtain ⟨k, rfl⟩ : ∃ k, n = i + 1 + k := ⟨n - i - 1, by omega⟩
          have : v + c * 2 ^ (i + 1 + k) = v + 2 ^ i * (2 * (c * 2 ^ k)) := by ring
          rw [this, Nat.add_mul_div_left _ _ (by positivity), Nat.add_mul_mod_self_left]
        rw [hsplit, hbits i hlt]
      · rw [hx, Nat.add_mul_div_right _ _ (by positivity), Nat.div_eq_of_lt hv, Nat.zero_add,
          Nat.mod_eq_of_lt hc]

/-- The `j`-th bit of a sequence of bytes, most significant bit of each byte first. -/
def bit (l : List ℕ) (j : ℕ) : ℕ := l.getD (j / 8) 0 / 2 ^ (7 - j % 8) % 2

theorem bit_append_left {l m : List ℕ} {j : ℕ} (h : j < 8 * l.length) :
    bit (l ++ m) j = bit l j := by
  unfold bit
  rw [List.getD_append _ _ _ _ (by omega)]

theorem bit_append_right (l m : List ℕ) (j : ℕ) : bit (l ++ m) (8 * l.length + j) = bit m j := by
  unfold bit
  rw [List.getD_append_right _ _ _ _ (by omega)]
  congr 3
  · omega
  · congr 1
    omega

theorem bit_lt_two (l : List ℕ) (j : ℕ) : bit l j = 0 ∨ bit l j = 1 := by
  unfold bit
  omega

/-- The bits of a sequence of bytes, read from its last one up, are the bits of its number. -/
theorem sum_bit {l : List ℕ} (hl : ∀ d ∈ l, d < 256) :
    ∑ i ∈ range (8 * l.length), bit l (8 * l.length - 1 - i) * 2 ^ i = bigEndian 256 l := by
  induction l using List.reverseRecOn with
  | nil => rfl
  | append_singleton l d ih =>
    have hd : d < 2 ^ 8 := hl d (by simp)
    have hlen : 8 * (l ++ [d]).length = 8 + 8 * l.length := by
      rw [List.length_append, List.length_singleton]
      omega
    have hlow : ∑ i ∈ range 8, bit (l ++ [d]) (8 + 8 * l.length - 1 - i) * 2 ^ i = d := by
      refine Eq.trans (sum_congr rfl fun i hi => ?_) (sum_bits hd)
      have hi := mem_range.mp hi
      rw [show 8 + 8 * l.length - 1 - i = 8 * l.length + (7 - i) by omega, bit_append_right]
      unfold bit
      rw [show (7 - i) / 8 = 0 by omega, show 7 - (7 - i) % 8 = i by omega]
      rfl
    have hhigh : ∑ i ∈ range (8 * l.length),
        bit (l ++ [d]) (8 + 8 * l.length - 1 - (8 + i)) * 2 ^ (8 + i) = bigEndian 256 l * 256 := by
      rw [← ih fun x hx => hl x (by simp [hx]), sum_mul]
      refine sum_congr rfl fun i hi => ?_
      have hi := mem_range.mp hi
      rw [show 8 + 8 * l.length - 1 - (8 + i) = 8 * l.length - 1 - i by omega,
        bit_append_left (by omega)]
      ring
    rw [hlen, sum_range_add, hlow, hhigh, bigEndian_snoc, Nat.add_comm]

end Digits
