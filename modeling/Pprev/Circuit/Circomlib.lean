import Mathlib.Data.ZMod.ValMinAbs
import Pprev.Circuit.Digits
import Pprev.Evm.Word

/-!
# The field of the circuits and the templates of circomlib

A template is the relation between its signals that its constraints describe. Arrays of signals
are functions of the index, of which a template reads the entries that the source declares. The
templates of circomlib are given: a `Circomlib` is any choice of them that does what circomlib
documents, its comparators for operands of at most the given number of bits.
-/

namespace Pprev

open Evm Finset Digits

/-- Order of the BN254 scalar field, the field of the circom witness. -/
def BN254_R : ℕ := 21888242871839275222246405745257275088548364400416034343698204186575808495617

instance : NeZero BN254_R := ⟨by decide⟩

/-- Signals and template variables. -/
abbrev F := ZMod BN254_R

/-! The numerals of several templates, as numerals of any ring. -/

instance atLeastTwo_2 : Nat.AtLeastTwo 2 := ⟨by decide⟩

instance atLeastTwo_3 : Nat.AtLeastTwo 3 := ⟨by decide⟩

instance atLeastTwo_10 : Nat.AtLeastTwo 10 := ⟨by decide⟩

instance atLeastTwo_16 : Nat.AtLeastTwo 16 := ⟨by decide⟩

instance atLeastTwo_31 : Nat.AtLeastTwo 31 := ⟨by decide⟩

instance atLeastTwo_32 : Nat.AtLeastTwo 32 := ⟨by decide⟩

theorem two_pow_lt : 2 ^ 253 < BN254_R := by decide

/-- Numbers below the field order are told apart by the signals that carry them. -/
theorem natCast_inj {a b : ℕ} (ha : a < BN254_R) (hb : b < BN254_R) : (a : F) = b ↔ a = b := by
  rw [ZMod.natCast_eq_natCast_iff', Nat.mod_eq_of_lt ha, Nat.mod_eq_of_lt hb]

theorem zero_ne_one : (0 : F) ≠ 1 := by
  have h := (natCast_inj (a := 0) (b := 1) (by decide) (by decide)).not.mpr (by decide)
  rwa [Nat.cast_zero, Nat.cast_one] at h

/-- The signal of a truth value. -/
def flag (p : Prop) [Decidable p] : F := if p then 1 else 0

@[simp] theorem flag_eq_one {p : Prop} [Decidable p] : flag p = 1 ↔ p := by
  unfold flag
  split_ifs with h <;> simp [h, zero_ne_one]

@[simp] theorem flag_eq_zero {p : Prop} [Decidable p] : flag p = 0 ↔ ¬p := by
  unfold flag
  split_ifs with h <;> simp [h, zero_ne_one.symm]

theorem flag_congr {p q : Prop} [Decidable p] [Decidable q] (h : p ↔ q) : flag p = flag q := by
  unfold flag
  simp only [h]

theorem flag_mul_not {p q : Prop} [Decidable p] [Decidable q] :
    flag p * (1 - flag q) = flag (p ∧ ¬q) := by
  unfold flag
  by_cases hp : p <;> by_cases hq : q <;> simp [hp, hq]

/-! ## Template variables

Assertions compare template variables as signed numbers: a value above half the order is negative.
-/

def varLe (a b : F) : Prop := a.valMinAbs ≤ b.valMinAbs

def varLt (a b : F) : Prop := a.valMinAbs < b.valMinAbs

instance (a b : F) : Decidable (varLe a b) := inferInstanceAs (Decidable (_ ≤ _))

instance (a b : F) : Decidable (varLt a b) := inferInstanceAs (Decidable (_ < _))

theorem valMinAbs_natCast {a : ℕ} (h : a ≤ BN254_R / 2) : (a : F).valMinAbs = a :=
  ZMod.valMinAbs_natCast_of_le_half h

theorem varLe_natCast {a b : ℕ} (ha : a ≤ BN254_R / 2) (hb : b ≤ BN254_R / 2) :
    varLe a b ↔ a ≤ b := by
  rw [varLe, valMinAbs_natCast ha, valMinAbs_natCast hb, Nat.cast_le]

theorem varLt_natCast {a b : ℕ} (ha : a ≤ BN254_R / 2) (hb : b ≤ BN254_R / 2) :
    varLt a b ↔ a < b := by
  rw [varLt, valMinAbs_natCast ha, valMinAbs_natCast hb, Nat.cast_lt]

/-! ## Bytes as signals -/

/-- The bytes of a sequence, as numbers. -/
def digits (m : Bytes) : List ℕ := m.map UInt8.toNat

@[simp] theorem length_digits (m : Bytes) : (digits m).length = m.length := List.length_map _

theorem digits_append (m m' : Bytes) : digits (m ++ m') = digits m ++ digits m' := List.map_append

theorem lt_of_mem_digits {m : Bytes} : ∀ d ∈ digits m, d < 256 := by
  rw [digits, List.forall_mem_map]
  exact fun b _ => b.toNat_lt

theorem digits_injective : Function.Injective digits :=
  List.map_injective_iff.mpr fun _ _ => UInt8.toNat_inj.mp

/-! ## Templates of circomlib -/

/-- The circomlib templates that the circuits use. -/
structure Circomlib (sha256 : Bytes → Bytes) (poseidon : F → F → F) where
  Num2Bits (n : ℕ) (x : F) (out : ℕ → F) : Prop
  Bits2Num (n : ℕ) (x : ℕ → F) (out : F) : Prop
  IsZero (x out : F) : Prop
  IsEqual (a b out : F) : Prop
  LessThan (n : ℕ) (a b out : F) : Prop
  GreaterEqThan (n : ℕ) (a b out : F) : Prop
  Sha256 (n : ℕ) (x out : ℕ → F) : Prop
  Poseidon (a b out : F) : Prop
  num2Bits_iff {n : ℕ} {x : F} {out : ℕ → F} : Num2Bits n x out ↔
    (∀ i < n, out i = 0 ∨ out i = 1) ∧ ∑ i ∈ range n, out i * 2 ^ i = x
  bits2Num_iff {n : ℕ} {x : ℕ → F} {out : F} (hx : ∀ i < n, x i = 0 ∨ x i = 1) :
    Bits2Num n x out ↔ out = ∑ i ∈ range n, x i * 2 ^ i
  isZero_iff {x out : F} : IsZero x out ↔ out = flag (x = 0)
  isEqual_iff {a b out : F} : IsEqual a b out ↔ out = flag (a = b)
  lessThan_iff {n a b : ℕ} {out : F} (hn : n ≤ 252) (ha : a < 2 ^ n) (hb : b < 2 ^ n) :
    LessThan n a b out ↔ out = flag (a < b)
  greaterEqThan_iff {n a b : ℕ} {out : F} (hn : n ≤ 252) (ha : a < 2 ^ n) (hb : b < 2 ^ n) :
    GreaterEqThan n a b out ↔ out = flag (b ≤ a)
  sha256_iff {m : Bytes} {x out : ℕ → F} (hx : ∀ i < 8 * m.length, x i = (bit (digits m) i : ℕ)) :
    Sha256 (8 * m.length) x out ↔ ∀ i < 256, out i = (bit (digits (sha256 m)) i : ℕ)
  length_sha256 (m : Bytes) : (sha256 m).length = 32
  poseidon_iff {a b out : F} : Poseidon a b out ↔ out = poseidon a b

namespace Circomlib

variable {sha256 : Bytes → Bytes} {poseidon : F → F → F} (lib : Circomlib sha256 poseidon)

/-- A decomposition into bits bounds the signal and fixes the bits. -/
theorem exists_num2Bits {n : ℕ} {x : F} {out : ℕ → F} (h : lib.Num2Bits n x out) :
    ∃ v : ℕ, v < 2 ^ n ∧ x = v ∧ ∀ i < n, out i = (v / 2 ^ i % 2 : ℕ) := by
  obtain ⟨hbits, hsum⟩ := lib.num2Bits_iff.mp h
  obtain ⟨v, hv, hval, hout⟩ := exists_of_bits hbits
  exact ⟨v, hv, by rw [← hsum, hval], hout⟩

theorem num2Bits_natCast {n v : ℕ} (hv : v < 2 ^ n) :
    lib.Num2Bits n v fun i => (v / 2 ^ i % 2 : ℕ) := by
  refine lib.num2Bits_iff.mpr ⟨fun i _ => ?_, ?_⟩
  · rcases Nat.mod_two_eq_zero_or_one (v / 2 ^ i) with h | h <;> simp [h]
  · have h := congrArg (Nat.cast : ℕ → F) (sum_bits hv)
    push_cast at h ⊢
    exact h

/-- A range check. -/
theorem num2Bits_range {n : ℕ} {x : F} :
    (∃ out, lib.Num2Bits n x out) ↔ ∃ v : ℕ, v < 2 ^ n ∧ x = v := by
  constructor
  · rintro ⟨out, h⟩
    obtain ⟨v, hv, hx, -⟩ := lib.exists_num2Bits h
    exact ⟨v, hv, hx⟩
  · rintro ⟨v, hv, rfl⟩
    exact ⟨_, lib.num2Bits_natCast hv⟩

end Circomlib

/-! ## A choice of the templates -/

theorem natCast_bit_inj {a b : ℕ} (ha : a = 0 ∨ a = 1) (hb : b = 0 ∨ b = 1) :
    (a : F) = b ↔ a = b :=
  natCast_inj (by rcases ha with rfl | rfl <;> decide) (by rcases hb with rfl | rfl <;> decide)

/-- The bits of a sequence of bytes determine it. -/
theorem eq_of_bits {m m' : Bytes} {x : ℕ → F} (hlen : m.length = m'.length)
    (h : ∀ i < 8 * m.length, x i = (bit (digits m) i : ℕ))
    (h' : ∀ i < 8 * m'.length, x i = (bit (digits m') i : ℕ)) : m = m' := by
  have hbit : ∀ i < 8 * m.length, bit (digits m) i = bit (digits m') i := fun i hi =>
    (natCast_bit_inj (bit_lt_two _ i) (bit_lt_two _ i)).mp
      ((h i hi).symm.trans (h' i (hlen ▸ hi)))
  have hsum := sum_bit (lt_of_mem_digits (m := m))
  have hsum' := sum_bit (lt_of_mem_digits (m := m'))
  rw [length_digits] at hsum hsum'
  refine digits_injective (bigEndian_inj (b := 256) (by omega) (by simpa using hlen)
    lt_of_mem_digits lt_of_mem_digits ?_)
  rw [← hsum, ← hsum', hlen]
  refine sum_congr rfl fun i hi => ?_
  have hi := mem_range.mp hi
  rw [hbit _ (by omega)]

/-- Templates that do what is documented, the comparators anything on operands beyond their
width. -/
def Circomlib.documented (sha256 : Bytes → Bytes) (poseidon : F → F → F)
    (hlen : ∀ m, (sha256 m).length = 32) (beyond : F → F → F → Prop) :
    Circomlib sha256 poseidon where
  Num2Bits n x out := (∀ i < n, out i = 0 ∨ out i = 1) ∧ ∑ i ∈ range n, out i * 2 ^ i = x
  Bits2Num n x out := out = ∑ i ∈ range n, x i * 2 ^ i
  IsZero x out := out = flag (x = 0)
  IsEqual a b out := out = flag (a = b)
  LessThan n a b out :=
    if a.val < 2 ^ n ∧ b.val < 2 ^ n then out = flag (a.val < b.val) else beyond a b out
  GreaterEqThan n a b out :=
    if a.val < 2 ^ n ∧ b.val < 2 ^ n then out = flag (b.val ≤ a.val) else beyond a b out
  Sha256 n x out := ∃ m : Bytes, 8 * m.length = n ∧ (∀ i < n, x i = (bit (digits m) i : ℕ)) ∧
    ∀ i < 256, out i = (bit (digits (sha256 m)) i : ℕ)
  Poseidon a b out := out = poseidon a b
  num2Bits_iff := Iff.rfl
  bits2Num_iff _ := Iff.rfl
  isZero_iff := Iff.rfl
  isEqual_iff := Iff.rfl
  lessThan_iff hn ha hb := by
    have h252 := (Nat.pow_le_pow_right (show 0 < 2 by omega) hn).trans_lt
      ((by decide : 2 ^ 252 < BN254_R))
    rw [ZMod.val_natCast_of_lt (ha.trans h252), ZMod.val_natCast_of_lt (hb.trans h252),
      if_pos ⟨ha, hb⟩]
  greaterEqThan_iff hn ha hb := by
    have h252 := (Nat.pow_le_pow_right (show 0 < 2 by omega) hn).trans_lt
      ((by decide : 2 ^ 252 < BN254_R))
    rw [ZMod.val_natCast_of_lt (ha.trans h252), ZMod.val_natCast_of_lt (hb.trans h252),
      if_pos ⟨ha, hb⟩]
  sha256_iff {m x out} hx := by
    constructor
    · rintro ⟨m', hlen', hx', hout⟩
      obtain rfl : m' = m := eq_of_bits (by omega) (hlen' ▸ hx') hx
      exact hout
    · exact fun hout => ⟨m, rfl, hx, hout⟩
  length_sha256 := hlen
  poseidon_iff := Iff.rfl

end Pprev
