import Pprev.Circuit.Bytes

/-!
# Decimal numbers in circuits

The templates of `lib/decimal.circom`: bytes that are decimal digits, and their number.
-/

namespace Pprev

open Evm Finset Digits

/-- Every byte is an ASCII decimal digit. -/
def IsDecimal (m : Bytes) : Prop := ∀ b ∈ m, 48 ≤ b.toNat ∧ b.toNat ≤ 57

instance (m : Bytes) : Decidable (IsDecimal m) := List.decidableBAll _ m

/-- The number that decimal digits spell. -/
def decimalValue (m : Bytes) : ℕ := bigEndian 10 ((digits m).map (· - 48))

theorem decimalValue_append (m m' : Bytes) :
    decimalValue (m ++ m') = decimalValue m * 10 ^ m'.length + decimalValue m' := by
  rw [decimalValue, digits_append, List.map_append, bigEndian_append, List.length_map,
    length_digits]
  rfl

theorem decimalValue_lt {m : Bytes} (h : IsDecimal m) : decimalValue m < 10 ^ m.length := by
  have hlt := bigEndian_lt (b := 10) (l := (digits m).map (· - 48)) (by omega) fun d hd => by
    obtain ⟨e, he, rfl⟩ := List.mem_map.mp hd
    obtain ⟨b, hb, rfl⟩ := List.mem_map.mp he
    have := h b hb
    omega
  rwa [List.length_map, length_digits] at hlt

/-! ## The templates -/

section

variable {sha256 : Bytes → Bytes} {poseidon : F → F → F} (lib : Circomlib sha256 poseidon)

def Digit (byte value : F) : Prop :=
  ∃ (bits : ℕ → F) (below10 : F),
    value = byte - 48 ∧ lib.Num2Bits 4 value bits ∧ lib.LessThan 4 value 10 below10 ∧ below10 = 1

def DecimalValue (n : ℕ) (digits : ℕ → F) (out : F) : Prop :=
  ∃ d : ℕ → F, (∀ i < n, Digit lib (digits i) (d i)) ∧
    out = (List.range n).foldl (fun acc i => acc * 10 + d i) 0

variable {lib}

theorem digit_iff {byte value : F} :
    Digit lib byte value ↔ ∃ v : ℕ, v < 10 ∧ byte = (v + 48 : ℕ) ∧ value = v := by
  have h10 (v : ℕ) (hv : v < 2 ^ 4) (out : F) : lib.LessThan 4 v 10 out ↔ out = flag (v < 10) := by
    have h : lib.LessThan 4 (v : F) (10 : ℕ) out ↔ out = flag (v < 10) :=
      lib.lessThan_iff (by omega) hv (by omega)
    exact_mod_cast h
  constructor
  · rintro ⟨bits, below10, hvalue, hbits, hlt, rfl⟩
    obtain ⟨v, hv, rfl, -⟩ := lib.exists_num2Bits hbits
    refine ⟨v, flag_eq_one.mp ((h10 v hv _).mp hlt).symm, ?_, rfl⟩
    rw [Nat.cast_add, hvalue]
    push_cast
    ring
  · rintro ⟨v, hv, rfl, rfl⟩
    refine ⟨_, 1, ?_, lib.num2Bits_natCast (by omega), (h10 v (by omega) _).mpr ?_, rfl⟩
    · push_cast
      ring
    · exact (flag_eq_one.mpr hv).symm

theorem decimalValue_iff {x : ℕ → F} {m : Bytes} {out : F} (h : Holds x m) :
    DecimalValue lib m.length x out ↔ IsDecimal m ∧ out = decimalValue m := by
  have hbyte {i : ℕ} (hi : i < m.length) : x i = (m[i].toNat : ℕ) :=
    (h.eq_byte hi m[i]).mpr (List.getElem?_eq_getElem hi)
  have hlt (b : UInt8) : b.toNat < BN254_R := b.toNat_lt.trans (by decide)
  have hfold {d : ℕ → F} (hd : ∀ i, (hi : i < m.length) → d i = (m[i].toNat - 48 : ℕ)) :
      (List.range m.length).foldl (fun acc i => acc * 10 + d i) 0 = (decimalValue m : F) := by
    have hcarries : Carries d ((digits m).map (· - 48)) := by
      intro i hi
      have hi : i < m.length := by simpa using hi
      rw [hd i hi, List.getD_eq_getElem?_getD, List.getElem?_map, digits, List.getElem?_map,
        List.getElem?_eq_getElem hi]
      rfl
    have := hcarries.foldl 10
    rwa [List.length_map, length_digits] at this
  constructor
  · rintro ⟨d, hd, rfl⟩
    have hdigit : ∀ i, (hi : i < m.length) →
        (48 ≤ m[i].toNat ∧ m[i].toNat ≤ 57) ∧ d i = (m[i].toNat - 48 : ℕ) := by
      intro i hi
      obtain ⟨v, hv, hx, hval⟩ := digit_iff.mp (hd i hi)
      rw [hbyte hi, natCast_inj (hlt _) (lt_trans (by omega) two_pow_lt)] at hx
      rw [hx, hval, Nat.add_sub_cancel]
      exact ⟨by omega, rfl⟩
    refine ⟨fun b hb => ?_, hfold fun i hi => (hdigit i hi).2⟩
    obtain ⟨i, hi, rfl⟩ := List.mem_iff_getElem.mp hb
    exact (hdigit i hi).1
  · rintro ⟨hdec, rfl⟩
    have hsub (i : ℕ) (hi : i < m.length) : x i - 48 = (m[i].toNat - 48 : ℕ) := by
      rw [hbyte hi, Nat.cast_sub (hdec m[i] (List.getElem_mem hi)).1]
      rfl
    refine ⟨fun i => x i - 48, fun i hi => ?_, (hfold hsub).symm⟩
    have hm := hdec m[i] (List.getElem_mem hi)
    refine digit_iff.mpr ⟨m[i].toNat - 48, by omega, ?_, hsub i hi⟩
    rw [hbyte hi, Nat.sub_add_cancel hm.1]

end

end Pprev
