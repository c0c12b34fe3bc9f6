import Mathlib.Data.List.Basic
import Mathlib.Tactic.IntervalCases

/-!
# Hexadecimal text

Bytes as two lower-case hexadecimal digits each, and their reading, which takes digits of both cases
and fails on anything else: the documented behaviour of `encode` and `decode` of the crate `hex`,
for which they stand.
-/

namespace Hex

abbrev Bytes := List UInt8

/-- The digit of a number below 16. -/
def digit (n : ℕ) : UInt8 := if n < 10 then UInt8.ofNat (48 + n) else UInt8.ofNat (87 + n)

/-- The number of a digit. -/
def value (b : UInt8) : Option ℕ :=
  if 48 ≤ b.toNat ∧ b.toNat ≤ 57 then some (b.toNat - 48)
  else if 97 ≤ b.toNat ∧ b.toNat ≤ 102 then some (b.toNat - 87)
  else if 65 ≤ b.toNat ∧ b.toNat ≤ 70 then some (b.toNat - 55)
  else none

def encode : Bytes → Bytes
  | [] => []
  | b :: m => digit (b.toNat / 16) :: digit (b.toNat % 16) :: encode m

def decode : Bytes → Option Bytes
  | [] => some []
  | [_] => none
  | a :: b :: l => do
    let x ← value a
    let y ← value b
    let m ← decode l
    some (UInt8.ofNat (16 * x + y) :: m)

theorem value_digit {n : ℕ} (h : n < 16) : value (digit n) = some n := by
  interval_cases n <;> rfl

@[simp] theorem length_encode (m : Bytes) : (encode m).length = 2 * m.length := by
  induction m with
  | nil => rfl
  | cons b m ih =>
    rw [encode, List.length_cons, List.length_cons, ih, List.length_cons]
    omega

theorem decode_encode (m : Bytes) : decode (encode m) = some m := by
  induction m with
  | nil => rfl
  | cons b m ih =>
    have hlt := b.toNat_lt
    rw [encode, decode, value_digit (by omega), value_digit (by omega), ih]
    simp only [bind, Option.bind, Option.some.injEq, List.cons.injEq, and_true]
    rw [Nat.div_add_mod, UInt8.ofNat_toNat]

/-- What is read is digits, two for each byte. -/
theorem of_decode {l m : Bytes} (h : decode l = some m) :
    l.length = 2 * m.length ∧ ∀ b ∈ l, (value b).isSome := by
  induction l using decode.induct generalizing m with
  | case1 =>
    obtain rfl : [] = m := by simpa [decode] using h
    simp
  | case2 a => simp [decode] at h
  | case3 a b l ih =>
    rw [decode] at h
    cases hx : value a with
    | none => simp [hx] at h
    | some x =>
      cases hy : value b with
      | none => simp [hx, hy] at h
      | some y =>
        cases hm : decode l with
        | none => simp [hx, hy, hm] at h
        | some m' =>
          obtain rfl : UInt8.ofNat (16 * x + y) :: m' = m := by simpa [hx, hy, hm] using h
          obtain ⟨hlen, hall⟩ := ih hm
          refine ⟨by simp [hlen]; omega, ?_⟩
          simp only [List.forall_mem_cons, hx, hy, Option.isSome_some, true_and]
          exact hall

theorem isSome_of_mem_encode {m : Bytes} : ∀ b ∈ encode m, (value b).isSome :=
  (of_decode (decode_encode m)).2

end Hex
