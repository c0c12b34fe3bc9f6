import Mathlib.Data.BitVec
import Mathlib.Data.List.Basic
import Mathlib.Logic.Function.Basic

/-!
# Machine words

Words of the EVM as bit vectors, the arithmetic that Solidity 0.8 checks for overflow, and the
standard ABI encoding of a sequence of static words.
-/

namespace Evm

abbrev Uint256 := BitVec 256
abbrev Bytes32 := BitVec 256
abbrev Uint64 := BitVec 64
abbrev Address := BitVec 160
abbrev Bytes := List UInt8

/-! ## Checked arithmetic -/

/-- `a + b`, or nothing on overflow. -/
def checkedAdd (a b : Uint256) : Option Uint256 :=
  if a.toNat + b.toNat < 2 ^ 256 then some (a + b) else none

/-- `a - b`, or nothing on underflow. -/
def checkedSub (a b : Uint256) : Option Uint256 :=
  if b.toNat ≤ a.toNat then some (a - b) else none

/-- `a * b`, or nothing on overflow. -/
def checkedMul (a b : Uint256) : Option Uint256 :=
  if a.toNat * b.toNat < 2 ^ 256 then some (a * b) else none

theorem checkedAdd_eq_some {a b c : Uint256} :
    checkedAdd a b = some c ↔ a.toNat + b.toNat < 2 ^ 256 ∧ a + b = c := by
  rw [checkedAdd, Option.ite_none_right_eq_some, Option.some.injEq]

theorem checkedSub_eq_some {a b c : Uint256} :
    checkedSub a b = some c ↔ b.toNat ≤ a.toNat ∧ a - b = c := by
  rw [checkedSub, Option.ite_none_right_eq_some, Option.some.injEq]

theorem checkedMul_eq_some {a b c : Uint256} :
    checkedMul a b = some c ↔ a.toNat * b.toNat < 2 ^ 256 ∧ a * b = c := by
  rw [checkedMul, Option.ite_none_right_eq_some, Option.some.injEq]

theorem toNat_add_of_lt {a b : Uint256} (h : a.toNat + b.toNat < 2 ^ 256) :
    (a + b).toNat = a.toNat + b.toNat := by
  rw [BitVec.toNat_add, Nat.mod_eq_of_lt h]

theorem toNat_sub_of_le {a b : Uint256} (h : b.toNat ≤ a.toNat) :
    (a - b).toNat = a.toNat - b.toNat := BitVec.toNat_sub_of_le (BitVec.le_def.mpr h)

theorem toNat_mul_of_lt {a b : Uint256} (h : a.toNat * b.toNat < 2 ^ 256) :
    (a * b).toNat = a.toNat * b.toNat := by
  rw [BitVec.toNat_mul, Nat.mod_eq_of_lt h]

/-! ## ABI encoding of static words -/

/-- The 32 bytes of a word, most significant first. -/
def wordBytes (w : Bytes32) : Bytes :=
  (List.range 32).map fun i => UInt8.ofBitVec (w.extractLsb' (8 * (31 - i)) 8)

/-- `abi.encode` of values that all have a static 32-byte encoding. -/
def abiEncode (ws : List Bytes32) : Bytes := ws.flatMap wordBytes

/-- An address as a word: zero-extended on the left. -/
def wordOfAddress (a : Address) : Bytes32 := a.setWidth 256

/-- A `uint64` as a word. -/
def wordOfUint64 (x : Uint64) : Bytes32 := x.setWidth 256

@[simp] theorem length_wordBytes (w : Bytes32) : (wordBytes w).length = 32 := by
  simp [wordBytes]

/-- A word is determined by its bytes. -/
theorem eq_of_bytes {width n : ℕ} {v w : BitVec width} (hwidth : width = 8 * n)
    (h : ∀ j < n, v.extractLsb' (8 * j) 8 = w.extractLsb' (8 * j) 8) : v = w := by
  apply BitVec.eq_of_getLsbD_eq
  intro i hi
  have hbyte := congrArg (fun b => b.getLsbD (i % 8)) (h (i / 8) (by omega))
  have hmod : i % 8 < 8 := Nat.mod_lt _ (by omega)
  simpa [BitVec.getLsbD_extractLsb', hmod, Nat.div_add_mod] using hbyte

theorem wordBytes_injective : Function.Injective wordBytes := by
  intro v w h
  have hbyte : ∀ j < 32, v.extractLsb' (8 * j) 8 = w.extractLsb' (8 * j) 8 := by
    intro j hj
    have hget := congrArg (fun l => l[31 - j]?) h
    have hj' : 31 - j < 32 := by omega
    have hsub : 31 - (31 - j) = j := by omega
    simpa [wordBytes, hj', hsub] using hget
  exact eq_of_bytes rfl hbyte

theorem length_abiEncode (ws : List Bytes32) : (abiEncode ws).length = 32 * ws.length := by
  induction ws with
  | nil => rfl
  | cons w ws ih =>
    simp only [abiEncode, List.flatMap_cons, List.length_append, length_wordBytes,
      List.length_cons] at ih ⊢
    omega

/-- The encoding of static words is injective, whatever the number of words. -/
theorem abiEncode_injective : Function.Injective abiEncode := by
  intro vs
  induction vs with
  | nil =>
    intro ws h
    have hlen := congrArg List.length h
    rw [length_abiEncode, length_abiEncode, List.length_nil] at hlen
    exact (List.length_eq_zero_iff.mp (by omega)).symm
  | cons v vs ih =>
    intro ws h
    cases ws with
    | nil =>
      have hlen := congrArg List.length h
      rw [length_abiEncode, length_abiEncode] at hlen
      simp at hlen
    | cons w ws =>
      obtain ⟨hhead, htail⟩ := List.append_inj h (by simp)
      rw [wordBytes_injective hhead, ih htail]

theorem wordOfAddress_injective : Function.Injective wordOfAddress := by
  intro a b h
  have := congrArg BitVec.toNat h
  simp only [wordOfAddress, BitVec.toNat_setWidth] at this
  have ha := a.isLt
  have hb := b.isLt
  rw [Nat.mod_eq_of_lt (by omega), Nat.mod_eq_of_lt (by omega)] at this
  exact BitVec.eq_of_toNat_eq this

theorem wordOfUint64_injective : Function.Injective wordOfUint64 := by
  intro a b h
  have := congrArg BitVec.toNat h
  simp only [wordOfUint64, BitVec.toNat_setWidth] at this
  have ha := a.isLt
  have hb := b.isLt
  rw [Nat.mod_eq_of_lt (by omega), Nat.mod_eq_of_lt (by omega)] at this
  exact BitVec.eq_of_toNat_eq this

end Evm
