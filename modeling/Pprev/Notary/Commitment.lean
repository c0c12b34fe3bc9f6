import Pprev.Circuit.Bytes
import Pprev.Offchain.Layout

/-!
# The commitment to the counterparty

The functions of `mock.rs` that commit to an identifier: natively, with the number of the identifier
reduced into the field and the number of the salt refused if it is not in it.
-/

namespace Pprev

open Evm Slice Digits

inductive CommitmentError where
  /-- an identifier must fit one field element -/
  | identifier
  /-- the salt is not below the field order -/
  | salt
  deriving DecidableEq

/-- The number of 32 big-endian bytes as four 64-bit limbs, least significant first. -/
def be_limbs (bytes : Bytes) : List ℕ :=
  (List.range 4).map fun i => packed (slice bytes (32 - 8 * (i + 1)) 8)

/-- The big-endian bytes of a field element, as a word. -/
def wordOfElement (x : F) : Bytes32 := BitVec.ofNat 256 x.val

/-- Poseidon of an identifier, as one number modulo the field order, and a salt. -/
def counterparty_commitment (poseidon : F → F → F) (identifier salt : Bytes) :
    Except CommitmentError Bytes32 := do
  ensure (identifier.length ≤ 31) .identifier
  let id : F := packed identifier
  let salt : ℕ := Nat.ofDigits (2 ^ 64) (be_limbs salt)
  ensure (salt < BN254_R) .salt
  .ok (wordOfElement (poseidon id salt))

theorem ofDigits_be_limbs {salt : Bytes} (h : salt.length = 32) :
    Nat.ofDigits (2 ^ 64) (be_limbs salt) = packed salt := by
  have hparts : salt = slice salt 0 8 ++ slice salt 8 8 ++ slice salt 16 8 ++ slice salt 24 8 := by
    rw [← slice_add salt 0 8 8, ← slice_add salt 0 16 8, ← slice_add salt 0 24 8, slice,
      List.drop_zero, List.take_of_length_le h.le]
  have hlen {start : ℕ} (hs : start + 8 ≤ 32) : (slice salt start 8).length = 8 :=
    length_slice (by rwa [h])
  have hpacked : packed salt = ((packed (slice salt 0 8) * 256 ^ 8 + packed (slice salt 8 8)) *
      256 ^ 8 + packed (slice salt 16 8)) * 256 ^ 8 + packed (slice salt 24 8) := by
    conv_lhs => rw [hparts]
    rw [packed_append, packed_append, packed_append, hlen (by omega), hlen (by omega),
      hlen (by omega)]
  rw [hpacked]
  simp only [be_limbs, List.range_succ, List.range_zero, List.nil_append,
    List.map_cons, List.map_nil, List.cons_append, Nat.ofDigits_cons, Nat.ofDigits_nil]
  ring

theorem toNat_wordOfElement (x : F) : (wordOfElement x).toNat = x.val := by
  rw [wordOfElement, BitVec.toNat_ofNat]
  exact Nat.mod_eq_of_lt ((ZMod.val_lt x).trans (by decide))

theorem counterparty_commitment_eq_ok {poseidon : F → F → F} {identifier salt : Bytes}
    (hsalt : salt.length = 32) {cB : Bytes32} :
    counterparty_commitment poseidon identifier salt = .ok cB ↔
      identifier.length ≤ 31 ∧ packed salt < BN254_R ∧
        cB = wordOfElement (poseidon (packed identifier) (packed salt)) := by
  simp only [counterparty_commitment, ofDigits_be_limbs hsalt, bind_eq_ok, ensure_eq_ok,
    Except.ok.injEq]
  constructor
  · rintro ⟨_, hid, _, hlt, rfl⟩
    exact ⟨hid, hlt, rfl⟩
  · rintro ⟨hid, hlt, rfl⟩
    exact ⟨(), hid, (), hlt, rfl⟩

end Pprev
