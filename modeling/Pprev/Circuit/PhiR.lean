import Pprev.Circuit.Bytes

/-!
# Rental ownership

The template of `phi_r.circom`: the account holder of a notarised session is one of the owners in
the title record on which the property is.
-/

namespace Pprev

open Evm Slice

/-- Template parameters of `PhiR`. -/
structure PhiRParams where
  accountWidth : ℕ
  ownerSlots : ℕ
  ownerStride : ℕ
  ownersLen : ℕ
  propertyIdWidth : ℕ
  padding : UInt8
  deriving DecidableEq

/-- The input signals of `PhiR`, the public ones first. -/
structure PhiRInputs where
  accountHash : ℕ → F
  ownersHash : ℕ → F
  propertyHash : ℕ → F
  propertyId : ℕ → F
  bind : F
  account : ℕ → F
  owners : ℕ → F
  property : ℕ → F
  accountBlinder : ℕ → F
  ownersBlinder : ℕ → F
  propertyBlinder : ℕ → F

/-- The assertions of the template. -/
def PhiRParams.Asserts (p : PhiRParams) : Prop :=
  (p.ownerStride : F) = p.accountWidth + 3 ∧
  (p.ownersLen : F) = (p.ownerSlots - 1) * p.ownerStride + p.accountWidth ∧
  varLe p.accountWidth 31 ∧
  varLe p.propertyIdWidth 32 ∧ varLt 16 p.propertyIdWidth

/-- The separator between two owner slots. -/
def slotSeparator : Bytes := [34, 44, 34]

section

variable {sha256 : Bytes → Bytes} {poseidon : F → F → F} (lib : Circomlib sha256 poseidon)

/-- The constraints of the template hold for some values of the signals that are no inputs. -/
def PhiR (p : PhiRParams) (x : PhiRInputs) : Prop :=
  ∃ (accountPacked : F) (slotPacked matched noMatchUpTo : ℕ → F) (bindSquared : F),
    OpenTo lib p.accountWidth x.account x.accountBlinder x.accountHash ∧
    OpenTo lib p.ownersLen x.owners x.ownersBlinder x.ownersHash ∧
    OpenTo lib p.propertyIdWidth x.property x.propertyBlinder x.propertyHash ∧
    NotPadding lib (x.account 0) (p.padding.toNat : ℕ) ∧
    (∀ k, k + 1 < p.ownerSlots →
      x.owners (k * p.ownerStride + p.accountWidth) = 34 ∧
      x.owners (k * p.ownerStride + p.accountWidth + 1) = 44 ∧
      x.owners (k * p.ownerStride + p.accountWidth + 2) = 34) ∧
    PackBytes p.accountWidth x.account accountPacked ∧
    noMatchUpTo 0 = 1 ∧
    (∀ k < p.ownerSlots,
      PackBytes p.accountWidth (fun i => x.owners (k * p.ownerStride + i)) (slotPacked k) ∧
      lib.IsEqual (slotPacked k) accountPacked (matched k) ∧
      noMatchUpTo (k + 1) = noMatchUpTo k * (1 - matched k)) ∧
    noMatchUpTo p.ownerSlots = 0 ∧
    PropertyWord p.propertyIdWidth x.property x.propertyId ∧
    bindSquared = x.bind * x.bind

variable {lib}

/-- The chain of products is one until a slot matches, and zero from then on. -/
theorem noMatch_eq {matched noMatchUpTo : ℕ → F} {P : ℕ → Prop} [DecidablePred P] {n : ℕ}
    (h0 : noMatchUpTo 0 = 1) (hm : ∀ k < n, matched k = flag (P k))
    (hstep : ∀ k < n, noMatchUpTo (k + 1) = noMatchUpTo k * (1 - matched k)) :
    noMatchUpTo n = 0 ↔ ∃ k < n, P k := by
  have hchain : ∀ k ≤ n, noMatchUpTo k = flag (∀ j < k, ¬P j) := by
    intro k hk
    induction k with
    | zero => simpa [flag] using h0
    | succ k ih =>
      rw [hstep k hk, ih (by omega), hm k hk, flag_mul_not]
      exact flag_congr Nat.forall_lt_succ_right.symm
  rw [hchain n le_rfl, flag_eq_zero]
  push Not
  rfl

theorem Holds.separator_iff {x : ℕ → F} {m : Bytes} (h : Holds x m) {k : ℕ}
    (hk : k + 3 ≤ m.length) :
    (x k = 34 ∧ x (k + 1) = 44 ∧ x (k + 2) = 34) ↔ slice m k 3 = slotSeparator := by
  have h0 := h.eq_byte (i := k) (by omega) 34
  have h1 := h.eq_byte (i := k + 1) (by omega) 44
  have h2 := h.eq_byte (i := k + 2) (by omega) 34
  have hcast : ((34 : UInt8).toNat : F) = 34 ∧ ((44 : UInt8).toNat : F) = 44 := by
    constructor <;> rfl
  rw [hcast.1] at h0 h2
  rw [hcast.2] at h1
  rw [h0, h1, h2, slice, List.drop_eq_getElem_cons (show k < m.length by omega),
    List.drop_eq_getElem_cons (show k + 1 < m.length by omega),
    List.drop_eq_getElem_cons (show k + 2 < m.length by omega),
    List.getElem?_eq_getElem (show k < m.length by omega),
    List.getElem?_eq_getElem (show k + 1 < m.length by omega),
    List.getElem?_eq_getElem (show k + 2 < m.length by omega)]
  simp only [slotSeparator, List.take_succ_cons, List.take_zero, List.cons.injEq, and_true,
    Option.some.injEq]

/-- What the constraints say about byte strings. -/
theorem phiR_iff {p : PhiRParams} {x : PhiRInputs} (hw : 0 < p.accountWidth)
    (hw' : p.accountWidth ≤ 31) (hstride : p.ownerStride = p.accountWidth + 3)
    (hlen : p.ownersLen = (p.ownerSlots - 1) * p.ownerStride + p.accountWidth)
    (hp : 16 < p.propertyIdWidth ∧ p.propertyIdWidth ≤ 32) :
    PhiR lib p x ↔ ∃ account owners property : Bytes,
      Opens sha256 p.accountWidth x.account x.accountBlinder x.accountHash account ∧
      Opens sha256 p.ownersLen x.owners x.ownersBlinder x.ownersHash owners ∧
      Opens sha256 p.propertyIdWidth x.property x.propertyBlinder x.propertyHash property ∧
      account[0]? ≠ some p.padding ∧
      (∀ k, k + 1 < p.ownerSlots →
        slice owners (k * p.ownerStride + p.accountWidth) 3 = slotSeparator) ∧
      (∃ k < p.ownerSlots, slice owners (k * p.ownerStride) p.accountWidth = account) ∧
      IsLimbs x.propertyId (property ++ List.replicate (32 - p.propertyIdWidth) 0) := by
  have hslot {k : ℕ} (hk : k < p.ownerSlots) : k * p.ownerStride + p.accountWidth ≤ p.ownersLen := by
    rw [hlen]
    exact Nat.add_le_add_right (Nat.mul_le_mul_right _ (by omega)) _
  have hsep {k : ℕ} (hk : k + 1 < p.ownerSlots) :
      k * p.ownerStride + p.accountWidth + 3 ≤ p.ownersLen := by
    have := hslot hk
    rw [Nat.succ_mul] at this
    omega
  -- the slot comparisons are about bytes, since packings of at most 31 bytes do not wrap around
  have hmatch {account owners : Bytes} (ha : account.length = p.accountWidth)
      (ho : owners.length = p.ownersLen) {k : ℕ} (hk : k < p.ownerSlots) :
      (packed (slice owners (k * p.ownerStride) p.accountWidth) : F) = packed account ↔
        slice owners (k * p.ownerStride) p.accountWidth = account := by
    have hl := length_slice (l := owners) (ho ▸ hslot hk)
    rw [natCast_inj (packed_lt_order (by omega)) (packed_lt_order (by omega))]
    exact ⟨packed_inj (hl.trans ha.symm), congrArg _⟩
  have hslotPacked {owners : Bytes} (ho : owners.length = p.ownersLen) (hos : Holds x.owners owners)
      {k : ℕ} (hk : k < p.ownerSlots) (out : F) :
      PackBytes p.accountWidth (fun i => x.owners (k * p.ownerStride + i)) out ↔
        out = packed (slice owners (k * p.ownerStride) p.accountWidth) := by
    rw [← packBytes_iff (hos.sliced (ho ▸ hslot hk)), length_slice (ho ▸ hslot hk)]
  constructor
  · rintro ⟨accountPacked, slotPacked, matched, noMatchUpTo, bindSquared, hopenA, hopenO, hopenP,
      hpad, hseps, hpackA, hnm0, hslots, hnm, hword, -⟩
    obtain ⟨account, hA⟩ := openTo_iff.mp hopenA
    obtain ⟨owners, hO⟩ := openTo_iff.mp hopenO
    obtain ⟨property, hP⟩ := openTo_iff.mp hopenP
    refine ⟨account, owners, property, hA, hO, hP, ?_, fun k hk => ?_, ?_, ?_⟩
    · rw [notPadding_iff, ne_eq, hA.2.1.eq_byte (by rw [hA.1]; exact hw)] at hpad
      exact hpad
    · exact (hO.2.1.separator_iff (hO.1 ▸ hsep hk)).mp (hseps k hk)
    · rw [← hA.1, packBytes_iff hA.2.1] at hpackA
      have hmatched : ∀ k < p.ownerSlots,
          matched k = flag (slice owners (k * p.ownerStride) p.accountWidth = account) := by
        intro k hk
        obtain ⟨hpack, heq, -⟩ := hslots k hk
        rw [lib.isEqual_iff.mp heq, (hslotPacked hO.1 hO.2.1 hk _).mp hpack, hpackA]
        simp only [flag, hmatch hA.1 hO.1 hk]
      exact (noMatch_eq hnm0 hmatched fun k hk => (hslots k hk).2.2).mp hnm
    · rw [← hP.1] at hword hp ⊢
      exact (propertyWord_iff hP.2.1 hp).mp hword
  · rintro ⟨account, owners, property, hA, hO, hP, hpad, hseps, hmatched, hword⟩
    let matched (k : ℕ) : F := flag (slice owners (k * p.ownerStride) p.accountWidth = account)
    let noMatchUpTo (k : ℕ) : F := Nat.rec 1 (fun k r => r * (1 - matched k)) k
    refine ⟨packed account, fun k => packed (slice owners (k * p.ownerStride) p.accountWidth),
      matched, noMatchUpTo, x.bind * x.bind, openTo_iff.mpr ⟨_, hA⟩, openTo_iff.mpr ⟨_, hO⟩,
      openTo_iff.mpr ⟨_, hP⟩, ?_, fun k hk => ?_, ?_, rfl, fun k hk => ⟨?_, ?_, rfl⟩, ?_, ?_, rfl⟩
    · rwa [notPadding_iff, ne_eq, hA.2.1.eq_byte (by rw [hA.1]; exact hw)]
    · exact (hO.2.1.separator_iff (hO.1 ▸ hsep hk)).mpr (hseps k hk)
    · rw [← hA.1, packBytes_iff hA.2.1]
    · exact (hslotPacked hO.1 hO.2.1 hk _).mpr rfl
    · rw [lib.isEqual_iff]
      simp only [matched, flag, hmatch hA.1 hO.1 hk]
    · exact (noMatch_eq rfl (fun _ _ => rfl) fun _ _ => rfl).mpr hmatched
    · rw [← hP.1] at hword hp ⊢
      exact (propertyWord_iff hP.2.1 hp).mpr hword

end

end Pprev
