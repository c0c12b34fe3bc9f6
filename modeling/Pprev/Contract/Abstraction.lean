import Pprev.Contract.Guards
import Pprev.Escrow.Index
import Pprev.Escrow.Obligations
import Mathlib.Data.Fintype.EquivFin

/-!
# The contract keeps the book of an escrow

The storage of the contract is read as a book (`State.book`), and the effects of its functions are
moves of that book. The invariant of the storage is that the book is valid, that identifiers that
were not assigned are absent, and that the index of pending applications is exact.
-/

namespace Pprev

open Evm Function

/-- Words are finitely many. The enumeration is a choice, so that no sum over all words can be
evaluated by accident. -/
noncomputable instance (priority := 2000) wordFintype (n : ℕ) : Fintype (BitVec n) :=
  have : Finite (BitVec n) := Finite.of_injective BitVec.toFin fun _ _ => BitVec.eq_of_toFin_eq
  Fintype.ofFinite _

/-! ## Storage as a book -/

/-- The book the storage keeps. -/
def State.book (s : State) : Book Uint256 Uint256 Uint256 Address where
  txState := s.txState
  owner t := (s.listings t).owner
  collateral t := (s.listings t).collateral.toNat
  expirations t := (s.listings t).expirations.toNat
  appStatus a := (s.applications a).status
  appTx a := (s.applications a).txId
  depositor a := (s.applications a).depositor
  deposit a := (s.applications a).deposit.toNat
  engStatus e := (s.engagements e).status
  engApp e := (s.engagements e).appId
  expiresAt e := (s.engagements e).expiresAt.toNat
  credit w := (s.credit w).toNat

/-- The ether the contract owes: the remaining collateral of every active, locked or expired
listing, the deposit of every pending application and of the application of every open engagement,
and all credits. -/
noncomputable def obligations (s : State) : ℕ :=
  (∑ t, if s.txState t = .active ∨ s.txState t = .locked ∨ s.txState t = .expired then
      (s.listings t).collateral.toNat else 0) +
  (∑ a, if (s.applications a).status = .pending then (s.applications a).deposit.toNat else 0) +
  (∑ e, if (s.engagements e).status = .open then
      (s.applications (s.engagements e).appId).deposit.toNat else 0) +
  ∑ w, (s.credit w).toNat

theorem obligations_eq_owed (s : State) : obligations s = s.book.owed := by
  unfold Book.owed Book.held
  rfl

attribute [irreducible] obligations

/-! ## Identifiers -/

/-- A table has no entry at 0 nor from the next identifier on. -/
def Unused {β : Type} [Inhabited β] (next : Uint256) (table : Uint256 → β) : Prop :=
  ∀ i, i = 0 ∨ next ≤ i → table i = default

section

variable {β : Type} [Inhabited β] {next : Uint256} {table : Uint256 → β}

theorem Unused.update_old (h : Unused next table) {i : Uint256} (hi : ¬ (i = 0 ∨ next ≤ i)) (v : β) :
    Unused next (update table i v) := by
  intro j hj
  rw [update_of_ne (by rintro rfl; exact hi hj)]
  exact h j hj

theorem Unused.update_new (h : Unused next table) (hne : next ≠ 0) (hlt : next.toNat + 1 < 2 ^ 256)
    (v : β) : Unused (next + 1) (update table next v) := by
  intro j hj
  have hj' : j ≠ next ∧ (j = 0 ∨ next ≤ j) := by bv_omega
  rw [update_of_ne hj'.1]
  exact h j hj'.2

end

/-- The identifiers that were not assigned name absent records. -/
structure Allocated (s : State) : Prop where
  nextTxId : s.nextTxId ≠ 0
  nextAppId : s.nextAppId ≠ 0
  nextEngId : s.nextEngId ≠ 0
  txState : Unused s.nextTxId s.txState
  listings : Unused s.nextTxId s.listings
  applications : Unused s.nextAppId s.applications
  engagements : Unused s.nextEngId s.engagements

namespace Allocated

variable {s : State}

theorem txId_used (h : Allocated s) {t : Uint256} (ht : s.txState t ≠ .none) :
    ¬ (t = 0 ∨ s.nextTxId ≤ t) := fun hun => ht (h.txState t hun)

theorem appId_used (h : Allocated s) {a : Uint256} (ha : (s.applications a).status ≠ .none) :
    ¬ (a = 0 ∨ s.nextAppId ≤ a) := fun hun => ha (by rw [h.applications a hun]; rfl)

theorem engId_used (h : Allocated s) {e : Uint256} (he : (s.engagements e).status ≠ .none) :
    ¬ (e = 0 ∨ s.nextEngId ≤ e) := fun hun => he (by rw [h.engagements e hun]; rfl)

theorem next_txState (h : Allocated s) : s.txState s.nextTxId = .none :=
  h.txState _ (.inr (BitVec.le_refl _))

theorem next_listing (h : Allocated s) : s.listings s.nextTxId = default :=
  h.listings _ (.inr (BitVec.le_refl _))

theorem next_application (h : Allocated s) : s.applications s.nextAppId = default :=
  h.applications _ (.inr (BitVec.le_refl _))

theorem next_appStatus (h : Allocated s) : s.book.appStatus s.nextAppId = .none :=
  congrArg Application.status h.next_application

theorem next_engagement (h : Allocated s) : s.engagements s.nextEngId = default :=
  h.engagements _ (.inr (BitVec.le_refl _))

theorem next_engStatus (h : Allocated s) : s.book.engStatus s.nextEngId = .none :=
  congrArg Engagement.status h.next_engagement

end Allocated

/-! ## The invariant -/

section

variable {keccak256 : Bytes → Bytes32} (d : Deployment keccak256)

/-- The terms of the escrow a deployment runs. -/
def terms : Terms where
  lock := d.TAU_LOCK.toNat
  maxExpirations := d.MAX_EXPIRATIONS.toNat
  surviving c := c * d.RHO.toNat / 10000

/-- The invariant of the storage at a time. -/
structure Inv (now : ℕ) (s : State) : Prop where
  valid : s.book.Valid (terms d) now
  allocated : Allocated s
  indexed : s.book.Indexed 0 s.pendingApp

/-- How the storage may change: the book evolves, what a listing, an application or a policy says
of itself stays, and commitments and nonces are never forgotten. -/
structure Evolves (s s' : State) : Prop where
  book : s.book.Evolves s'.book
  cTx : ∀ t, s.txState t ≠ .none → (s'.listings t).cTx = (s.listings t).cTx
  policyIdR : ∀ t, s.txState t ≠ .none → (s'.listings t).policyIdR = (s.listings t).policyIdR
  cB : ∀ a, (s.applications a).status ≠ .none → (s'.applications a).cB = (s.applications a).cB
  policy : ∀ p, (s.policyRegistry p).exists_ = true → s'.policyRegistry p = s.policyRegistry p
  registered : ∀ c, s.registered c = true → s'.registered c = true
  consumed : ∀ η, s.consumed η = true → s'.consumed η = true

theorem Evolves.refl (s : State) : Evolves s s :=
  ⟨.refl _, fun _ _ => rfl, fun _ _ => rfl, fun _ _ => rfl, fun _ _ => rfl, fun _ => id, fun _ => id⟩

theorem Evolves.trans {s s' s'' : State} (h : Evolves s s') (h' : Evolves s' s'') :
    Evolves s s'' where
  book := h.book.trans h'.book
  cTx t ht := (h'.cTx t (TxState.ne_none_of_path (h.book.txState t) ht)).trans (h.cTx t ht)
  policyIdR t ht :=
    (h'.policyIdR t (TxState.ne_none_of_path (h.book.txState t) ht)).trans (h.policyIdR t ht)
  cB a ha := (h'.cB a (AppStatus.ne_none_of_path (h.book.appStatus a) ha)).trans (h.cB a ha)
  policy p hp := by
    have h₁ := h.policy p hp
    rw [h'.policy p (by rw [h₁]; exact hp), h₁]
  registered c hc := h'.registered c (h.registered c hc)
  consumed η hη := h'.consumed η (h.consumed η hη)

end

end Pprev
