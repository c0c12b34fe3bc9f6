import Pprev.Contract.Pprev

/-!
# What each function checks and does

For every function of the contract the conditions under which it does not revert, in the order of
the source, and what it then does in one equation. Everything else about the functions is derived
from these.
-/

namespace Pprev

open Evm Function Tx

section

variable {keccak256 : Bytes → Bytes32} (d : Deployment keccak256)

/-- An attestation time within the freshness window. -/
def Fresh (b : Block) (tAtt : Uint64) : Prop :=
  tAtt.toNat ≤ b.timestamp ∧ b.timestamp ≤ tAtt.toNat + d.DELTA.toNat

/-- The installed verifier accepts the signature on a struct hash. -/
def Verified (b : Block) (m : Msg) (s : State) (structHash : Bytes32) (sigma : Bytes) : Prop :=
  m.verify s.notaryVerifier (hashTypedData d b structHash) sigma = some true

end

section

variable {keccak256 : Bytes → Bytes32} {d : Deployment keccak256} {α : Type} {b : Block} {m : Msg}
  {s : State}

/-! ## The shared checks -/

theorem verifyNotarySignature_bind {structHash : Bytes32} {sigma : Bytes}
    {f : Unit → Tx State Err α}
    (h : ((verifyNotarySignature d b m structHash sigma >>= f) s).Live) :
    Verified d b m s structHash sigma ∧ (f () s).Live := by
  have h' : ((checked .verifierFailed
      (m.verify s.notaryVerifier (hashTypedData d b structHash) sigma) >>= fun ok =>
        revertIf (ok = false) .invalidNotarySignature >>= f) s).Live := by
    rw [← Tx.bind_assoc]; exact h
  obtain ⟨ok, hv, h'⟩ := checked_bind h'
  obtain ⟨hok, h'⟩ := revertIf_bind h'
  rw [Bool.not_eq_false] at hok
  rw [hok] at hv
  exact ⟨hv, h'⟩

theorem verifyNotarySignature_pass {structHash : Bytes32} {sigma : Bytes}
    {f : Unit → Tx State Err α} (h : Verified d b m s structHash sigma) :
    (verifyNotarySignature d b m structHash sigma >>= f) s = f () s := by
  show (((checked _ (m.verify _ _ _) >>= fun ok => revertIf (ok = false) _) >>= f) s) = _
  rw [Tx.bind_assoc, checked_pass h, revertIf_pass (by decide)]

theorem requireUnconsumed_bind {eta : Bytes32} {f : Unit → Tx State Err α}
    (h : ((requireUnconsumed eta >>= f) s).Live) : s.consumed eta = false ∧ (f () s).Live := by
  obtain ⟨hc, h⟩ := revertIf_bind (s := s) h
  exact ⟨Bool.eq_false_iff.mpr hc, h⟩

theorem requireUnconsumed_pass {eta : Bytes32} {f : Unit → Tx State Err α}
    (h : s.consumed eta = false) : (requireUnconsumed eta >>= f) s = f () s :=
  revertIf_pass (s := s) (Bool.eq_false_iff.mp h)

theorem requireFresh_bind {tAtt : Uint64} {f : Unit → Tx State Err α}
    (h : ((requireFresh d b tAtt >>= f) s).Live) : Fresh d b tAtt ∧ (f () s).Live := by
  rw [requireFresh, Tx.bind_assoc] at h
  obtain ⟨h₁, h⟩ := revertIf_bind h
  obtain ⟨h₂, h⟩ := revertIf_bind h
  exact ⟨⟨by omega, by omega⟩, h⟩

theorem requireFresh_pass {tAtt : Uint64} {f : Unit → Tx State Err α} (h : Fresh d b tAtt) :
    (requireFresh d b tAtt >>= f) s = f () s := by
  obtain ⟨h₁, h₂⟩ := h
  rw [requireFresh, Tx.bind_assoc, revertIf_pass (by omega), revertIf_pass (by omega)]

/-- A function that is not payable runs on messages without ether. -/
theorem nonPayable_live {body : Tx State Err Unit} (h : (nonPayable m body s).Live) :
    m.value = 0 ∧ (body s).Live := by
  obtain ⟨hv, h⟩ := revertIf_bind h
  refine ⟨not_not.mp hv, ?_⟩
  rcases (body s).live_or_revert with hl | ⟨e, he⟩
  · exact hl
  · rw [bind_apply, he] at h
    exact absurd h (Prog.not_live_revert e)

theorem nonPayable_pass {body : Tx State Err Unit} (h : m.value = 0) :
    nonPayable m body s = (body >>= fun _ => pure 0) s := by
  rw [nonPayable, revertIf_pass (not_not.mpr h)]

/-! ## Register -/

section Register

variable {cTx : Bytes32} {txData : TxData} {policyIdR r : Bytes32} {sigmaR : Bytes}
  {etaR : Bytes32} {tAttR : Uint64}

variable (d b m s cTx txData policyIdR r sigmaR etaR tAttR) in
/-- R(a) to R(h), and an identifier is left. -/
structure RegisterGuard : Prop where
  policy : (s.policyRegistry policyIdR).exists_ = true
  commitment : commitment keccak256 txData policyIdR r = cTx
  verified : Verified d b m s
    (hashRegister keccak256 (registerStatement keccak256 m cTx txData policyIdR etaR tAttR)) sigmaR
  unconsumed : s.consumed etaR = false
  fresh : Fresh d b tAttR
  unregistered : s.registered cTx = false
  minCollateral : (s.policyRegistry policyIdR).minCollateral ≤ m.value
  maxCollateral : m.value ≤ (s.policyRegistry policyIdR).maxCollateral
  share : txData.settlementShare ≤ BPS
  next : s.nextTxId.toNat + 1 < 2 ^ 256

theorem register_guard (h : (register d b m cTx txData policyIdR r sigmaR etaR tAttR s).Live) :
    RegisterGuard d b m s cTx txData policyIdR r sigmaR etaR tAttR := by
  obtain ⟨ha, h⟩ := revertIf_bind (s := s) h
  obtain ⟨hb, h⟩ := revertIf_bind h
  obtain ⟨hc, h⟩ := verifyNotarySignature_bind h
  obtain ⟨hd, h⟩ := requireUnconsumed_bind h
  obtain ⟨he, h⟩ := requireFresh_bind h
  obtain ⟨hf, h⟩ := revertIf_bind h
  obtain ⟨hg, h⟩ := revertIf_bind h
  obtain ⟨hh, h⟩ := revertIf_bind h
  obtain ⟨n, hn, -⟩ := checked_bind h
  rw [not_or, BitVec.not_lt, BitVec.not_lt] at hg
  exact ⟨Bool.not_eq_false _ ▸ ha, not_not.mp hb, hc, hd, he, Bool.eq_false_iff.mpr hf, hg.1, hg.2,
    BitVec.not_lt.mp hh, (checkedAdd_eq_some.mp hn).1⟩

theorem register_eq (g : RegisterGuard d b m s cTx txData policyIdR r sigmaR etaR tAttR) :
    register d b m cTx txData policyIdR r sigmaR etaR tAttR s =
      .done (s.addListing m cTx txData policyIdR r etaR (s.nextTxId + 1)) s.nextTxId :=
  calc register d b m cTx txData policyIdR r sigmaR etaR tAttR s
    _ = _ := revertIf_pass (s := s) (by simp [g.policy])
    _ = _ := revertIf_pass (not_not.mpr g.commitment)
    _ = _ := verifyNotarySignature_pass g.verified
    _ = _ := requireUnconsumed_pass g.unconsumed
    _ = _ := requireFresh_pass g.fresh
    _ = _ := revertIf_pass (by simp [g.unregistered])
    _ = _ := revertIf_pass
      (not_or.mpr ⟨BitVec.not_lt.mpr g.minCollateral, BitVec.not_lt.mpr g.maxCollateral⟩)
    _ = _ := revertIf_pass (BitVec.not_lt.mpr g.share)
    _ = _ := checked_pass (checkedAdd_eq_some.mpr ⟨g.next, rfl⟩)

end Register

/-! ## Apply -/

section Apply

variable {txId : Uint256} {txData : TxData} {r cB : Bytes32} {sigmaA : Bytes} {etaA : Bytes32}
  {tAttA : Uint64}

variable (d b m s txId txData r cB sigmaA etaA tAttA) in
/-- A(a) to A(h), and an identifier is left. -/
structure ApplyGuard : Prop where
  isOpen : s.isOpen d txId = true
  owner : m.sender ≠ (s.listings txId).owner
  commitment : commitment keccak256 txData (s.listings txId).policyIdR r = (s.listings txId).cTx
  verified : Verified d b m s
    (hashApply keccak256 (s.applyStatement keccak256 m txId txData cB etaA tAttA)) sigmaA
  unconsumed : s.consumed etaA = false
  fresh : Fresh d b tAttA
  pending : s.pendingApp txId m.sender = 0
  deposit : (s.policyRegistry (s.listings txId).policyIdR).reqEscrow ≤ m.value
  next : s.nextAppId.toNat + 1 < 2 ^ 256

theorem applyFor_guard (h : (applyFor d b m txId txData r cB sigmaA etaA tAttA s).Live) :
    ApplyGuard d b m s txId txData r cB sigmaA etaA tAttA := by
  obtain ⟨ha, h⟩ := revertIf_bind (s := s) h
  obtain ⟨hb, h⟩ := revertIf_bind h
  obtain ⟨hc, h⟩ := revertIf_bind h
  obtain ⟨hd, h⟩ := verifyNotarySignature_bind h
  obtain ⟨he, h⟩ := requireUnconsumed_bind h
  obtain ⟨hf, h⟩ := requireFresh_bind h
  obtain ⟨hg, h⟩ := revertIf_bind h
  obtain ⟨hh, h⟩ := revertIf_bind h
  obtain ⟨n, hn, -⟩ := checked_bind h
  exact ⟨Bool.not_eq_false _ ▸ ha, hb, not_not.mp hc, hd, he, hf, not_not.mp hg,
    BitVec.not_lt.mp hh, (checkedAdd_eq_some.mp hn).1⟩

theorem applyFor_eq (g : ApplyGuard d b m s txId txData r cB sigmaA etaA tAttA) :
    applyFor d b m txId txData r cB sigmaA etaA tAttA s =
      .done (s.addApplication m txId cB etaA (s.nextAppId + 1)) s.nextAppId :=
  calc applyFor d b m txId txData r cB sigmaA etaA tAttA s
    _ = _ := revertIf_pass (s := s) (by simp [g.isOpen])
    _ = _ := revertIf_pass g.owner
    _ = _ := revertIf_pass (not_not.mpr g.commitment)
    _ = _ := verifyNotarySignature_pass g.verified
    _ = _ := requireUnconsumed_pass g.unconsumed
    _ = _ := requireFresh_pass g.fresh
    _ = _ := revertIf_pass (not_not.mpr g.pending)
    _ = _ := revertIf_pass (BitVec.not_lt.mpr g.deposit)
    _ = _ := checked_pass (checkedAdd_eq_some.mpr ⟨g.next, rfl⟩)

end Apply

/-! ## Settle -/

/-- The part of a deposit that goes to the owner. -/
def ownerShare (deposit settlementShare : Uint256) : Uint256 := deposit * settlementShare / BPS

section Settle

variable {engId : Uint256} {txData : TxData} {r : Bytes32} {sigmaS : Bytes} {etaS : Bytes32}
  {tAttS : Uint64}

variable (d b m s engId txData r sigmaS etaS tAttS) in
/-- S(a) to S(h). -/
structure SettleChecks : Prop where
  known : (s.engagements engId).status ≠ .none
  owner : m.sender = (s.listings (s.listingOf engId)).owner
  locked : s.txState (s.listingOf engId) = .locked
  commitment : commitment keccak256 txData (s.listings (s.listingOf engId)).policyIdR r =
    (s.listings (s.listingOf engId)).cTx
  verified : Verified d b m s
    (hashSettle keccak256 (s.settleStatement keccak256 m engId txData etaS tAttS)) sigmaS
  unconsumed : s.consumed etaS = false
  fresh : Fresh d b tAttS
  window : b.timestamp ≤ (s.engagements engId).expiresAt.toNat

variable (s engId txData) in
/-- The amounts of `settle` can be computed. -/
structure SettleAmounts : Prop where
  product : (s.applications (s.engagements engId).appId).deposit.toNat *
    txData.settlementShare.toNat < 2 ^ 256
  toOwner :
    (ownerShare (s.applications (s.engagements engId).appId).deposit
      txData.settlementShare).toNat + (s.listings (s.listingOf engId)).collateral.toNat < 2 ^ 256
  share_le :
    (ownerShare (s.applications (s.engagements engId).appId).deposit
      txData.settlementShare).toNat ≤ (s.applications (s.engagements engId).appId).deposit.toNat

/-- What `settle` pays the owner. -/
def State.toOwner (s : State) (engId : Uint256) (txData : TxData) : Uint256 :=
  ownerShare (s.applications (s.engagements engId).appId).deposit txData.settlementShare +
    (s.listings (s.listingOf engId)).collateral

/-- What `settle` pays the depositor. -/
def State.toCounterparty (s : State) (engId : Uint256) (txData : TxData) : Uint256 :=
  (s.applications (s.engagements engId).appId).deposit -
    ownerShare (s.applications (s.engagements engId).appId).deposit txData.settlementShare

theorem settle_guard (h : (settle d b m engId txData r sigmaS etaS tAttS s).Live) :
    SettleChecks d b m s engId txData r sigmaS etaS tAttS ∧ SettleAmounts s engId txData := by
  obtain ⟨ha, h⟩ := revertIf_bind (s := s) h
  obtain ⟨hb, h⟩ := revertIf_bind h
  obtain ⟨hc, h⟩ := revertIf_bind h
  obtain ⟨hd, h⟩ := revertIf_bind h
  obtain ⟨he, h⟩ := verifyNotarySignature_bind h
  obtain ⟨hf, h⟩ := requireUnconsumed_bind h
  obtain ⟨hg, h⟩ := requireFresh_bind h
  obtain ⟨hh, h⟩ := revertIf_bind h
  obtain ⟨product, hproduct, h⟩ := checked_bind h
  obtain ⟨toOwner, howner, h⟩ := checked_bind h
  obtain ⟨toCounterparty, hparty, -⟩ := checked_bind h
  obtain ⟨hmul, rfl⟩ := checkedMul_eq_some.mp hproduct
  exact ⟨⟨ha, not_not.mp hb, not_not.mp hc, not_not.mp hd, he, hf, hg, not_lt.mp hh⟩,
    ⟨hmul, (checkedAdd_eq_some.mp howner).1, (checkedSub_eq_some.mp hparty).1⟩⟩

theorem settle_eq (g : SettleChecks d b m s engId txData r sigmaS etaS tAttS)
    (a : SettleAmounts s engId txData) :
    settle d b m engId txData r sigmaS etaS tAttS s =
      (pay (s.listings (s.listingOf engId)).owner (s.toOwner engId txData) >>= fun _ =>
        get >>= fun s' =>
          pay (s'.applications (s.engagements engId).appId).depositor
            (s.toCounterparty engId txData))
        (s.settled engId etaS (s.toOwner engId txData) (s.toCounterparty engId txData)) :=
  calc settle d b m engId txData r sigmaS etaS tAttS s
    _ = _ := revertIf_pass (s := s) g.known
    _ = _ := revertIf_pass (not_not.mpr g.owner)
    _ = _ := revertIf_pass (not_not.mpr g.locked)
    _ = _ := revertIf_pass (not_not.mpr g.commitment)
    _ = _ := verifyNotarySignature_pass g.verified
    _ = _ := requireUnconsumed_pass g.unconsumed
    _ = _ := requireFresh_pass g.fresh
    _ = _ := revertIf_pass (not_lt.mpr g.window)
    _ = _ := checked_pass (checkedMul_eq_some.mpr ⟨a.product, rfl⟩)
    _ = _ := checked_pass (checkedAdd_eq_some.mpr ⟨a.toOwner, rfl⟩)
    _ = _ := checked_pass (checkedSub_eq_some.mpr ⟨a.share_le, rfl⟩)

end Settle

/-! ## Engage -/

section Engage

variable {txId appId : Uint256}

variable (d b m s txId appId) in
/-- Engage (i) to (iii), an identifier is left, and the end of the lock window is a word. -/
structure EngageGuard : Prop where
  owner : m.sender = (s.listings txId).owner
  pending : (s.applications appId).status = .pending
  txId_eq : (s.applications appId).txId = txId
  isOpen : s.isOpen d txId = true
  next : s.nextEngId.toNat + 1 < 2 ^ 256
  window : b.timestamp + d.TAU_LOCK.toNat < 2 ^ 256

theorem engage_guard (h : (engage d b m txId appId s).Live) : EngageGuard d b m s txId appId := by
  obtain ⟨h₁, h⟩ := revertIf_bind (s := s) h
  obtain ⟨h₂, h⟩ := revertIf_bind h
  obtain ⟨h₃, h⟩ := revertIf_bind h
  obtain ⟨h₄, h⟩ := revertIf_bind h
  obtain ⟨n, hn, h⟩ := checked_bind h
  obtain ⟨hw, -⟩ := revertIf_bind h
  exact ⟨not_not.mp h₁, not_not.mp h₂, not_not.mp h₃, Bool.not_eq_false _ ▸ h₄,
    (checkedAdd_eq_some.mp hn).1, not_le.mp hw⟩

theorem engage_eq (g : EngageGuard d b m s txId appId) :
    engage d b m txId appId s =
      .done (s.addEngagement txId appId (BitVec.ofNat 256 (b.timestamp + d.TAU_LOCK.toNat))
        (s.nextEngId + 1)) s.nextEngId :=
  calc engage d b m txId appId s
    _ = _ := revertIf_pass (s := s) (not_not.mpr g.owner)
    _ = _ := revertIf_pass (not_not.mpr g.pending)
    _ = _ := revertIf_pass (not_not.mpr g.txId_eq)
    _ = _ := revertIf_pass (by simp [g.isOpen])
    _ = _ := checked_pass (checkedAdd_eq_some.mpr ⟨g.next, rfl⟩)
    _ = _ := revertIf_pass (not_le.mpr g.window)

end Engage

/-! ## Expire -/

/-- The collateral that survives an expiration. -/
def surviving (d : Deployment keccak256) (remaining : Uint256) : Uint256 := remaining * d.RHO / BPS

section Expire

variable {engId : Uint256}

variable (b s engId) in
/-- E(a) to E(c). -/
structure ExpireChecks : Prop where
  isOpen : (s.engagements engId).status = .open
  locked : s.txState (s.listingOf engId) = .locked
  window : (s.engagements engId).expiresAt.toNat < b.timestamp

variable (d) in
/-- What `expire` takes from the collateral. -/
def State.compensation (s : State) (engId : Uint256) : Uint256 :=
  (s.listings (s.listingOf engId)).collateral -
    surviving d (s.listings (s.listingOf engId)).collateral

variable (d s engId) in
/-- The amounts of `expire` can be computed. -/
structure ExpireAmounts : Prop where
  product : (s.listings (s.listingOf engId)).collateral.toNat * d.RHO.toNat < 2 ^ 256
  expirations : (s.listings (s.listingOf engId)).expirations.toNat + 1 < 2 ^ 256
  surviving_le : (surviving d (s.listings (s.listingOf engId)).collateral).toNat ≤
    (s.listings (s.listingOf engId)).collateral.toNat
  toDepositor : (s.applications (s.engagements engId).appId).deposit.toNat +
    (s.compensation d engId).toNat < 2 ^ 256

variable (d) in
/-- The expiration that `expire` is about to record is the last one allowed. -/
def State.exhausted (s : State) (engId : Uint256) : Bool :=
  (s.listings (s.listingOf engId)).expirations + 1 = d.MAX_EXPIRATIONS

variable (d) in
/-- The store of `expire` before its payouts. -/
def State.afterExpire (s : State) (engId : Uint256) : State :=
  s.expired engId (surviving d (s.listings (s.listingOf engId)).collateral)
    (s.compensation d engId) ((s.listings (s.listingOf engId)).expirations + 1)
    (s.exhausted d engId)

theorem expire_guard (h : (expire d b engId s).Live) :
    ExpireChecks b s engId ∧ ExpireAmounts d s engId := by
  obtain ⟨ha, h⟩ := revertIf_bind (s := s) h
  obtain ⟨hb, h⟩ := revertIf_bind h
  obtain ⟨hc, h⟩ := revertIf_bind h
  obtain ⟨product, hproduct, h⟩ := checked_bind h
  obtain ⟨expirations, hexp, h⟩ := checked_bind h
  obtain ⟨compensation, hcomp, h⟩ := checked_bind h
  obtain ⟨toDepositor, hdep, -⟩ := checked_bind
    (s := s.expired engId _ _ _ _) h
  obtain ⟨hmul, rfl⟩ := checkedMul_eq_some.mp hproduct
  obtain ⟨hsub, rfl⟩ := checkedSub_eq_some.mp hcomp
  exact ⟨⟨not_not.mp ha, not_not.mp hb, not_le.mp hc⟩,
    ⟨hmul, (checkedAdd_eq_some.mp hexp).1, hsub, (checkedAdd_eq_some.mp hdep).1⟩⟩

theorem expire_eq (g : ExpireChecks b s engId) (a : ExpireAmounts d s engId) :
    expire d b engId s =
      (pay (s.applications (s.engagements engId).appId).depositor
          ((s.applications (s.engagements engId).appId).deposit + s.compensation d engId) >>=
        fun _ => if s.exhausted d engId = true then get >>= fun s' =>
          pay (s'.listings (s.listingOf engId)).owner
            (surviving d (s.listings (s.listingOf engId)).collateral)
        else pure ()) (s.afterExpire d engId) :=
  calc expire d b engId s
    _ = _ := revertIf_pass (s := s) (not_not.mpr g.isOpen)
    _ = _ := revertIf_pass (not_not.mpr g.locked)
    _ = _ := revertIf_pass (not_le.mpr g.window)
    _ = _ := checked_pass (checkedMul_eq_some.mpr ⟨a.product, rfl⟩)
    _ = _ := checked_pass (checkedAdd_eq_some.mpr ⟨a.expirations, rfl⟩)
    _ = _ := checked_pass (checkedSub_eq_some.mpr ⟨a.surviving_le, rfl⟩)
    _ = _ := checked_pass (s := s.afterExpire d engId) (checkedAdd_eq_some.mpr ⟨a.toDepositor, rfl⟩)
    _ = _ := by simp only [State.exhausted, decide_eq_true_eq]; rfl

end Expire

/-! ## Reclaim, cancel and withdraw -/

variable (m s) in
structure ReclaimGuard (appId : Uint256) : Prop where
  depositor : m.sender = (s.applications appId).depositor
  pending : (s.applications appId).status = .pending

theorem reclaim_guard {appId : Uint256} (h : (reclaim m appId s).Live) : ReclaimGuard m s appId := by
  obtain ⟨h₁, h⟩ := revertIf_bind (s := s) h
  obtain ⟨h₂, -⟩ := revertIf_bind h
  exact ⟨not_not.mp h₁, not_not.mp h₂⟩

theorem reclaim_eq {appId : Uint256} (g : ReclaimGuard m s appId) :
    reclaim m appId s = pay m.sender (s.applications appId).deposit (s.reclaimed m appId) :=
  calc reclaim m appId s
    _ = _ := revertIf_pass (s := s) (not_not.mpr g.depositor)
    _ = _ := revertIf_pass (not_not.mpr g.pending)

variable (m s) in
structure CancelGuard (txId : Uint256) : Prop where
  owner : m.sender = (s.listings txId).owner
  state : s.txState txId = .active ∨ s.txState txId = .expired

theorem cancel_guard {txId : Uint256} (h : (cancel m txId s).Live) : CancelGuard m s txId := by
  obtain ⟨h₁, h⟩ := revertIf_bind (s := s) h
  obtain ⟨h₂, -⟩ := revertIf_bind h
  exact ⟨not_not.mp h₁, by tauto⟩

theorem cancel_eq {txId : Uint256} (g : CancelGuard m s txId) :
    cancel m txId s = pay m.sender (s.listings txId).collateral (s.cancelled txId) :=
  calc cancel m txId s
    _ = _ := revertIf_pass (s := s) (not_not.mpr g.owner)
    _ = _ := revertIf_pass (by have := g.state; tauto)

theorem withdraw_guard (h : (withdraw m s).Live) : s.credit m.sender ≠ 0 :=
  (revertIf_bind (s := s) h).1

theorem withdraw_eq (h : s.credit m.sender ≠ 0) :
    withdraw m s = .send (s.withdrawn m) m.sender (s.credit m.sender) fun ok =>
      revertIf (ok = false) .withdrawFailed :=
  revertIf_pass (s := s) h

/-! ## Administrative operations -/

section Policy

variable {policyIdR policyIdA policyIdS : Bytes32} {reqEscrow minCollateral maxCollateral : Uint256}

variable (d m s policyIdR policyIdA policyIdS minCollateral maxCollateral) in
structure PolicyGuard : Prop where
  operator : m.sender = d.OPERATOR
  valid : ¬ (policyIdR = 0 ∨ policyIdA = 0 ∨ policyIdS = 0 ∨ policyIdR = policyIdA ∨
    policyIdR = policyIdS ∨ policyIdA = policyIdS ∨ maxCollateral < minCollateral)
  fresh : (s.policyRegistry policyIdR).exists_ = false

theorem registerPolicy_guard (h : (registerPolicy d m policyIdR policyIdA policyIdS reqEscrow
    minCollateral maxCollateral s).Live) :
    PolicyGuard d m s policyIdR policyIdA policyIdS minCollateral maxCollateral := by
  obtain ⟨h₁, h⟩ := revertIf_bind (s := s) h
  obtain ⟨h₂, h⟩ := revertIf_bind h
  obtain ⟨h₃, -⟩ := revertIf_bind h
  exact ⟨not_not.mp h₁, h₂, Bool.eq_false_iff.mpr h₃⟩

theorem registerPolicy_eq
    (g : PolicyGuard d m s policyIdR policyIdA policyIdS minCollateral maxCollateral) :
    registerPolicy d m policyIdR policyIdA policyIdS reqEscrow minCollateral maxCollateral s =
      .done (s.addPolicy policyIdR policyIdA policyIdS reqEscrow minCollateral maxCollateral) () :=
  calc registerPolicy d m policyIdR policyIdA policyIdS reqEscrow minCollateral maxCollateral s
    _ = _ := revertIf_pass (s := s) (not_not.mpr g.operator)
    _ = _ := revertIf_pass g.valid
    _ = _ := revertIf_pass (Bool.eq_false_iff.mp g.fresh)

end Policy

section Verifier

variable {verifier : Address}

variable (d m verifier) in
structure VerifierGuard : Prop where
  operator : m.sender = d.OPERATOR
  valid : verifier ≠ 0

theorem setNotaryVerifier_guard (h : (setNotaryVerifier d m verifier s).Live) :
    VerifierGuard d m verifier := by
  obtain ⟨h₁, h⟩ := revertIf_bind (s := s) h
  obtain ⟨h₂, -⟩ := revertIf_bind h
  exact ⟨not_not.mp h₁, h₂⟩

theorem setNotaryVerifier_eq (g : VerifierGuard d m verifier) :
    setNotaryVerifier d m verifier s = .done (s.withVerifier verifier) () :=
  calc setNotaryVerifier d m verifier s
    _ = _ := revertIf_pass (s := s) (not_not.mpr g.operator)
    _ = _ := revertIf_pass g.valid

end Verifier

end

/-! ## Calls -/

section

variable {keccak256 : Bytes → Bytes32} (d : Deployment keccak256) (b : Block) (m : Msg) (s : State)

/-- The conditions under which a call does not revert at once. -/
def Guard : Prop :=
  match m.call with
  | .registerPolicy policyIdR policyIdA policyIdS _ minCollateral maxCollateral =>
      m.value = 0 ∧ PolicyGuard d m s policyIdR policyIdA policyIdS minCollateral maxCollateral
  | .setNotaryVerifier verifier => m.value = 0 ∧ VerifierGuard d m verifier
  | .register cTx txData policyIdR r sigmaR etaR tAttR =>
      RegisterGuard d b m s cTx txData policyIdR r sigmaR etaR tAttR
  | .applyFor txId txData r cB sigmaA etaA tAttA =>
      ApplyGuard d b m s txId txData r cB sigmaA etaA tAttA
  | .settle engId txData r sigmaS etaS tAttS =>
      m.value = 0 ∧ SettleChecks d b m s engId txData r sigmaS etaS tAttS ∧
        SettleAmounts s engId txData
  | .engage txId appId => m.value = 0 ∧ EngageGuard d b m s txId appId
  | .expire engId => m.value = 0 ∧ ExpireChecks b s engId ∧ ExpireAmounts d s engId
  | .reclaim appId => m.value = 0 ∧ ReclaimGuard m s appId
  | .cancel txId => m.value = 0 ∧ CancelGuard m s txId
  | .withdraw => m.value = 0 ∧ s.credit m.sender ≠ 0

/-- The store a call leaves at its first point of contact. -/
def effect : State :=
  match m.call with
  | .registerPolicy policyIdR policyIdA policyIdS reqEscrow minCollateral maxCollateral =>
      s.addPolicy policyIdR policyIdA policyIdS reqEscrow minCollateral maxCollateral
  | .setNotaryVerifier verifier => s.withVerifier verifier
  | .register cTx txData policyIdR r _ etaR _ =>
      s.addListing m cTx txData policyIdR r etaR (s.nextTxId + 1)
  | .applyFor txId _ _ cB _ etaA _ => s.addApplication m txId cB etaA (s.nextAppId + 1)
  | .settle engId txData _ _ etaS _ =>
      s.settled engId etaS (s.toOwner engId txData) (s.toCounterparty engId txData)
  | .engage txId appId => s.addEngagement txId appId
      (BitVec.ofNat 256 (b.timestamp + d.TAU_LOCK.toNat)) (s.nextEngId + 1)
  | .expire engId => s.afterExpire d engId
  | .reclaim appId => s.reclaimed m appId
  | .cancel txId => s.cancelled txId
  | .withdraw => s.withdrawn m

/-- What a call does after its first point of contact: its payouts. -/
def followUp : Tx State Err Uint256 :=
  match m.call with
  | .registerPolicy .. => pure 0
  | .setNotaryVerifier _ => pure 0
  | .register .. => pure s.nextTxId
  | .applyFor .. => pure s.nextAppId
  | .engage .. => pure s.nextEngId
  | .settle engId txData _ _ _ _ => do
      pay (s.listings (s.listingOf engId)).owner (s.toOwner engId txData)
      let s' ← get
      pay (s'.applications (s.engagements engId).appId).depositor (s.toCounterparty engId txData)
      return 0
  | .expire engId => do
      pay (s.applications (s.engagements engId).appId).depositor
        ((s.applications (s.engagements engId).appId).deposit + s.compensation d engId)
      if s.exhausted d engId = true then do
        let s' ← get
        pay (s'.listings (s.listingOf engId)).owner
          (surviving d (s.listings (s.listingOf engId)).collateral)
        return 0
      else return 0
  | .reclaim appId => do
      pay m.sender (s.applications appId).deposit
      return 0
  | .cancel txId => do
      pay m.sender (s.listings txId).collateral
      return 0
  | .withdraw => do
      let ok ← call m.sender (s.credit m.sender)
      revertIf (ok = false) .withdrawFailed
      return 0

variable {d b m s}

/-- After its first point of contact a call ends, makes payouts one after another, or makes the
transfer of a withdrawal. -/
theorem followUp_rec {Q : Prog State Err Uint256 → State → Prop}
    (ends : ∀ a s', Q ((pure a : Tx State Err Uint256) s') s')
    (pays : ∀ dst amount s' (f : Unit → Tx State Err Uint256), (∀ s'', Q (f () s'') s'') →
      Q ((pay dst amount >>= f) s') s')
    (withdraws : ∀ s', Q ((do
      let ok ← call m.sender (s.credit m.sender)
      revertIf (ok = false) .withdrawFailed
      return 0 : Tx State Err Uint256) s') s') (s₁ : State) : Q (followUp d m s s₁) s₁ := by
  unfold followUp
  cases m.call with
  | settle engId txData r sigmaS etaS tAttS =>
    exact pays _ _ _ _ fun s' => pays _ _ _ _ (ends 0)
  | expire engId =>
    refine pays _ _ _ _ fun s' => ?_
    split_ifs
    · exact pays _ _ _ _ (ends 0)
    · exact ends 0 s'
  | reclaim appId => exact pays _ _ _ _ (ends 0)
  | cancel txId => exact pays _ _ _ _ (ends 0)
  | withdraw => exact withdraws s₁
  | _ => exact ends _ _

theorem run_guard (hl : (run d b m s).Live) : Guard d b m s := by
  unfold run at hl
  unfold Guard
  cases hc : m.call with
  | registerPolicy policyIdR policyIdA policyIdS reqEscrow minCollateral maxCollateral =>
    simp only [hc] at hl
    exact (nonPayable_live hl).imp_right registerPolicy_guard
  | setNotaryVerifier verifier =>
    simp only [hc] at hl
    exact (nonPayable_live hl).imp_right setNotaryVerifier_guard
  | register cTx txData policyIdR r sigmaR etaR tAttR =>
    simp only [hc] at hl
    exact register_guard hl
  | applyFor txId txData r cB sigmaA etaA tAttA =>
    simp only [hc] at hl
    exact applyFor_guard hl
  | settle engId txData r sigmaS etaS tAttS =>
    simp only [hc] at hl
    exact (nonPayable_live hl).imp_right settle_guard
  | engage txId appId =>
    simp only [hc] at hl
    exact (revertIf_bind hl).imp not_not.mp engage_guard
  | expire engId =>
    simp only [hc] at hl
    exact (nonPayable_live hl).imp_right expire_guard
  | reclaim appId =>
    simp only [hc] at hl
    exact (nonPayable_live hl).imp_right reclaim_guard
  | cancel txId =>
    simp only [hc] at hl
    exact (nonPayable_live hl).imp_right cancel_guard
  | withdraw =>
    simp only [hc] at hl
    exact (nonPayable_live hl).imp_right withdraw_guard

/-- A call whose conditions hold has its effect and then makes its payouts. -/
theorem run_eq (g : Guard d b m s) : run d b m s = followUp d m s (effect d b m s) := by
  unfold Guard at g
  unfold run followUp effect
  cases hc : m.call with
  | registerPolicy policyIdR policyIdA policyIdS reqEscrow minCollateral maxCollateral =>
    simp only [hc] at g ⊢
    exact (nonPayable_pass g.1).trans (bind_congr (y := pure ()) (registerPolicy_eq g.2) _)
  | setNotaryVerifier verifier =>
    simp only [hc] at g ⊢
    exact (nonPayable_pass g.1).trans (bind_congr (y := pure ()) (setNotaryVerifier_eq g.2) _)
  | register cTx txData policyIdR r sigmaR etaR tAttR =>
    simp only [hc] at g ⊢
    exact register_eq g
  | applyFor txId txData r cB sigmaA etaA tAttA =>
    simp only [hc] at g ⊢
    exact applyFor_eq g
  | settle engId txData r sigmaS etaS tAttS =>
    simp only [hc] at g ⊢
    rw [nonPayable_pass g.1, bind_congr (settle_eq g.2.1 g.2.2), Tx.bind_assoc]
    rfl
  | engage txId appId =>
    simp only [hc] at g ⊢
    rw [revertIf_pass (not_not.mpr g.1)]
    exact engage_eq g.2
  | expire engId =>
    simp only [hc] at g ⊢
    rw [nonPayable_pass g.1, bind_congr (expire_eq g.2.1 g.2.2), Tx.bind_assoc]
    cases s.exhausted d engId <;> rfl
  | reclaim appId =>
    simp only [hc] at g ⊢
    exact (nonPayable_pass g.1).trans (bind_congr (reclaim_eq g.2) _)
  | cancel txId =>
    simp only [hc] at g ⊢
    exact (nonPayable_pass g.1).trans (bind_congr (cancel_eq g.2) _)
  | withdraw =>
    simp only [hc] at g ⊢
    rw [nonPayable_pass g.1, bind_apply, withdraw_eq g.2]
    rfl

end

end Pprev
