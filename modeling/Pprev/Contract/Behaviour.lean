import Pprev.Contract.Payouts

/-!
# Every call keeps the books

What each call does from a store that satisfies the invariant, and with it the discipline of the
contract: in every run every world is accounted for.
-/

namespace Pprev

open Evm Function Tx

section

variable {keccak256 : Bytes → Bytes32} {d : Deployment keccak256} {b : Block} {m : Msg} {s : State}

variable (d b m s) in
/-- The ether a call takes in and the transfers it makes when it is accepted. -/
def plan : List (Address × Uint256) :=
  match m.call with
  | .settle engId txData _ _ _ _ =>
      transfer (s.listings (s.listingOf engId)).owner (s.toOwner engId txData) ++
        transfer (s.applications (s.engagements engId).appId).depositor
          (s.toCounterparty engId txData)
  | .expire engId =>
      transfer (s.applications (s.engagements engId).appId).depositor
          ((s.applications (s.engagements engId).appId).deposit + s.compensation d engId) ++
        if s.exhausted d engId then
          transfer (s.listings (s.listingOf engId)).owner
            (surviving d (s.listings (s.listingOf engId)).collateral)
        else []
  | .reclaim appId => transfer m.sender (s.applications appId).deposit
  | .cancel txId => transfer m.sender (s.listings txId).collateral
  | .withdraw => [(m.sender, s.credit m.sender)]
  | _ => []

/-! ## The payouts of each function -/

section Settle

variable {engId : Uint256} {txData : TxData} {r : Bytes32} {sigmaS : Bytes} {etaS : Bytes32}
  {tAttS : Uint64}

/-- The owner is paid first, then the depositor, who is still the same after the owner has been in
control. -/
theorem settle_behaves (h : Inv d b.timestamp s)
    (g : SettleChecks d b m s engId txData r sigmaS etaS tAttS) (a : SettleAmounts s engId txData) :
    Behaves d b s (obligations s + 0)
      (transfer (s.listings (s.listingOf engId)).owner (s.toOwner engId txData) ++
        transfer (s.applications (s.engagements engId).appId).depositor
          (s.toCounterparty engId txData))
      ((do
        pay (s.listings (s.listingOf engId)).owner (s.toOwner engId txData)
        let s' ← get
        pay (s'.applications (s.engagements engId).appId).depositor (s.toCounterparty engId txData)
        return (0 : Uint256) : Tx State Err Uint256)
        (s.settled engId etaS (s.toOwner engId txData) (s.toCounterparty engId txData))) := by
  have happ : (s.applications (s.engagements engId).appId).status ≠ .none := by
    have := h.valid.linked.eng_app engId g.known
    rw [show (s.applications (s.engagements engId).appId).status = _ from this]
    decide
  refine pay_then (settled_accounted h g a) fun s' hi he => ?_
  have hdep : (s'.applications (s.engagements engId).appId).depositor =
      (s.applications (s.engagements engId).appId).depositor := he.book.depositor _ happ
  rw [← hdep]
  exact pay_alone hi

end Settle

section Expire

variable {engId : Uint256}

/-- The depositor is paid first, then on the last expiration the owner, who is still the same. -/
theorem expire_behaves (h : Inv d b.timestamp s) (g : ExpireChecks b s engId)
    (a : ExpireAmounts d s engId) :
    Behaves d b s (obligations s + 0)
      (transfer (s.applications (s.engagements engId).appId).depositor
          ((s.applications (s.engagements engId).appId).deposit + s.compensation d engId) ++
        if s.exhausted d engId then
          transfer (s.listings (s.listingOf engId)).owner
            (surviving d (s.listings (s.listingOf engId)).collateral)
        else [])
      ((do
        pay (s.applications (s.engagements engId).appId).depositor
          ((s.applications (s.engagements engId).appId).deposit + s.compensation d engId)
        if s.exhausted d engId = true then do
          let s' ← get
          pay (s'.listings (s.listingOf engId)).owner
            (surviving d (s.listings (s.listingOf engId)).collateral)
          return 0
        else return (0 : Uint256) : Tx State Err Uint256) (s.afterExpire d engId)) := by
  have hacc := afterExpire_accounted h g a
  have hlocked : s.txState (s.listingOf engId) ≠ .none := by rw [g.locked]; decide
  have htx : (s.afterExpire d engId).txState (s.listingOf engId) ≠ .none :=
    TxState.ne_none_of_path (hacc.evolves.book.txState _) hlocked
  have howner : ((s.afterExpire d engId).listings (s.listingOf engId)).owner =
      (s.listings (s.listingOf engId)).owner := hacc.evolves.book.owner _ hlocked
  unfold State.expirePayouts at hacc
  cases hx : s.exhausted d engId with
  | true =>
    rw [hx, if_pos rfl] at hacc
    simp only [if_true]
    refine pay_then hacc fun s' hi he => ?_
    have howner' : (s'.listings (s.listingOf engId)).owner =
        (s.listings (s.listingOf engId)).owner := (he.book.owner _ htx).trans howner
    rw [← howner']
    exact pay_alone hi
  | false =>
    rw [hx, if_neg Bool.false_ne_true, Nat.add_zero] at hacc
    simp only [Bool.false_eq_true, if_false, List.append_nil]
    exact pay_last hacc

end Expire

/-- A withdrawal that fails takes everything back, so that nothing is credited twice. -/
theorem withdraw_behaves (h : Inv d b.timestamp s) :
    Behaves d b s (obligations s + 0) [(m.sender, s.credit m.sender)]
      ((do
        let ok ← call m.sender (s.credit m.sender)
        revertIf (ok = false) .withdrawFailed
        return (0 : Uint256) : Tx State Err Uint256) (s.withdrawn m)) := by
  have hacc := withdrawn_accounted (m := m) h
  refine ⟨⟨hacc.inv, hacc.evolves, hacc.owed, trivial, fun hl => absurd hl id, fun s' hi _ => ?_⟩,
    rfl⟩
  exact ⟨⟨hi, .refl s', rfl⟩, rfl⟩

/-- Every accepted call keeps the books and makes its transfers. -/
theorem run_behaves (h : Inv d b.timestamp s) (g : Guard d b m s) :
    Behaves d b s (obligations s + m.value.toNat) (plan d m s) (run d b m s) := by
  rw [run_eq g]
  unfold Guard at g
  unfold plan followUp effect
  cases hc : m.call with
  | registerPolicy policyIdR policyIdA policyIdS reqEscrow minCollateral maxCollateral =>
    simp only [hc] at g ⊢
    rw [g.1]
    exact (addPolicy_accounted h g.2).behaves_done _
  | setNotaryVerifier verifier =>
    simp only [hc] at g ⊢
    rw [g.1]
    exact (withVerifier_accounted h verifier).behaves_done _
  | register cTx txData policyIdR r sigmaR etaR tAttR =>
    simp only [hc] at g ⊢
    exact (addListing_accounted h g).behaves_done _
  | applyFor txId txData r cB sigmaA etaA tAttA =>
    simp only [hc] at g ⊢
    exact (addApplication_accounted h g).behaves_done _
  | settle engId txData r sigmaS etaS tAttS =>
    simp only [hc] at g ⊢
    rw [g.1]
    exact settle_behaves h g.2.1 g.2.2
  | engage txId appId =>
    simp only [hc] at g ⊢
    rw [g.1]
    exact (addEngagement_accounted h g.2).behaves_done _
  | expire engId =>
    simp only [hc] at g ⊢
    rw [g.1]
    exact expire_behaves h g.2.1 g.2.2
  | reclaim appId =>
    simp only [hc] at g ⊢
    rw [g.1]
    exact pay_last (reclaimed_accounted h g.2)
  | cancel txId =>
    simp only [hc] at g ⊢
    rw [g.1]
    exact pay_last (cancelled_accounted h g.2)
  | withdraw =>
    simp only [hc] at g ⊢
    rw [g.1]
    exact withdraw_behaves h

end

/-- The discipline of the contract: its invariant, how its storage evolves, and its obligations. -/
noncomputable def discipline {keccak256 : Bytes → Bytes32} (d : Deployment keccak256) :
    Discipline (code d) where
  Inv b := Inv d b.timestamp
  Rel := Evolves
  owed := obligations
  inv_next hnext h := { h with valid := h.valid.mono (of_decide_eq_true hnext) }
  rel_refl := Evolves.refl
  rel_trans := Evolves.trans
  conforms _ _ _ h := Prog.conforms_of_live fun hl => (run_behaves h (run_guard hl)).conforms

end Pprev
