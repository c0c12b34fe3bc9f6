import Pprev.Contract.Accepted
import Pprev.Evm.Chronicle

/-!
# The events tell the storage

Whoever reads the events of the contract from the first one on knows its storage, except for the
nonces that were consumed. An event says what it changes; amounts that it does not name are found
from what the earlier events say.
-/

namespace Pprev

open Evm Function Tx

/-! ## Reading the events -/

/-- The storage after an event, from the storage before it. -/
def Log.apply (s : State) : Log → State
  | .policyRegistered policyIdR policyIdA policyIdS reqEscrow minCollateral maxCollateral =>
      { s with
        policyRegistry := update s.policyRegistry policyIdR
          ⟨true, policyIdA, policyIdS, reqEscrow, minCollateral, maxCollateral⟩ }
  | .notaryVerifierSet verifier => { s with notaryVerifier := verifier }
  | .registered txId owner cTx policyIdR _ _ collateral =>
      { s with
        nextTxId := txId + 1
        listings := update s.listings txId ⟨cTx, policyIdR, owner, collateral, 0⟩
        txState := update s.txState txId .active
        registered := update s.registered cTx true }
  | .applied appId txId applicant cB deposit =>
      { s with
        nextAppId := appId + 1
        applications := update s.applications appId ⟨txId, applicant, .pending, deposit, cB⟩
        pendingApp := update s.pendingApp txId (update (s.pendingApp txId) applicant appId) }
  | .engaged engId txId appId expiresAt =>
      { s with
        nextEngId := engId + 1
        engagements := update s.engagements engId ⟨appId, expiresAt, .open⟩
        applications := update s.applications appId { s.applications appId with status := .engaged }
        pendingApp := update s.pendingApp txId
          (update (s.pendingApp txId) (s.applications appId).depositor 0)
        txState := update s.txState txId .locked }
  | .settled engId txId _ _ =>
      { s with
        engagements := update s.engagements engId { s.engagements engId with status := .settled }
        txState := update s.txState txId .settled
        listings := update s.listings txId { s.listings txId with collateral := 0 } }
  | .expired engId txId compensation expirations exhausted _ =>
      { s with
        engagements := update s.engagements engId { s.engagements engId with status := .expired }
        txState := update s.txState txId (if exhausted then .cancelled else .expired)
        listings := update s.listings txId
          { s.listings txId with
            expirations := expirations
            collateral := if exhausted then 0 else (s.listings txId).collateral - compensation } }
  | .reclaimed appId txId _ =>
      { s with
        applications := update s.applications appId
          { s.applications appId with status := .reclaimed }
        pendingApp := update s.pendingApp txId
          (update (s.pendingApp txId) (s.applications appId).depositor 0) }
  | .cancelled txId _ =>
      { s with
        txState := update s.txState txId .cancelled
        listings := update s.listings txId { s.listings txId with collateral := 0 } }
  | .payoutCredited recipient amount =>
      { s with credit := update s.credit recipient (s.credit recipient + amount) }
  | .withdrawn recipient amount =>
      { s with credit := update s.credit recipient (s.credit recipient - amount) }

/-- The storage that some events tell, the latest event first. -/
def replay : List Log → State
  | [] => { State.initial 0 with logs := [] }
  | e :: older => { e.apply (replay older) with logs := e :: older }

/-- The storage without the consumed nonces. -/
def State.visible (s : State) : State := { s with consumed := fun _ => false }

/-- The events of a storage tell it. -/
def Told (s : State) : Prop := replay s.logs = s.visible

/-- An effect that its event describes keeps the storage told. -/
theorem Told.emit {s s' : State} {e : Log} (h : Told s) (hlogs : s'.logs = e :: s.logs)
    (heffect : { e.apply s.visible with logs := e :: s.logs } = s'.visible) : Told s' := by
  rw [Told, hlogs, replay, h]
  exact heffect

/-! ## Every effect is described by its event -/

section

variable {keccak256 : Bytes → Bytes32} {d : Deployment keccak256} {b : Block} {m : Msg} {s : State}

theorem Told.credited (h : Told s) (dst : Address) (amount : Uint256) :
    Told (s.credited dst amount (s.credit dst + amount)) := h.emit rfl rfl

/-- A new listing has no expirations. -/
theorem Told.addListing (h : Told s) (ha : Allocated s) {cTx : Bytes32} {txData : TxData}
    {policyIdR r etaR : Bytes32} :
    Told (s.addListing m cTx txData policyIdR r etaR (s.nextTxId + 1)) := by
  refine h.emit rfl ?_
  simp only [Log.apply, State.visible, State.addListing, ha.next_listing]
  rfl

/-- The compensation is what the collateral loses. -/
theorem Told.afterExpire (h : Told s) {engId : Uint256} : Told (s.afterExpire d engId) := by
  refine h.emit rfl ?_
  have hsurviving : (s.listings (s.listingOf engId)).collateral - s.compensation d engId =
      surviving d (s.listings (s.listingOf engId)).collateral := by
    rw [State.compensation, sub_sub_cancel]
  simp only [Log.apply, State.visible, State.afterExpire, State.expired, hsurviving]

theorem Told.reclaimed (h : Told s) {appId : Uint256} (g : ReclaimGuard m s appId) :
    Told (s.reclaimed m appId) := by
  refine h.emit rfl ?_
  simp only [Log.apply, State.visible, State.reclaimed, g.depositor]

/-- A withdrawal takes the whole credit. -/
theorem Told.withdrawn (h : Told s) : Told (s.withdrawn m) := by
  refine h.emit rfl ?_
  simp only [Log.apply, State.visible, State.withdrawn, sub_self]

theorem Told.effect (h : Told s) (hinv : Inv d b.timestamp s) (g : Guard d b m s) :
    Told (effect d b m s) := by
  unfold Guard at g
  unfold Pprev.effect
  cases hc : m.call with
  | register cTx txData policyIdR r sigmaR etaR tAttR => exact h.addListing hinv.allocated
  | expire engId => exact h.afterExpire
  | reclaim appId =>
    simp only [hc] at g
    exact h.reclaimed g.2
  | withdraw => exact h.withdrawn
  | _ => exact h.emit rfl rfl

/-! ## Payouts are described as well -/

/-- The storage comes from an earlier one by credits. -/
inductive Credits (s : State) : State → Prop
  | refl : Credits s s
  | credit {s' : State} (dst : Address) (amount : Uint256) :
      Credits s s' → Credits s (s'.credited dst amount (s'.credit dst + amount))

theorem Credits.trans {s' s'' : State} (h : Credits s s') (h' : Credits s' s'') : Credits s s'' := by
  induction h' with
  | refl => exact h
  | credit dst amount _ ih => exact ih.credit dst amount

theorem Told.credits {s' : State} (h : Told s) (hs : Credits s s') : Told s' := by
  induction hs with
  | refl => exact h
  | credit dst amount _ ih => exact ih.credited dst amount

section

variable {α : Type} {dst : Address} {amount : Uint256} {f : Unit → Tx State Err α}

theorem pay_credits (hf : ∀ s', (f () s').Moves Credits s') :
    ((pay dst amount >>= f) s).Moves Credits s := by
  by_cases h0 : amount = 0
  · subst h0
    rw [pay_zero]
    exact hf s
  · rw [pay_bind h0]
    refine ⟨.refl, ?_, hf⟩
    show ((checked _ (checkedAdd (s.credit dst) amount) >>= _) s).Moves _ _
    cases hc : checkedAdd (s.credit dst) amount with
    | none => trivial
    | some c =>
      obtain ⟨-, rfl⟩ := checkedAdd_eq_some.mp hc
      exact (hf _).of_start (Q := Credits) (fun _ _ _ => Credits.trans) (.credit dst amount .refl)

end

/-- What a call does after its first point of contact is to credit payouts that failed. -/
theorem followUp_credits (s₁ : State) : (followUp d m s s₁).Moves Credits s₁ :=
  followUp_rec (Q := fun p s' => p.Moves Credits s') (fun _ _ => .refl)
    (fun _ _ _ _ => pay_credits) (fun _ => ⟨.refl, trivial, fun _ => .refl⟩) s₁

end

/-- The chronicle of the events. -/
noncomputable def eventChronicle {keccak256 : Bytes → Bytes32} (d : Deployment keccak256) :
    Chronicle (discipline d) where
  Holds _ := Told
  Quiet := Credits
  perm _ h := h
  quiet hs h := h.credits hs
  call b m s _ hinv hl h := by
    have g := run_guard hl
    show (run d b m s).First _
    rw [run_eq g]
    exact (followUp_at _).first_iff.mpr (h.effect hinv g)
  later b m s _ := by
    show (run d b m s).Later _
    rcases (run d b m s).live_or_revert with hl | ⟨e, he⟩
    · rw [run_eq (run_guard hl)]
      exact (followUp_credits _).later
    · rw [he]
      trivial

section

variable {keccak256 : Bytes → Bytes32} {d : Deployment keccak256} {supply : ℕ}
  {c : Config Block Msg State Err Uint256}

theorem Runs.told (h : Runs d supply c) : Told c.world.store := by
  obtain ⟨b, s, hd, hrun⟩ := h
  obtain ⟨verifier, rfl⟩ := hd.initial
  have hnone : Told (State.initial verifier) := rfl
  exact (Chronicle.reachable_ok (H := eventChronicle d) (initial_inv _ _) (initial_obligations _) hnone
    hrun).holds

/-- **Events.** In every configuration of every run, also while calls wait for recipients, the
events emitted so far tell the whole storage except for the consumed nonces; outside any call they
tell what the contract holds of the ether that was not forced in. -/
theorem replay_told (h : Runs d supply c) :
    (∃ consumed, c.world.store = { replay c.world.store.logs with consumed := consumed }) ∧
    (c.stack = [] →
      c.world.balance = obligations (replay c.world.store.logs) + c.world.forced) := by
  have htold : replay c.world.store.logs = c.world.store.visible := h.told
  refine ⟨⟨c.world.store.consumed, ?_⟩, fun hstack => ?_⟩
  · rw [htold]
    rfl
  · obtain ⟨base, hok⟩ := h.ok
    have hbalance : c.world.balance =
      obligations c.world.store + c.world.forced + pendingTotal c.stack := hok.sound.balance
    have hvisible : obligations c.world.store.visible = obligations c.world.store := by
      rw [obligations_eq_owed, obligations_eq_owed]
      rfl
    rwa [hstack, pendingTotal_nil, Nat.add_zero, ← hvisible, ← htold] at hbalance

end

open Vectors in
theorem replay_ended : ended.world.store.logs.length = 8 ∧
    ∃ consumed, ended.world.store = { replay ended.world.store.logs with consumed := consumed } :=
  ⟨by decide +kernel, (replay_told ended_runs).1⟩

end Pprev
