import Pprev.Contract.Accepted

/-!
# The index of pending applications

In every reachable store `pendingApp` names exactly the pending applications, one at most for a
listing and an account, so that A(g) rejects whoever has one and nobody else, and `engage` and
`reclaim` clear the entry of their own application only.
-/

namespace Pprev

open Evm Function Tx

/-- The application is a pending one of the account for the listing. -/
structure State.IsPending (s : State) (txId : Uint256) (w : Address) (appId : Uint256) : Prop where
  status : (s.applications appId).status = .pending
  txId : (s.applications appId).txId = txId
  depositor : (s.applications appId).depositor = w

section

variable {keccak256 : Bytes → Bytes32} {d : Deployment keccak256} {now : ℕ} {b : Block} {m : Msg}
  {s : State} {txId appId : Uint256} {w : Address}

/-- No application has the identifier that stands for none. -/
theorem Inv.pending_ne_zero (h : Inv d now s) (hp : s.IsPending txId w appId) : appId ≠ 0 := by
  rintro rfl
  have hnone : (s.applications 0).status = .none := by
    rw [h.allocated.applications 0 (.inl rfl)]
    rfl
  rw [hp.status] at hnone
  cases hnone

theorem Inv.pendingApp_iff (h : Inv d now s) :
    s.pendingApp txId w = appId ∧ appId ≠ 0 ↔ s.IsPending txId w appId := by
  constructor
  · rintro ⟨hentry, hne⟩
    obtain ⟨hs, ht, hw⟩ := (h.indexed txId w appId hne).mp hentry
    exact ⟨hs, ht, hw⟩
  · intro hp
    have hne := h.pending_ne_zero hp
    exact ⟨(h.indexed txId w appId hne).mpr ⟨hp.status, hp.txId, hp.depositor⟩, hne⟩

/-- The entry that a call which disposes of a pending application clears is its own. -/
theorem Inv.cleared_entry (h : Inv d now s) (hp : s.IsPending txId w appId) {t : Uint256}
    {w' : Address} (hother : s.pendingApp t w' ≠ appId) :
    update s.pendingApp txId (update (s.pendingApp txId) w 0) t w' = s.pendingApp t w' := by
  have hown := (h.pendingApp_iff.mpr hp).1
  by_cases ht : t = txId
  · subst ht
    have hw : w' ≠ w := by
      rintro rfl
      exact hother hown
    rw [update_self, update_of_ne hw]
  · rw [update_of_ne ht]

/-- The index after an accepted `engage` or `reclaim`. -/
theorem Inv.effect_pendingApp (h : Inv d b.timestamp s) (g : Guard d b m s)
    (hcall : m.call = .reclaim appId ∨ ∃ txId, m.call = .engage txId appId) {t : Uint256}
    {w' : Address} (hother : s.pendingApp t w' ≠ appId) :
    (effect d b m s).pendingApp t w' = s.pendingApp t w' := by
  unfold Guard at g
  unfold effect
  rcases hcall with hc | ⟨txId, hc⟩
  · simp only [hc] at g ⊢
    exact h.cleared_entry ⟨g.2.pending, rfl, g.2.depositor.symm⟩ hother
  · simp only [hc] at g ⊢
    exact h.cleared_entry ⟨g.2.pending, g.2.txId_eq, rfl⟩ hother

variable {txData : TxData} {r cB : Bytes32} {sigmaA : Bytes} {etaA : Bytes32} {tAttA : Uint64}

/-- Only A(g) fails with this error, and it names the entry of the applicant. -/
theorem applyFor_pending
    (h : applyFor d b m txId txData r cB sigmaA etaA tAttA s =
      .revert (.pendingApplicationExists appId)) :
    s.pendingApp txId m.sender = appId ∧ appId ≠ 0 := by
  by_contra hnot
  refine absurd h ?_
  refine revertIf_ne (s := s) (fun _ => by simp) fun _ => ?_
  refine revertIf_ne (fun _ => by simp) fun _ => ?_
  refine revertIf_ne (fun _ => by simp) fun _ => ?_
  rw [verifyNotarySignature, Tx.bind_assoc]
  show ((checked _ _ >>= _) >>= _) s ≠ _
  rw [Tx.bind_assoc]
  refine checked_ne (fun _ => by simp) fun ok _ => ?_
  refine revertIf_ne (fun _ => by simp) fun _ => ?_
  refine revertIf_ne (s := s) (fun _ => by simp) fun _ => ?_
  rw [requireFresh, Tx.bind_assoc]
  refine revertIf_ne (fun _ => by simp) fun _ => ?_
  refine revertIf_ne (fun _ => by simp) fun _ => ?_
  refine revertIf_ne (fun hne heq => ?_) fun _ => ?_
  · cases heq
    exact hnot ⟨rfl, hne⟩
  refine revertIf_ne (fun _ => by simp) fun _ => ?_
  refine checked_ne (fun _ => by simp) fun n _ => ?_
  exact fun heq => by cases heq

/-- An applicant with an entry that passes A(a) to A(f) is rejected by A(g). -/
theorem applyFor_rejects (hopen : s.isOpen d txId = true)
    (howner : m.sender ≠ (s.listings txId).owner)
    (hcommitment : commitment keccak256 txData (s.listings txId).policyIdR r =
      (s.listings txId).cTx)
    (hverified : Verified d b m s
      (hashApply keccak256 (s.applyStatement keccak256 m txId txData cB etaA tAttA)) sigmaA)
    (hconsumed : s.consumed etaA = false) (hfresh : Fresh d b tAttA)
    (hpending : s.pendingApp txId m.sender ≠ 0) :
    applyFor d b m txId txData r cB sigmaA etaA tAttA s =
      .revert (.pendingApplicationExists (s.pendingApp txId m.sender)) :=
  calc applyFor d b m txId txData r cB sigmaA etaA tAttA s
    _ = _ := revertIf_pass (s := s) (by simp [hopen])
    _ = _ := revertIf_pass howner
    _ = _ := revertIf_pass (not_not.mpr hcommitment)
    _ = _ := verifyNotarySignature_pass hverified
    _ = _ := requireUnconsumed_pass hconsumed
    _ = _ := requireFresh_pass hfresh
    _ = _ := revertIf_fail hpending

end

section

variable {keccak256 : Bytes → Bytes32} {d : Deployment keccak256} {supply : ℕ}
  {c : Config Block Msg State Err Uint256}

/-- **Pending applications.** The index is exact and no account has two pending applications for a
listing; A(g) rejects an applicant exactly when it has one; `reclaim` and `engage` leave every entry
but that of their application; and no owner is the depositor of an application for its listing. -/
theorem pending_exact (h : Runs d supply c) :
    let s := c.world.store
    (∀ t w a, s.pendingApp t w = a ∧ a ≠ 0 ↔ s.IsPending t w a) ∧
    (∀ t w a a', s.IsPending t w a → s.IsPending t w a' → a = a') ∧
    (∀ b m txId txData r cB sigmaA etaA tAttA, (∀ a,
        applyFor d b m txId txData r cB sigmaA etaA tAttA s =
          .revert (.pendingApplicationExists a) → s.IsPending txId m.sender a) ∧
      ∀ a, s.IsPending txId m.sender a →
        ¬ (applyFor d b m txId txData r cB sigmaA etaA tAttA s).Live ∧
        (s.isOpen d txId = true → m.sender ≠ (s.listings txId).owner →
          commitment keccak256 txData (s.listings txId).policyIdR r = (s.listings txId).cTx →
          Verified d b m s
            (hashApply keccak256 (s.applyStatement keccak256 m txId txData cB etaA tAttA)) sigmaA →
          s.consumed etaA = false → Fresh d b tAttA →
          applyFor d b m txId txData r cB sigmaA etaA tAttA s =
            .revert (.pendingApplicationExists a))) ∧
    (∀ m a, (m.call = .reclaim a ∨ ∃ txId, m.call = .engage txId a) → (run d c.block m s).Live →
      ∃ s₁, (run d c.block m s).At s₁ ∧ (run d c.block m s).Later SameRecords ∧
        ∀ t w, s.pendingApp t w ≠ a → s₁.pendingApp t w = s.pendingApp t w) ∧
    ∀ t a, (s.applications a).status ≠ .none → (s.applications a).txId = t →
      (s.applications a).depositor ≠ (s.listings t).owner := by
  intro s
  have hinv : Inv d c.block.timestamp s := h.inv
  refine ⟨fun t w a => hinv.pendingApp_iff, fun t w a a' ha ha' => ?_,
    fun b m txId txData r cB sigmaA etaA tAttA => ⟨fun a heq => ?_, fun a ha => ⟨fun hl => ?_,
      fun hopen howner hcommitment hverified hconsumed hfresh => ?_⟩⟩,
    fun m a hcall hl => ?_, fun t a ha ht => ?_⟩
  · rw [← (hinv.pendingApp_iff.mpr ha).1, ← (hinv.pendingApp_iff.mpr ha').1]
  · exact hinv.pendingApp_iff.mp (applyFor_pending heq)
  · obtain ⟨hentry, hne⟩ := hinv.pendingApp_iff.mpr ha
    exact hne (hentry.symm.trans (applyFor_guard hl).pending)
  · obtain ⟨hentry, hne⟩ := hinv.pendingApp_iff.mpr ha
    rw [applyFor_rejects hopen howner hcommitment hverified hconsumed hfresh
      (by rw [hentry]; exact hne), hentry]
  · have g := run_guard hl
    have hrun := run_eq g
    refine ⟨effect d c.block m s, ?_, ?_, fun t w => hinv.effect_pendingApp g hcall⟩
    · rw [hrun]
      exact followUp_at _
    · rw [hrun]
      exact (followUp_moves _).later
  · exact ht ▸ hinv.valid.linked.app_owner a ha

end

namespace Vectors

/-- The run up to the application. -/
def applied : Config Block Msg State Err Uint256 := (after 5).get (by decide +kernel)

theorem applied_runs : Runs deployment 100000 applied := runs (n := 5) (Option.some_get _).symm

end Vectors

open Vectors in
theorem pending_exact_applied : applied.world.store.pendingApp 1 applicant = 1 ∧
    applicant ≠ (applied.world.store.listings 1).owner := by
  have hfacts : (applied.world.store.applications 1).status = .pending ∧
      (applied.world.store.applications 1).txId = 1 ∧
      (applied.world.store.applications 1).depositor = applicant := by decide +kernel
  have hpending : applied.world.store.IsPending 1 applicant 1 :=
    ⟨hfacts.1, hfacts.2.1, hfacts.2.2⟩
  obtain ⟨hindex, -, -, -, hparties⟩ := pending_exact applied_runs
  have hne := hparties 1 1 (by rw [hpending.status]; decide) hpending.txId
  rw [hpending.depositor] at hne
  exact ⟨((hindex 1 applicant 1).mpr hpending).1, hne⟩

end Pprev
