import Pprev.Contract.Solvency
import Pprev.Escrow.Items
import Pprev.Evm.Audit

/-!
# Accepted calls

What only one accepted call may take: a nonce, a commitment, and an item of the book. In every
configuration of every run the accepted calls took different tokens, and took all that are taken.
-/

namespace Pprev

open Evm Function Tx

/-- What a call takes for itself. -/
inductive Token where
  | nonce (eta : Bytes32)
  | commitment (cTx : Bytes32)
  | item (i : Item Uint256 Uint256 Uint256)
  deriving DecidableEq

/-- The tokens of a call. -/
def tokens (e : Entry Block Msg State) : List Token :=
  match e.msg.call with
  | .register cTx _ _ _ _ etaR _ =>
      [.nonce etaR, .commitment cTx, .item (.listing e.before.nextTxId)]
  | .applyFor _ _ _ _ _ etaA _ => [.nonce etaA, .item (.application e.before.nextAppId)]
  | .settle engId _ _ _ etaS _ =>
      [.nonce etaS, .item (.disposal (e.before.engagements engId).appId)]
  | .engage _ _ => [.item (.engagement e.before.nextEngId)]
  | .expire engId => [.item (.disposal (e.before.engagements engId).appId)]
  | .reclaim appId => [.item (.disposal appId)]
  | _ => []

def State.Taken (s : State) : Token → Prop
  | .nonce eta => s.consumed eta = true
  | .commitment cTx => s.registered cTx = true
  | .item i => s.book.Has i

theorem State.Taken.evolves {s s' : State} {x : Token} (hev : Evolves s s') (h : s.Taken x) :
    s'.Taken x := by
  cases x with
  | nonce eta => exact hev.consumed eta h
  | commitment cTx => exact hev.registered cTx h
  | item i => exact hev.book.has h

section

variable {keccak256 : Bytes → Bytes32} {d : Deployment keccak256} {b : Block} {m : Msg} {s : State}

/-- What an accepted call takes was free. -/
theorem free_of_guard (h : Inv d b.timestamp s) (g : Guard d b m s) {x : Token}
    (hx : x ∈ tokens ⟨b, m, s⟩) : ¬ s.Taken x := by
  have halloc := h.allocated
  have hlinked := h.valid.linked
  unfold Guard at g
  unfold tokens at hx
  cases hc : m.call with
  | register cTx txData policyIdR r sigmaR etaR tAttR =>
    simp only [hc, List.mem_cons, List.not_mem_nil, or_false] at g hx
    rcases hx with rfl | rfl | rfl
    · simp [State.Taken, g.unconsumed]
    · simp [State.Taken, g.unregistered]
    · exact not_not.mpr halloc.next_txState
  | applyFor txId txData r cB sigmaA etaA tAttA =>
    simp only [hc, List.mem_cons, List.not_mem_nil, or_false] at g hx
    rcases hx with rfl | rfl
    · simp [State.Taken, g.unconsumed]
    · exact not_not.mpr halloc.next_appStatus
  | settle engId txData r sigmaS etaS tAttS =>
    simp only [hc, List.mem_cons, List.not_mem_nil, or_false] at g hx
    rcases hx with rfl | rfl
    · simp [State.Taken, g.2.1.unconsumed]
    · exact hlinked.not_disposed_of_open (e := engId) (g.2.1.isOpen h)
  | engage txId appId =>
    simp only [hc, List.mem_cons, List.not_mem_nil, or_false] at hx
    subst hx
    exact not_not.mpr halloc.next_engStatus
  | expire engId =>
    simp only [hc, List.mem_cons, List.not_mem_nil, or_false] at g hx
    subst hx
    exact hlinked.not_disposed_of_open (e := engId) g.2.1.isOpen
  | reclaim appId =>
    simp only [hc, List.mem_cons, List.not_mem_nil, or_false] at g hx
    subst hx
    exact hlinked.not_disposed_of_pending g.2.pending
  | _ => simp [hc] at hx

/-- An accepted call takes its tokens and no other. -/
theorem taken_effect (h : Inv d b.timestamp s) (g : Guard d b m s) (x : Token) :
    (effect d b m s).Taken x ↔ s.Taken x ∨ x ∈ tokens ⟨b, m, s⟩ := by
  have halloc := h.allocated
  have hlinked := h.valid.linked
  unfold Guard at g
  unfold tokens effect
  cases hc : m.call with
  | registerPolicy policyIdR policyIdA policyIdS reqEscrow minCollateral maxCollateral =>
    simp only [List.not_mem_nil, or_false]
    cases x <;> rfl
  | setNotaryVerifier verifier =>
    simp only [List.not_mem_nil, or_false]
    cases x <;> rfl
  | register cTx txData policyIdR r sigmaR etaR tAttR =>
    simp only
    cases x with
    | nonce eta => simp [State.Taken, State.addListing, update_apply, or_comm]
    | commitment cTx' => simp [State.Taken, State.addListing, update_apply, or_comm]
    | item i =>
      rw [State.Taken, book_addListing halloc]
      simp [Book.has_register, State.Taken]
  | applyFor txId txData r cB sigmaA etaA tAttA =>
    simp only
    cases x with
    | nonce eta => simp [State.Taken, State.addApplication, update_apply, or_comm]
    | commitment cTx' => simp [State.Taken, State.addApplication]
    | item i =>
      rw [State.Taken, book_addApplication, Book.has_apply halloc.next_appStatus]
      simp [State.Taken]
  | settle engId txData r sigmaS etaS tAttS =>
    simp only [hc] at g
    simp only
    cases x with
    | nonce eta => simp [State.Taken, State.settled, update_apply, or_comm]
    | commitment cTx' => simp [State.Taken, State.settled]
    | item i =>
      have hlocked : s.book.txState (s.book.listing engId) = .locked := g.2.1.locked
      rw [State.Taken, book_settled, Book.has_settle g.2.1.known (by simp [hlocked])]
      simp [State.Taken, State.book]
  | engage txId appId =>
    simp only [hc] at g
    simp only
    cases x with
    | nonce eta => simp [State.Taken, State.addEngagement]
    | commitment cTx' => simp [State.Taken, State.addEngagement]
    | item i =>
      have hpending : s.book.appStatus appId ≠ .none := by
        rw [show s.book.appStatus appId = .pending from g.2.pending]
        decide
      rw [State.Taken, book_addEngagement g.2.txId_eq,
        Book.has_engage halloc.next_engStatus g.2.pending (hlinked.app_listing appId hpending)]
      simp [State.Taken]
  | expire engId =>
    simp only [hc] at g
    simp only
    cases x with
    | nonce eta => simp [State.Taken, State.afterExpire, State.expired]
    | commitment cTx' => simp [State.Taken, State.afterExpire, State.expired]
    | item i =>
      have hopen : s.book.engStatus engId = .open := g.2.1.isOpen
      have hlocked : s.book.txState (s.book.listing engId) = .locked := g.2.1.locked
      rw [State.Taken, State.afterExpire, book_expired _ _ _ g.2.2.expirations,
        Book.has_expire (by simp [hopen]) (by simp [hlocked]) (by split_ifs <;> simp)]
      simp [State.Taken, State.book]
  | reclaim appId =>
    simp only [hc] at g
    simp only
    cases x with
    | nonce eta => simp [State.Taken, State.reclaimed]
    | commitment cTx' => simp [State.Taken, State.reclaimed]
    | item i =>
      rw [State.Taken, book_reclaimed, Book.has_reclaim g.2.pending]
      simp [State.Taken]
  | cancel txId =>
    simp only [hc] at g
    simp only [List.not_mem_nil, or_false]
    cases x with
    | nonce eta => simp [State.Taken, State.cancelled]
    | commitment cTx' => simp [State.Taken, State.cancelled]
    | item i =>
      have hne : s.book.txState txId ≠ .none := by
        rcases g.2.state with ht | ht <;> rw [show s.book.txState txId = _ from ht] <;> decide
      rw [State.Taken, book_cancelled, Book.has_cancel hne]
      rfl
  | withdraw =>
    simp only [List.not_mem_nil, or_false]
    cases x with
    | nonce eta => rfl
    | commitment cTx' => rfl
    | item i =>
      rw [State.Taken, book_withdrawn]
      rfl

/-! ## Payouts take nothing -/

section Payout

variable {α : Type} {dst : Address} {amount : Uint256} {f : Unit → Tx State Err α}
  {s' s'' : State}

theorem pay_at {s₁ : State} (hs : s = s₁) (hf : (f () s).At s₁) :
    ((pay dst amount >>= f) s).At s₁ := by
  by_cases h0 : amount = 0
  · subst h0
    rw [pay_zero]
    exact hf
  · rw [pay_bind h0]
    exact hs

variable (s s') in
/-- The stores differ at most in the credits and the events. -/
def SameRecords : Prop := ∃ credit logs, s' = { s with credit := credit, logs := logs }

theorem SameRecords.refl (s : State) : SameRecords s s := ⟨s.credit, s.logs, rfl⟩

theorem SameRecords.trans (h : SameRecords s s') (h' : SameRecords s' s'') : SameRecords s s'' := by
  obtain ⟨credit, logs, rfl⟩ := h
  obtain ⟨credit', logs', rfl⟩ := h'
  exact ⟨credit', logs', rfl⟩

theorem SameRecords.symm (h : SameRecords s s') : SameRecords s' s := by
  obtain ⟨credit, logs, rfl⟩ := h
  exact ⟨s.credit, s.logs, rfl⟩

theorem SameRecords.taken_iff (h : SameRecords s s') {x : Token} : s'.Taken x ↔ s.Taken x := by
  obtain ⟨credit, logs, rfl⟩ := h
  cases x with
  | nonce eta => rfl
  | commitment cTx => rfl
  | item i => cases i <;> rfl

/-- A payout changes no record. -/
theorem pay_moves (hf : ∀ s', (f () s').Moves SameRecords s') :
    ((pay dst amount >>= f) s).Moves SameRecords s := by
  by_cases h0 : amount = 0
  · subst h0
    rw [pay_zero]
    exact hf s
  · rw [pay_bind h0]
    refine ⟨.refl s, ?_, hf⟩
    show ((checked _ (checkedAdd (s.credit dst) amount) >>= _) s).Moves _ _
    cases checkedAdd (s.credit dst) amount with
    | none => trivial
    | some c => exact (hf _).of_start (Q := SameRecords) (fun _ _ _ => SameRecords.trans) ⟨_, _, rfl⟩

end Payout

/-- A call reaches its first point of contact with its effect. -/
theorem followUp_at (s₁ : State) : (followUp d m s s₁).At s₁ :=
  followUp_rec (Q := fun p s' => p.At s') (fun _ _ => rfl) (fun _ _ _ _ hf => pay_at rfl (hf _))
    (fun _ => rfl) s₁

/-- After its first point of contact a call changes no record. -/
theorem followUp_moves (s₁ : State) : (followUp d m s s₁).Moves SameRecords s₁ :=
  followUp_rec (Q := fun p s' => p.Moves SameRecords s') (fun _ s' => .refl s')
    (fun _ _ _ _ => pay_moves) (fun s' => ⟨.refl s', trivial, .refl⟩) s₁

/-- A call whose conditions hold does not revert at once. -/
theorem run_live (g : Guard d b m s) : (run d b m s).Live := by
  rw [run_eq g]
  exact (followUp_at _).live

end

/-! ## The audit -/

/-- The audit of the contract by tokens. -/
noncomputable def audit {keccak256 : Bytes → Bytes32} (d : Deployment keccak256) :
    Audit (discipline d) Token where
  tokens e x := x ∈ tokens e
  taken := State.Taken
  taken_rel := State.Taken.evolves
  takes b m s h hl := by
    have g := run_guard hl
    show (run d b m s).First _
    rw [run_eq g]
    exact (followUp_at _).first_iff.mpr fun x hx => (taken_effect h g x).mpr (.inr hx)
  free b m s h hl x hx := free_of_guard h (run_guard hl) hx
  adds b m s h := by
    show (run d b m s).Adds _ _ _
    rcases (run d b m s).live_or_revert with hl | ⟨e, he⟩
    · have g := run_guard hl
      rw [run_eq g]
      have hadds : (followUp d m s (effect d b m s)).Adds State.Taken (· ∈ tokens ⟨b, m, s⟩)
          (effect d b m s) := (followUp_moves _).adds fun _ _ _ hs => hs.taken_iff.mp
      exact hadds.of_start fun x hx => (taken_effect h g x).mp hx
    · rw [he]
      trivial

section

variable {keccak256 : Bytes → Bytes32} {d : Deployment keccak256} {supply : ℕ}
  {c : Config Block Msg State Err Uint256}

/-- In every configuration of a run the accepted calls took different tokens, and took all that are
taken. -/
theorem Runs.clean (h : Runs d supply c) : (audit d).Clean c.world c.stack := by
  obtain ⟨b, s, hd, hrun⟩ := h
  obtain ⟨verifier, rfl⟩ := hd.initial
  refine (Audit.reachable_ok (A := audit d) (initial_inv _ _) (initial_obligations _)
    (fun x hx => ?_) hrun).clean
  cases x with
  | nonce eta => cases hx
  | commitment cTx => cases hx
  | item i =>
    cases i with
    | listing t => exact hx rfl
    | application a => exact hx rfl
    | engagement e => exact hx rfl
    | disposal a =>
      rcases hx with hr | ⟨e, -, hst | hst⟩
      · cases hr
      · cases hst
      · cases hst

/-- The calls accepted so far. -/
def Accepted (c : Config Block Msg State Err Uint256) : List (Entry Block Msg State) :=
  accepted c.world c.stack

/-- What an accepted call found satisfied the invariant and its conditions, and the present store
evolved from its effect. -/
theorem Runs.stands (h : Runs d supply c) {e : Entry Block Msg State} (he : e ∈ Accepted c) :
    Inv d e.block.timestamp e.before ∧ Guard d e.block e.msg e.before ∧
      Evolves (effect d e.block e.msg e.before) c.world.store := by
  have hs := h.clean.stands e he
  have hsince : (run d e.block e.msg e.before).First fun s₁ => Evolves s₁ c.world.store := hs.since
  have g := run_guard hs.live
  rw [run_eq g] at hsince
  exact ⟨hs.inv, g, ((followUp_at _).first_iff (P := fun s₁ => Evolves s₁ _)).mp hsince⟩

/-- The store evolved over an accepted call. -/
theorem Runs.evolves_before (h : Runs d supply c) {e : Entry Block Msg State} (he : e ∈ Accepted c) :
    Evolves e.before c.world.store := by
  obtain ⟨hinv, g, hev⟩ := h.stands he
  have hfirst := (run_behaves hinv g).conforms.first (P := Evolves e.before) fun _ => id
  rw [run_eq g] at hfirst
  exact ((followUp_at _).first_iff.mp hfirst).trans hev

/-- No two accepted calls took the same token. -/
theorem Runs.tokens_disjoint (h : Runs d supply c) :
    (Accepted c).Pairwise fun e e' => ∀ x ∈ tokens e, x ∉ tokens e' :=
  h.clean.pairwise.imp fun hclash x hx hx' => hclash ⟨x, hx, hx'⟩

/-- The tokens that are taken are those of the accepted calls. -/
theorem Runs.taken_iff (h : Runs d supply c) (x : Token) :
    c.world.store.Taken x ↔ ∃ e ∈ Accepted c, x ∈ tokens e :=
  ⟨h.clean.made x, fun ⟨_, he, hx⟩ => Audit.taken_of_stands (A := audit d) (h.clean.stands _ he) hx⟩

end

end Pprev
