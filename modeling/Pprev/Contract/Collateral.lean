import Pprev.Contract.Deposits
import Pprev.Contract.Commitments
import Pprev.Contract.Robust
import Pprev.Data.Arithmetic
import Pprev.Escrow.Erosion
import Pprev.Evm.Chronicle

/-!
# Collateral is neither lost nor paid twice

Over the whole life of a listing the compensations of its expirations and what its owner gets back
are the collateral it was registered with. What is left after `k` expirations is the collateral cut
down `k` times, each time rounded down.
-/

namespace Pprev

open Evm Function Tx

/-- The listing whose collateral a call pays out. -/
def Charged (t : Uint256) (e : Entry Block Msg State) : Prop :=
  match e.msg.call with
  | .settle engId _ _ _ _ _ => e.before.listingOf engId = t
  | .expire engId => e.before.listingOf engId = t
  | .cancel txId => txId = t
  | _ => False

section

variable {keccak256 : Bytes → Bytes32} (d : Deployment keccak256) (t : Uint256)
  (e : Entry Block Msg State)

/-- What a call has to pay to a counterparty out of the collateral of the listing. -/
def compensationOf : ℕ :=
  match e.msg.call with
  | .expire engId =>
      if e.before.listingOf engId = t then (e.before.compensation d engId).toNat else 0
  | _ => 0

/-- What a call has to pay back to the owner out of the collateral of the listing. -/
def returnedOf : ℕ :=
  match e.msg.call with
  | .settle engId _ _ _ _ _ =>
      if e.before.listingOf engId = t then (e.before.listings t).collateral.toNat else 0
  | .expire engId =>
      if e.before.listingOf engId = t ∧ e.before.exhausted d engId = true then
        (surviving d (e.before.listings (e.before.listingOf engId)).collateral).toNat
      else 0
  | .cancel txId => if txId = t then (e.before.listings t).collateral.toNat else 0
  | _ => 0

end

section

variable {keccak256 : Bytes → Bytes32} {d : Deployment keccak256} {b : Block} {m : Msg} {s : State}
  {t : Uint256}

theorem amounts_of_not_charged {e : Entry Block Msg State} (h : ¬ Charged t e) :
    compensationOf d t e = 0 ∧ returnedOf d t e = 0 := by
  unfold Charged at h
  unfold compensationOf returnedOf
  cases hc : e.msg.call with
  | settle engId txData r sigmaS etaS tAttS =>
    simp only [hc] at h
    exact ⟨rfl, if_neg h⟩
  | expire engId =>
    simp only [hc] at h
    exact ⟨if_neg h, if_neg fun hx => h hx.1⟩
  | cancel txId =>
    simp only [hc] at h
    exact ⟨rfl, if_neg h⟩
  | _ => exact ⟨rfl, rfl⟩

/-- A call pays out only collateral that the listing holds. -/
theorem holds_of_charged (g : Guard d b m s) (hc : Charged t ⟨b, m, s⟩) : (s.txState t).Holds := by
  unfold Guard at g
  unfold Charged at hc
  cases hcall : m.call with
  | settle engId txData r sigmaS etaS tAttS =>
    simp only [hcall] at g hc
    exact hc ▸ .inr (.inl g.2.1.locked)
  | expire engId =>
    simp only [hcall] at g hc
    exact hc ▸ .inr (.inl g.2.1.locked)
  | cancel txId =>
    simp only [hcall] at g hc
    exact hc ▸ g.2.state.imp id .inr
  | _ => simp [hcall] at hc

/-- What an accepted call does to the collateral of a listing. -/
theorem effect_wears (h : Inv d b.timestamp s) (g : Guard d b m s) (ht : s.txState t ≠ .none) :
    s.book.Wears (terms d) (effect d b m s).book t (compensationOf d t ⟨b, m, s⟩)
      (returnedOf d t ⟨b, m, s⟩) := by
  have ht' : s.book.txState t ≠ .none := ht
  unfold Guard at g
  unfold compensationOf returnedOf effect
  cases hc : m.call with
  | registerPolicy policyIdR policyIdA policyIdS reqEscrow minCollateral maxCollateral =>
    exact .of_eq ht' rfl rfl rfl
  | setNotaryVerifier verifier => exact .of_eq ht' rfl rfl rfl
  | register cTx txData policyIdR r sigmaR etaR tAttR =>
    simp only
    rw [book_addListing h.allocated]
    exact Book.wears_register _ _ h.allocated.next_txState ht'
  | applyFor txId txData r cB sigmaA etaA tAttA =>
    simp only
    rw [book_addApplication]
    exact .of_eq ht' rfl rfl rfl
  | settle engId txData r sigmaS etaS tAttS =>
    simp only [hc] at g
    simp only
    rw [book_settled]
    exact Book.wears_settle (b := s.book) g.2.1.locked ht'
  | engage txId appId =>
    simp only [hc] at g
    simp only
    rw [book_addEngagement g.2.txId_eq]
    refine Book.wears_engage (b := s.book) ?_ _ ht'
    rw [show s.book.appTx appId = txId from g.2.txId_eq]
    exact isOpen_iff.mp g.2.isOpen
  | expire engId =>
    simp only [hc] at g
    simp only
    rw [State.afterExpire, book_expired _ _ _ g.2.2.expirations]
    exact Book.wears_expire (b := s.book) g.2.1.locked g.2.2.surviving_toNat
      g.2.2.compensation_toNat ht'
  | reclaim appId =>
    simp only
    rw [book_reclaimed]
    exact .of_eq ht' rfl rfl rfl
  | cancel txId =>
    simp only [hc] at g
    simp only
    rw [book_cancelled]
    exact Book.wears_cancel (b := s.book) g.2.state ht'
  | withdraw =>
    simp only
    rw [book_withdrawn]
    exact .of_eq ht' rfl rfl rfl

/-! ## The chronicle -/

variable (d) in
/-- The accepted calls that pay out collateral do so for listings that exist, and the tally of every
listing that one of them registered is right, now and where its collateral was paid out. -/
structure Tallies (es : List (Entry Block Msg State)) (s : State) : Prop where
  listed : ∀ e ∈ es, ∀ t, Charged t e → s.txState t ≠ .none
  tally : ∀ e ∈ es, ∀ t txData r, Registers e t txData r →
    s.book.Tally (terms d) t e.msg.value.toNat (es.map (compensationOf d t)).sum
      (es.map (returnedOf d t)).sum
  charged : ∀ e ∈ es, ∀ t txData r, Registers e t txData r → ∀ e' ∈ es, Charged t e' →
    (e'.before.listings t).collateral.toNat =
      (terms d).surviving^[(e'.before.listings t).expirations.toNat] e.msg.value.toNat

theorem Tallies.perm {es es' : List (Entry Block Msg State)} (hp : es.Perm es')
    (h : Tallies d es s) : Tallies d es' s where
  listed e he := h.listed e (hp.mem_iff.mpr he)
  tally e he t txData r hreg := by
    rw [← (hp.map (compensationOf d t)).sum_eq, ← (hp.map (returnedOf d t)).sum_eq]
    exact h.tally e (hp.mem_iff.mpr he) t txData r hreg
  charged e he t txData r hreg e' he' :=
    h.charged e (hp.mem_iff.mpr he) t txData r hreg e' (hp.mem_iff.mpr he')

theorem Tallies.quiet {es : List (Entry Block Msg State)} {s' : State} (hs : SameRecords s s')
    (h : Tallies d es s) : Tallies d es s' := by
  obtain ⟨credit, logs, rfl⟩ := hs
  refine ⟨h.listed, fun e he t txData r hreg => ?_, h.charged⟩
  obtain ⟨h₁, h₂, h₃, h₄⟩ := h.tally e he t txData r hreg
  exact ⟨h₁, h₂, h₃, h₄⟩

/-- A call that is accepted joins the tallies. -/
theorem Tallies.call {es : List (Entry Block Msg State)} (hinv : Inv d b.timestamp s)
    (g : Guard d b m s) (h : Tallies d es s) :
    Tallies d (⟨b, m, s⟩ :: es) (effect d b m s) := by
  have hlisted : ∀ t, s.txState t ≠ .none → (effect d b m s).txState t ≠ .none :=
    fun t ht => (effect_wears hinv g ht).listed
  -- the listing that the call itself registers was absent
  have hnew : ∀ t txData r, Registers ⟨b, m, s⟩ t txData r →
      s.txState t = .none ∧ ¬ Charged t ⟨b, m, s⟩ ∧ ∀ e ∈ es, ¬ Charged t e := by
    rintro t txData r ⟨rfl, cTx, policyIdR, sigmaR, etaR, tAttR, hcall⟩
    have hnone : s.txState s.nextTxId = .none := hinv.allocated.next_txState
    have hm : m.call = .register cTx txData policyIdR r sigmaR etaR tAttR := hcall
    exact ⟨hnone, by simp [Charged, hm], fun e he hc => h.listed e he _ hc hnone⟩
  have hold : ∀ e ∈ es, ∀ t txData r, Registers e t txData r → s.txState t ≠ .none :=
    fun e he t txData r hreg => (h.tally e he t txData r hreg).listed
  refine ⟨fun e he t hc => ?_, fun e he t txData r hreg => ?_,
    fun e he t txData r hreg e' he' hc => ?_⟩
  · rcases List.mem_cons.mp he with rfl | he
    · exact hlisted t (TxState.holds_iff.mp (holds_of_charged g hc)).1
    · exact hlisted t (h.listed e he t hc)
  · rw [List.map_cons, List.map_cons, List.sum_cons, List.sum_cons]
    rcases List.mem_cons.mp he with rfl | he
    · obtain ⟨-, hnot, hnone⟩ := hnew t txData r hreg
      have hzero : ∀ n ∈ es.map (compensationOf d t), n = 0 := fun n hn => by
        obtain ⟨e', he', rfl⟩ := List.mem_map.mp hn
        exact (amounts_of_not_charged (hnone e' he')).1
      have hzero' : ∀ n ∈ es.map (returnedOf d t), n = 0 := fun n hn => by
        obtain ⟨e', he', rfl⟩ := List.mem_map.mp hn
        exact (amounts_of_not_charged (hnone e' he')).2
      rw [List.sum_eq_zero hzero, List.sum_eq_zero hzero', (amounts_of_not_charged hnot).1,
        (amounts_of_not_charged hnot).2]
      obtain ⟨rfl, cTx, policyIdR, sigmaR, etaR, tAttR, hcall⟩ := hreg
      have hm : m.call = .register cTx txData policyIdR r sigmaR etaR tAttR := hcall
      have hbook : (effect d b m s).book = s.book.register s.nextTxId m.sender m.value.toNat := by
        simp only [effect, hm]
        exact book_addListing hinv.allocated _
      rw [hbook]
      exact Book.tally_register _ _ _
    · have htally := h.tally e he t txData r hreg
      exact htally.wears (effect_wears hinv g htally.listed)
  · rcases List.mem_cons.mp he with rfl | he
    · obtain ⟨-, hnot, hnone⟩ := hnew t txData r hreg
      rcases List.mem_cons.mp he' with rfl | he'
      · exact absurd hc hnot
      · exact absurd hc (hnone e' he')
    · rcases List.mem_cons.mp he' with rfl | he'
      · exact (h.tally e he t txData r hreg).collateral (holds_of_charged g hc)
      · exact h.charged e he t txData r hreg e' he' hc

end

/-- The chronicle of the collaterals. -/
noncomputable def chronicle {keccak256 : Bytes → Bytes32} (d : Deployment keccak256) :
    Chronicle (discipline d) where
  Holds := Tallies d
  Quiet := SameRecords
  perm := Tallies.perm
  quiet := Tallies.quiet
  call b m s es hinv hl h := by
    have g := run_guard hl
    show (run d b m s).First _
    rw [run_eq g]
    exact (followUp_at _).first_iff.mpr (h.call hinv g)
  later b m s hinv := by
    show (run d b m s).Later _
    rcases (run d b m s).live_or_revert with hl | ⟨e, he⟩
    · rw [run_eq (run_guard hl)]
      exact (followUp_moves _).later
    · rw [he]
      trivial

/-! ## What was paid -/

section

variable (t : Uint256) (e : Entry Block Msg State) (paid : Address → ℕ)

/-- What a call that pays everyone what `paid` says brings a counterparty beyond its deposit. -/
def compensationIn : ℕ :=
  match e.msg.call with
  | .expire engId =>
      if e.before.listingOf engId = t then
        paid (e.before.applications (e.before.engagements engId).appId).depositor -
          (e.before.applications (e.before.engagements engId).appId).deposit.toNat
      else 0
  | _ => 0

/-- What a call that pays everyone what `paid` says brings the owner of the listing beyond its share
of a deposit. -/
def collateralIn : ℕ :=
  match e.msg.call with
  | .settle engId txData _ _ _ _ =>
      if e.before.listingOf engId = t then
        paid (e.before.listings t).owner -
          (e.before.applications (e.before.engagements engId).appId).deposit.toNat *
            txData.settlementShare.toNat / 10000
      else 0
  | .expire engId =>
      if e.before.listingOf engId = t then paid (e.before.listings t).owner else 0
  | .cancel txId => if txId = t then paid (e.before.listings t).owner else 0
  | _ => 0

end

/-- The compensations paid or credited to counterparties out of the collateral of a listing. -/
def compensations (c : Config Block Msg State Err Uint256) (t : Uint256) : ℕ :=
  ((ledger c).map fun x => compensationIn t x.1 (paidIn · x.2)).sum

/-- The collateral of a listing paid or credited to its owner. -/
def collateralPaid (c : Config Block Msg State Err Uint256) (t : Uint256) : ℕ :=
  ((ledger c).map fun x => collateralIn t x.1 (paidIn · x.2)).sum

/-- The collateral of a listing that calls which wait for a recipient will pay to its owner. -/
def collateralComing (c : Config Block Msg State Err Uint256) (t : Uint256) : ℕ :=
  (c.stack.map fun f => collateralIn t f.entry (amountTo · f.later)).sum

section

variable {keccak256 : Bytes → Bytes32} {d : Deployment keccak256} {b : Block} {m : Msg} {s : State}
  {t : Uint256} {l rest : List (Address × Uint256)}

/-- The first payout of a call is made by the time it waits for any recipient. -/
theorem amountTo_first {w : Address} {amount : Uint256} {later : List (Address × Uint256)}
    (hlater : amountTo w later = 0) (hl : l ++ rest = transfer w amount ++ later)
    (hfirst : l ≠ [] ∨ rest = []) : amountTo w l = amount.toNat ∧ amountTo w rest = 0 := by
  have hsum : amountTo w l + amountTo w rest = amount.toNat := by
    rw [← amountTo_append, hl, amountTo_append, amountTo_transfer_self, hlater, Nat.add_zero]
  suffices hrest : amountTo w rest = 0 by omega
  rcases hfirst with hne | rfl
  · by_cases h0 : amount = 0
    · have : amount.toNat = 0 := by rw [h0]; rfl
      omega
    · rw [transfer, if_neg h0] at hl
      cases l with
      | nil => exact absurd rfl hne
      | cons x l =>
        have htail : l ++ rest = later := (List.cons_eq_cons.mp hl).2
        rw [← htail, amountTo_append] at hlater
        omega
  · rfl

/-- What a call has paid and what it will pay is what it has to pay. -/
theorem plan_parts (h : Inv d b.timestamp s) (g : Guard d b m s) (hl : l ++ rest = plan d m s)
    (hfirst : l ≠ [] ∨ rest = []) :
    compensationIn t ⟨b, m, s⟩ (amountTo · l) = compensationOf d t ⟨b, m, s⟩ ∧
    collateralIn t ⟨b, m, s⟩ (amountTo · l) + collateralIn t ⟨b, m, s⟩ (amountTo · rest) =
      returnedOf d t ⟨b, m, s⟩ := by
  unfold Guard at g
  unfold plan at hl
  unfold compensationIn collateralIn compensationOf returnedOf
  cases hc : m.call with
  | settle engId txData r sigmaS etaS tAttS =>
    simp only [hc] at g hl
    refine ⟨rfl, ?_⟩
    simp only
    split_ifs with ht
    · subst ht
      obtain ⟨hpaid, hcoming⟩ :=
        amountTo_first (amountTo_transfer_of_ne (depositor_ne_owner h g.2.1.known) _) hl hfirst
      rw [hpaid, hcoming, State.toOwner, toNat_add_of_lt g.2.2.toOwner, g.2.2.ownerShare_toNat]
      omega
    · rfl
  | expire engId =>
    simp only [hc] at g hl
    have hne := depositor_ne_owner h (known_of_open g.2.1.isOpen)
    simp only
    by_cases ht : s.listingOf engId = t
    · subst ht
      obtain ⟨hpaid, -⟩ := amountTo_first (amountTo_ite_of_ne hne.symm) hl hfirst
      have howner := congrArg (amountTo (s.listings (s.listingOf engId)).owner) hl
      rw [amountTo_append, amountTo_append, amountTo_transfer_of_ne hne, Nat.zero_add] at howner
      rw [if_pos rfl, if_pos rfl, if_pos rfl, if_pos rfl, hpaid, toNat_add_of_lt g.2.2.toDepositor,
        howner]
      refine ⟨by omega, ?_⟩
      cases s.exhausted d engId with
      | true => simp [amountTo_transfer_self]
      | false => simp
    · rw [if_neg ht, if_neg ht, if_neg ht, if_neg ht, if_neg fun hx => ht hx.1]
      exact ⟨rfl, rfl⟩
  | cancel txId =>
    simp only [hc] at g hl
    refine ⟨rfl, ?_⟩
    simp only
    split_ifs with ht
    · subst ht
      rw [← g.2.owner, ← amountTo_append, hl, amountTo_transfer_self]
    · rfl
  | _ => exact ⟨rfl, rfl⟩

end

/-! ## Conservation -/

section

variable {keccak256 : Bytes → Bytes32} {d : Deployment keccak256} {supply : ℕ}
  {c : Config Block Msg State Err Uint256} {t : Uint256}

/-- The tallies are right in every configuration of every run. -/
theorem Runs.tallies (h : Runs d supply c) : Tallies d (Accepted c) c.world.store := by
  obtain ⟨b, s, hd, hrun⟩ := h
  obtain ⟨verifier, rfl⟩ := hd.initial
  have hnone : Tallies d [] (State.initial verifier) := by constructor <;> simp
  exact (Chronicle.reachable_ok (H := chronicle d) (initial_inv _ _) (initial_obligations _) hnone
    hrun).holds

theorem Runs.record_parts (h : Runs d supply c) {r : Record Block Msg State Uint256}
    (hr : r ∈ c.world.history) (t : Uint256) :
    compensationIn t r.entry (paidIn · r.paid) = compensationOf d t r.entry ∧
    collateralIn t r.entry (paidIn · r.paid) = returnedOf d t r.entry := by
  obtain ⟨hinv, g, -⟩ := h.stands (List.mem_append_left _ (List.mem_map_of_mem hr))
  obtain ⟨hcomp, hret⟩ := plan_parts (t := t) hinv g
    ((List.append_nil _).trans (h.paid_eq hr)) (.inr rfl)
  have hnil : collateralIn t r.entry (amountTo · []) = 0 := by
    unfold collateralIn
    split <;> simp
  simp only [paidIn_eq]
  refine ⟨hcomp, ?_⟩
  rw [← hret]
  exact (Nat.add_eq_left.mpr hnil).symm

theorem Runs.frame_parts (h : Runs d supply c) {f : Frame Block Msg State Err Uint256}
    (hf : f ∈ c.stack) (t : Uint256) :
    compensationIn t f.entry (paidIn · (f.paid ++ [⟨f.dst, f.amount, true⟩])) =
      compensationOf d t f.entry ∧
    collateralIn t f.entry (paidIn · (f.paid ++ [⟨f.dst, f.amount, true⟩])) +
      collateralIn t f.entry (amountTo · f.later) = returnedOf d t f.entry := by
  obtain ⟨hinv, g, -⟩ := h.stands (List.mem_append_right _ (List.mem_map_of_mem hf))
  simp only [paidIn_eq, List.map_append]
  exact plan_parts hinv g (h.frame_plan hf) (.inl (by simp))

theorem Runs.compensations_eq (h : Runs d supply c) (t : Uint256) :
    compensations c t = ((Accepted c).map (compensationOf d t)).sum := by
  rw [compensations, ledger, Accepted, accepted, List.map_append, List.map_append, List.map_map,
    List.map_map, List.map_map, List.map_map]
  congr 2
  · exact List.map_congr_left fun r hr => (h.record_parts hr t).1
  · exact List.map_congr_left fun f hf => (h.frame_parts hf t).1

theorem Runs.collateral_eq (h : Runs d supply c) (t : Uint256) :
    collateralPaid c t + collateralComing c t = ((Accepted c).map (returnedOf d t)).sum := by
  rw [collateralPaid, collateralComing, ledger, Accepted, accepted, List.map_append,
    List.map_append, List.map_map, List.map_map, List.map_map, List.map_map, List.sum_append,
    List.sum_append, Nat.add_assoc, ← List.sum_map_add]
  congr 2
  · exact List.map_congr_left fun r hr => (h.record_parts hr t).2
  · exact List.map_congr_left fun f hf => (h.frame_parts hf t).2

variable (d) in
/-- What an expiration of an engagement of the listing does when `left k` is the collateral after
`k` expirations. -/
structure Slashes (e : Entry Block Msg State) (engId t : Uint256) (left : ℕ → ℕ) : Prop where
  remaining : (e.before.listings t).collateral.toNat = left (e.before.listings t).expirations.toNat
  next : ∃ s₁, (run d e.block e.msg e.before).At s₁ ∧
    (s₁.listings t).expirations.toNat = (e.before.listings t).expirations.toNat + 1 ∧
    (s₁.txState t = .cancelled ↔ (s₁.listings t).expirations = d.MAX_EXPIRATIONS) ∧
    (s₁.txState t ≠ .cancelled → s₁.txState t = .expired)
  toCounterparty :
    amountTo (e.before.applications (e.before.engagements engId).appId).depositor
        ((code d).plan e) =
      (e.before.applications (e.before.engagements engId).appId).deposit.toNat +
        (left (e.before.listings t).expirations.toNat -
          left ((e.before.listings t).expirations.toNat + 1))
  toOwner : amountTo (e.before.listings t).owner ((code d).plan e) =
    if (e.before.listings t).expirations.toNat + 1 = d.MAX_EXPIRATIONS.toNat then
      left ((e.before.listings t).expirations.toNat + 1)
    else 0
  positive : 0 < left (e.before.listings t).expirations.toNat →
    0 < left (e.before.listings t).expirations.toNat -
      left ((e.before.listings t).expirations.toNat + 1)

variable (d) in
/-- The collateral `c₀` after `k` expirations. -/
def left (c₀ k : ℕ) : ℕ := (Rounding.part d.RHO.toNat 10000)^[k] c₀

theorem left_succ (d : Deployment keccak256) (c₀ k : ℕ) :
    left d c₀ (k + 1) = left d c₀ k * d.RHO.toNat / 10000 := iterate_succ_apply' _ _ _

/-- The collateral of a listing when an accepted call pays it out. -/
theorem Runs.remaining (h : Runs d supply c) {e₀ e : Entry Block Msg State}
    (he₀ : e₀ ∈ Accepted c) {txData : TxData} {r : Bytes32} (hreg : Registers e₀ t txData r)
    (he : e ∈ Accepted c) (hc : Charged t e) : (e.before.listings t).collateral.toNat =
      left d e₀.msg.value.toNat (e.before.listings t).expirations.toNat :=
  h.tallies.charged e₀ he₀ t txData r hreg e he hc

/-- An expiration counts itself and cancels the listing when it is the last one allowed. -/
theorem afterExpire_next (s : State) (engId : Uint256) :
    ((s.afterExpire d engId).listings (s.listingOf engId)).expirations =
      (s.listings (s.listingOf engId)).expirations + 1 ∧
    ((s.afterExpire d engId).txState (s.listingOf engId) = .cancelled ↔
      (s.listings (s.listingOf engId)).expirations + 1 = d.MAX_EXPIRATIONS) ∧
    ((s.afterExpire d engId).txState (s.listingOf engId) ≠ .cancelled →
      (s.afterExpire d engId).txState (s.listingOf engId) = .expired) := by
  simp [State.afterExpire, State.expired, State.exhausted]

theorem Runs.slashes (h : Runs d supply c) {e : Entry Block Msg State} (he : e ∈ Accepted c)
    {engId : Uint256} (hcall : e.msg.call = .expire engId) (ht : e.before.listingOf engId = t)
    {c₀ : ℕ} (hleft : (e.before.listings t).collateral.toNat =
      left d c₀ (e.before.listings t).expirations.toNat) :
    Slashes d e engId t (left d c₀) := by
  obtain ⟨hinv, g, -⟩ := h.stands he
  have hat : (run d e.block e.msg e.before).At (e.before.afterExpire d engId) := by
    have heffect : effect d e.block e.msg e.before = e.before.afterExpire d engId := by
      simp only [effect, hcall]
    rw [run_eq g, heffect]
    exact followUp_at _
  have hplan := h.plan_eq he
  simp only [plan, hcall] at hplan
  unfold Guard at g
  simp only [hcall] at g
  obtain ⟨-, gc, ga⟩ := g
  subst ht
  obtain ⟨hexp, hcancelled, hexpired⟩ := afterExpire_next (d := d) e.before engId
  have hnext := toNat_add_of_lt (b := 1) ga.expirations
  have hsurv : (surviving d (e.before.listings (e.before.listingOf engId)).collateral).toNat =
      left d c₀ ((e.before.listings (e.before.listingOf engId)).expirations.toNat + 1) := by
    rw [left_succ, ← hleft]
    exact ga.surviving_toNat
  have hparties := depositor_ne_owner hinv (known_of_open gc.isOpen)
  refine ⟨hleft, ⟨_, hat, ?_, ?_, hexpired⟩, ?_, ?_, fun hpos => ?_⟩
  · rw [hexp, hnext]
    rfl
  · rw [hcancelled, hexp]
  · rw [hplan, amountTo_expire hinv gc ga rfl (.refl _), left_succ, ← hleft]
  · rw [hplan, amountTo_append, amountTo_transfer_of_ne hparties, Nat.zero_add, ← hsurv]
    have hlast := ga.exhausted_iff
    cases hx : e.before.exhausted d engId with
    | true =>
      rw [if_pos rfl, amountTo_transfer_self]
      exact (if_pos (hlast.mp hx)).symm
    | false =>
      rw [if_neg Bool.false_ne_true]
      exact (if_neg (mt hlast.mpr (by rw [hx]; decide))).symm
  · rw [left_succ]
    exact Nat.sub_pos_of_lt (Rounding.part_lt (rho_lt d) hpos)

/-- **Collateral conservation.** While a listing holds its collateral, `k` expirations have left it
the collateral it was registered with cut down `k` times, and the rest was paid or credited to its
counterparties; the expiration that reaches the maximum, and no other, cancels it and pays the owner
what is left, as `settle` and `cancel` do; in the end compensations and payouts to the owner are the
collateral it was registered with. An ended call has paid or credited everyone what it had to; what
anyone did not accept is its credit, less what it drew from it. -/
theorem collateral_conserved (h : Runs d supply c) {e₀ : Entry Block Msg State}
    (he₀ : e₀ ∈ Accepted c) {txData : TxData} {r : Bytes32} (hreg : Registers e₀ t txData r) :
    let c₀ := e₀.msg.value.toNat
    let k := (c.world.store.listings t).expirations.toNat
    ((c.world.store.txState t).Holds →
      (c.world.store.listings t).collateral.toNat = left d c₀ k ∧
      compensations c t = c₀ - left d c₀ k ∧ left d c₀ k ≤ c₀ ∧ collateralPaid c t = 0 ∧
      k < d.MAX_EXPIRATIONS.toNat) ∧
    (∀ e ∈ Accepted c, ∀ engId, e.msg.call = .expire engId → e.before.listingOf engId = t →
      Slashes d e engId t (left d c₀)) ∧
    (∀ e ∈ Accepted c, ∀ engId txData r sigmaS etaS tAttS,
      e.msg.call = .settle engId txData r sigmaS etaS tAttS → e.before.listingOf engId = t →
      (e.before.listings t).collateral.toNat =
        left d c₀ (e.before.listings t).expirations.toNat ∧
      amountTo (e.before.listings t).owner ((code d).plan e) =
        (e.before.applications (e.before.engagements engId).appId).deposit.toNat *
          txData.settlementShare.toNat / 10000 + (e.before.listings t).collateral.toNat) ∧
    (∀ e ∈ Accepted c, e.msg.call = .cancel t →
      (e.before.listings t).collateral.toNat =
        left d c₀ (e.before.listings t).expirations.toNat ∧
      amountTo (e.before.listings t).owner ((code d).plan e) =
        (e.before.listings t).collateral.toNat) ∧
    (∀ rec ∈ c.world.history, rec.paid.map Payment.pair = (code d).plan rec.entry ∧
      ∀ w, receivedIn w rec.paid + undelivered w rec.paid =
        amountTo w ((code d).plan rec.entry)) ∧
    (∀ w, (c.world.store.credit w).toNat + drawnBy c w = undeliveredTo c w) ∧
    (∀ w, (c.world.store.credit w).toNat + sentTo c w =
      (∑ a with (c.world.store.applications a).depositor = w, paidFor c a) +
        ∑ t with (c.world.store.listings t).owner = w, paidToOwner c t) ∧
    (¬ (c.world.store.txState t).Holds →
      compensations c t + collateralPaid c t + collateralComing c t = c₀ ∧
      (c.stack = [] → compensations c t + collateralPaid c t = c₀)) ∧
    ∀ k, (c₀ * (d.RHO.toNat / 10000 : ℚ) ^ k - 1 / (1 - d.RHO.toNat / 10000) : ℚ) < left d c₀ k ∧
      (left d c₀ k : ℚ) ≤ c₀ * (d.RHO.toNat / 10000 : ℚ) ^ k := by
  intro c₀ k
  have htally := h.tallies.tally e₀ he₀ t txData r hreg
  rw [← h.compensations_eq, ← h.collateral_eq] at htally
  refine ⟨fun hholds => ?_, fun e he engId hcall ht => ?_,
    fun e he engId txData' r' sigmaS etaS tAttS hcall ht => ?_, fun e he hcall => ?_,
    fun rec hrec => ?_, h.credit_eq, h.attributed, fun hclosed => ?_, fun k => ?_⟩
  · have hcol : (c.world.store.listings t).collateral.toNat = left d c₀ k :=
      htally.collateral hholds
    obtain ⟨hsum, hpaid⟩ := htally.balance hholds
    have hsum' : compensations c t + left d c₀ k = c₀ := by
      rw [← hcol]
      exact hsum
    have hmax : k < d.MAX_EXPIRATIONS.toNat := h.inv.valid.tallied.bounded t <| by
      unfold TxState.Holds at hholds
      tauto
    exact ⟨hcol, by omega, by omega, by omega, hmax⟩
  · exact h.slashes he hcall ht (h.remaining he₀ hreg he (by simp [Charged, hcall, ht]))
  · refine ⟨h.remaining he₀ hreg he (by simp [Charged, hcall, ht]), ?_⟩
    obtain ⟨hinv, g, -⟩ := h.stands he
    simp only [Guard, hcall] at g
    subst ht
    rw [h.plan_eq he]
    exact (plan_split hcall hinv g.2.1 g.2.2).toOwner
  · refine ⟨h.remaining he₀ hreg he (by simp [Charged, hcall]), ?_⟩
    obtain ⟨-, g, -⟩ := h.stands he
    rw [h.plan_eq he]
    unfold Guard at g
    simp only [hcall] at g
    simp only [plan, hcall]
    rw [g.2.owner, amountTo_transfer_self]
  · have hmem : rec.entry ∈ Accepted c := List.mem_append_left _ (List.mem_map_of_mem hrec)
    have hpair : rec.paid.map Payment.pair = (code d).plan rec.entry := by
      rw [h.paid_eq hrec, h.plan_eq hmem]
    exact ⟨hpair, fun w => by rw [← hpair]; exact paidIn_eq w rec.paid⟩
  · have hsum := htally.closed hclosed
    refine ⟨by rw [Nat.add_assoc]; exact hsum, fun hstack => ?_⟩
    have hcoming : collateralComing c t = 0 := by rw [collateralComing, hstack]; rfl
    rwa [hcoming] at hsum
  · have hlt := Rounding.lt_iterate_part (rho_lt d) c₀ k
    have hle := Rounding.iterate_part_le (a := d.RHO.toNat) (b := 10000) c₀ k
    exact ⟨by exact_mod_cast hlt, by exact_mod_cast hle⟩

end

namespace Vectors

/-- The engagement of the test vectors expires instead of being settled. -/
def expiring : List (Event Block Msg) :=
  events.take 6 ++ [.block (block 1761500000), .call (msg applicant 0 (.expire 1)), .accept]

/-- The run in which the engagement expired. -/
def expiredOnce : Config Block Msg State Err Uint256 :=
  ((code deployment).exec (Config.deployed (block 1759990000) (State.initial verifier) 100000)
    expiring).get (by decide +kernel)

theorem expiredOnce_runs : Runs deployment 100000 expiredOnce :=
  ⟨_, _, deployed, expiring, (Option.some_get _).symm⟩

/-- The registration of the listing. -/
def registration : Record Block Msg State Uint256 :=
  expiredOnce.world.history.get ⟨3, by decide +kernel⟩

theorem registration_mem : registration.entry ∈ Accepted expiredOnce :=
  List.mem_append_left _ (List.mem_map_of_mem (List.get_mem _ _))

theorem expiredOnce_facts :
    registration.entry.before.nextTxId = 1 ∧
    registration.entry.msg.call =
      .register cTx txData policyIdR r [] register.eta register.tAtt ∧
    registration.entry.msg.value.toNat = 7000 ∧
    (expiredOnce.world.store.listings 1).expirations.toNat = 1 ∧
    (expiredOnce.world.store.txState 1).Holds := by
  decide +kernel

end Vectors

open Vectors in
theorem collateral_conserved_expiredOnce : compensations expiredOnce 1 = 700 ∧
    (expiredOnce.world.store.listings 1).collateral.toNat = 6300 := by
  obtain ⟨hnext, hcall, hvalue, hexp, hholds⟩ := expiredOnce_facts
  have hreg : Registers registration.entry 1 txData r := ⟨hnext, _, _, _, _, _, hcall⟩
  obtain ⟨hcol, hcomp, -⟩ :=
    (collateral_conserved expiredOnce_runs registration_mem hreg).1 hholds
  rw [hvalue, hexp] at hcol hcomp
  exact ⟨hcomp, hcol⟩

end Pprev
