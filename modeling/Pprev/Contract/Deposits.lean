import Pprev.Contract.Ledger

/-!
# Every deposit leaves the escrow once

An application is disposed of by at most one accepted call, a reclaim, a settlement or an
expiration, and what its depositor accepts or is credited on account of it is what that call says.
-/

namespace Pprev

open Evm Function Tx

/-- The call disposes of the application. -/
def Disposes (appId : Uint256) (e : Entry Block Msg State) : Prop :=
  .item (.disposal appId) ∈ tokens e

instance (appId : Uint256) (e : Entry Block Msg State) : Decidable (Disposes appId e) :=
  inferInstanceAs (Decidable (_ ∈ _))

theorem applicationOf_of_disposes {appId : Uint256} {e : Entry Block Msg State}
    (h : Disposes appId e) : applicationOf e = some appId := by
  unfold Disposes tokens at h
  unfold applicationOf
  cases hc : e.msg.call <;> simp_all

/-- A sum over a list of which at most one member counts. -/
theorem sum_of_unique {α : Type} {P : α → Prop} [DecidablePred P] (f : α → ℕ) {l : List α}
    (hl : l.Pairwise fun x y => ¬ (P x ∧ P y)) {x : α} (hx : x ∈ l) (hP : P x) :
    (l.map fun y => if P y then f y else 0).sum = f x := by
  induction l with
  | nil => cases hx
  | cons y l ih =>
    obtain ⟨hy, hl⟩ := List.pairwise_cons.mp hl
    rw [List.map_cons, List.sum_cons]
    rcases List.mem_cons.mp hx with rfl | hx
    · have hzero : (l.map fun y => if P y then f y else 0).sum = 0 :=
        List.sum_eq_zero fun n hn => by
          obtain ⟨z, hz, rfl⟩ := List.mem_map.mp hn
          exact if_neg fun hPz => hy z hz ⟨hP, hPz⟩
      rw [if_pos hP, hzero, Nat.add_zero]
    · rw [if_neg fun hPy => hy x hx ⟨hPy, hP⟩, Nat.zero_add]
      exact ih hl hx

section

variable {keccak256 : Bytes → Bytes32} {d : Deployment keccak256} {supply : ℕ}
  {c : Config Block Msg State Err Uint256} {appId : Uint256}

/-- No two accepted calls dispose of the same application. -/
theorem Runs.disposed_once (h : Runs d supply c) :
    (Accepted c).Pairwise fun e e' => ∀ a, ¬ (Disposes a e ∧ Disposes a e') :=
  h.tokens_disjoint.imp fun hdis _ ⟨ha, ha'⟩ => hdis _ ha ha'

/-- An application is disposed of in the store when an accepted call disposed of it. -/
theorem Runs.disposed_iff (h : Runs d supply c) (a : Uint256) :
    c.world.store.book.Disposed a ↔ ∃ e ∈ Accepted c, Disposes a e :=
  h.taken_iff (.item (.disposal a))

/-- A call about an application that does not dispose of it pays nothing. -/
theorem plan_of_not_disposes {e : Entry Block Msg State} (happ : applicationOf e = some appId)
    (hdis : ¬ Disposes appId e) : plan d e.msg e.before = [] := by
  unfold applicationOf at happ
  unfold Disposes tokens at hdis
  unfold plan
  cases hc : e.msg.call <;> simp_all

/-- What was paid on account of an application is what the calls that disposed of it paid. -/
theorem Runs.paidFor_disposals (h : Runs d supply c) : paidFor c appId =
    ((ledger c).map fun x => if Disposes appId x.1 then
      amountTo (c.world.store.applications appId).depositor (x.2.map Payment.pair) else 0).sum := by
  refine congrArg List.sum (List.map_congr_left fun x hx => ?_)
  rw [paidIn_eq]
  by_cases hdis : Disposes appId x.1
  · rw [if_pos (applicationOf_of_disposes hdis), if_pos hdis]
  · rw [if_neg hdis]
    split_ifs with happ
    · obtain ⟨later, hplan, -⟩ := h.ledger_plan hx
      rw [plan_of_not_disposes happ hdis] at hplan
      rw [(List.append_eq_nil_iff.mp hplan).1, amountTo_nil]
    · rfl

theorem Runs.paidFor_eq_zero (h : Runs d supply c) (ha : ¬ c.world.store.book.Disposed appId) :
    paidFor c appId = 0 := by
  rw [h.paidFor_disposals]
  refine List.sum_eq_zero fun n hn => ?_
  obtain ⟨x, hx, rfl⟩ := List.mem_map.mp hn
  exact if_neg fun hdis => ha ((h.disposed_iff appId).mpr ⟨x.1, accepted_of_ledger hx, hdis⟩)

/-- What was paid on account of an application is what the call that disposed of it pays to the
depositor. -/
theorem Runs.paidFor_eq (h : Runs d supply c) {r : Record Block Msg State Uint256}
    (hr : r ∈ c.world.history) (hdis : Disposes appId r.entry) :
    paidFor c appId = amountTo (c.world.store.applications appId).depositor
      (plan d r.entry.msg r.entry.before) := by
  have hpair : (ledger c).Pairwise fun x y => ¬ (Disposes appId x.1 ∧ Disposes appId y.1) := by
    have := h.disposed_once
    rw [← ledger_entries, List.pairwise_map] at this
    exact this.imp fun hxy => hxy appId
  have hmem : (r.entry, r.paid) ∈ ledger c :=
    List.mem_append_left _ (List.mem_map_of_mem hr)
  rw [h.paidFor_disposals, ← h.paid_eq hr]
  exact sum_of_unique (P := fun x => Disposes appId x.1) (fun x =>
    amountTo (c.world.store.applications appId).depositor (x.2.map Payment.pair)) hpair hmem hdis

/-! ## What each disposal pays -/

section Amounts

variable {b : Block} {m : Msg} {s s' : State} {engId : Uint256}

theorem amountTo_reclaim (g : ReclaimGuard m s appId) (hev : Evolves s s') :
    amountTo (s'.applications appId).depositor
      (transfer m.sender (s.applications appId).deposit) =
      (s'.applications appId).deposit.toNat := by
  obtain ⟨hdep, hval⟩ := hev.application (known_of_pending g.pending)
  rw [hdep, hval, g.depositor, amountTo_transfer_self]

theorem amountTo_settle {txData : TxData} {r : Bytes32} {sigmaS : Bytes} {etaS : Bytes32}
    {tAttS : Uint64} (h : Inv d b.timestamp s)
    (g : SettleChecks d b m s engId txData r sigmaS etaS tAttS) (a : SettleAmounts s engId txData)
    (happ : (s.engagements engId).appId = appId) (hev : Evolves s s') :
    amountTo (s'.applications appId).depositor
      (transfer (s.listings (s.listingOf engId)).owner (s.toOwner engId txData) ++
        transfer (s.applications (s.engagements engId).appId).depositor
          (s.toCounterparty engId txData)) =
      (s'.applications appId).deposit.toNat -
        (s'.applications appId).deposit.toNat * txData.settlementShare.toNat / 10000 := by
  obtain ⟨hdep, hval⟩ := hev.application (engaged_known h g.known)
  have howner := (depositor_ne_owner h g.known).symm
  rw [← happ, hdep, hval, amountTo_append, amountTo_transfer_of_ne howner, Nat.zero_add,
    amountTo_transfer_self, a.toCounterparty_toNat]

theorem amountTo_expire (h : Inv d b.timestamp s) (g : ExpireChecks b s engId)
    (a : ExpireAmounts d s engId) (happ : (s.engagements engId).appId = appId)
    (hev : Evolves s s') :
    amountTo (s'.applications appId).depositor
      (transfer (s.applications (s.engagements engId).appId).depositor
          ((s.applications (s.engagements engId).appId).deposit + s.compensation d engId) ++
        if s.exhausted d engId then
          transfer (s.listings (s.listingOf engId)).owner
            (surviving d (s.listings (s.listingOf engId)).collateral)
        else []) =
      (s'.applications appId).deposit.toNat +
        ((s.listings (s.listingOf engId)).collateral.toNat -
          (s.listings (s.listingOf engId)).collateral.toNat * d.RHO.toNat / 10000) := by
  have hknown := known_of_open g.isOpen
  obtain ⟨hdep, hval⟩ := hev.application (engaged_known h hknown)
  have howner := (depositor_ne_owner h hknown).symm
  have hsurv : (surviving d (s.listings (s.listingOf engId)).collateral).toNat =
      (s.listings (s.listingOf engId)).collateral.toNat * d.RHO.toNat / 10000 :=
    a.surviving_toNat
  rw [← happ, hdep, hval, amountTo_append, amountTo_ite_of_ne howner, Nat.add_zero,
    amountTo_transfer_self,
    toNat_add_of_lt a.toDepositor, State.compensation, toNat_sub_of_le a.surviving_le, hsurv]

end Amounts

/-- **Deposits leave once.** `settle` acts on the one open engagement of its listing; engagements
move along their graph; an application is disposed of by at most one accepted call, and exactly
when one did; and what its depositor accepted and what it did not accept, over all calls about the
application, is together nothing before that, and after it what the call says. What anyone did not
accept is its credit, less what it drew from it, and nobody was sent or credited anything but on
account of an application as its depositor or of a listing as its owner. -/
theorem deposits_leave_once (h : Runs d supply c) :
    (∀ e ∈ Accepted c, ∀ engId txData r sigmaS etaS tAttS,
      e.msg.call = .settle engId txData r sigmaS etaS tAttS →
      (e.before.engagements engId).status = .open ∧
      ∀ engId', (e.before.engagements engId').status = .open →
        e.before.listingOf engId' = e.before.listingOf engId → engId' = engId) ∧
    (∀ es c', c.stack = [] → (code d).exec c es = some c' → ∀ engId,
      Relation.ReflTransGen EngStatus.Step (c.world.store.engagements engId).status
        (c'.world.store.engagements engId).status) ∧
    (∀ e ∈ Accepted c, ∀ engId, Relation.ReflTransGen EngStatus.Step
      (e.before.engagements engId).status (c.world.store.engagements engId).status) ∧
    (Accepted c).Pairwise (fun e e' => ∀ a, ¬ (Disposes a e ∧ Disposes a e')) ∧
    (∀ w, (c.world.store.credit w).toNat + drawnBy c w = undeliveredTo c w) ∧
    (∀ w, (c.world.store.credit w).toNat + sentTo c w =
      (∑ a with (c.world.store.applications a).depositor = w, paidFor c a) +
        ∑ t with (c.world.store.listings t).owner = w, paidToOwner c t) ∧
    ∀ a, (c.world.store.book.Disposed a ↔ ∃ e ∈ Accepted c, Disposes a e) ∧
      ((c.world.store.applications a).status = .pending → paidFor c a = 0) ∧
      (∀ engId, (c.world.store.engagements engId).status = .open →
        (c.world.store.engagements engId).appId = a → paidFor c a = 0) ∧
      ∀ r ∈ c.world.history,
        (r.entry.msg.call = .reclaim a →
          paidFor c a = (c.world.store.applications a).deposit.toNat) ∧
        (∀ engId txData ρ sigmaS etaS tAttS,
          r.entry.msg.call = .settle engId txData ρ sigmaS etaS tAttS →
          (r.entry.before.engagements engId).appId = a →
          paidFor c a = (c.world.store.applications a).deposit.toNat -
            (c.world.store.applications a).deposit.toNat * txData.settlementShare.toNat / 10000) ∧
        ∀ engId, r.entry.msg.call = .expire engId →
          (r.entry.before.engagements engId).appId = a →
          paidFor c a = (c.world.store.applications a).deposit.toNat +
            ((r.entry.before.listings (r.entry.before.listingOf engId)).collateral.toNat -
              (r.entry.before.listings (r.entry.before.listingOf engId)).collateral.toNat *
                d.RHO.toNat / 10000) := by
  have hlinked := h.inv.valid.linked
  refine ⟨fun e he engId txData r sigmaS etaS tAttS hcall => ?_,
    fun es c' hstack hes engId => (h.evolves hstack hes).book.engStatus engId,
    fun e he engId => (h.evolves_before he).book.engStatus engId, h.disposed_once, h.credit_eq,
    h.attributed, fun a => ⟨h.disposed_iff a, fun hp => ?_, fun engId hopen happ => ?_,
      fun r hr => ⟨fun hcall => ?_, fun engId txData ρ sigmaS etaS tAttS hcall happ => ?_,
        fun engId hcall happ => ?_⟩⟩⟩
  · obtain ⟨hinv, g, -⟩ := h.stands he
    simp only [Guard, hcall] at g
    have hopen := g.2.1.isOpen hinv
    exact ⟨hopen, fun engId' hopen' hlist =>
      hinv.valid.locked.unique engId' engId hopen' hopen hlist⟩
  · exact h.paidFor_eq_zero (hlinked.not_disposed_of_pending hp)
  · refine h.paidFor_eq_zero ?_
    rw [← happ]
    exact hlinked.not_disposed_of_open (e := engId) hopen
  all_goals
    have hmem : r.entry ∈ Accepted c := List.mem_append_left _ (List.mem_map_of_mem hr)
    obtain ⟨hinv, g, -⟩ := h.stands hmem
    have hev := h.evolves_before hmem
    simp only [Guard, hcall] at g
  · rw [h.paidFor_eq hr (by simp [Disposes, tokens, hcall])]
    simp only [plan, hcall]
    exact amountTo_reclaim g.2 hev
  · rw [h.paidFor_eq hr (by simp [Disposes, tokens, hcall, happ])]
    simp only [plan, hcall]
    exact amountTo_settle hinv g.2.1 g.2.2 happ hev
  · rw [h.paidFor_eq hr (by simp [Disposes, tokens, hcall, happ])]
    simp only [plan, hcall]
    exact amountTo_expire hinv g.2.1 g.2.2 happ hev

end

namespace Vectors

/-- The settlement of the run over the test vectors, with what it is about. -/
def settlement : {rec : Record Block Msg State Uint256 // rec ∈ ended.world.history ∧
    rec.entry.msg.call = .settle 1 txData r [] settle.eta settle.tAtt ∧
    (rec.entry.before.engagements 1).appId = 1 ∧
    rec.entry.before.listingOf 1 = 1 ∧
    (rec.entry.before.applications 1).deposit.toNat = 5000 ∧
    (rec.entry.before.listings 1).collateral.toNat = 7000 ∧
    (rec.entry.before.applications 1).depositor = applicant ∧
    (rec.entry.before.listings 1).owner = owner ∧
    (ended.world.store.applications 1).deposit.toNat = 5000 ∧
    undeliveredTo ended applicant = 4500} :=
  ⟨ended.world.history.get ⟨1, by decide +kernel⟩, List.get_mem _ _, by decide +kernel⟩

end Vectors

open Vectors in
/-- The applicant did not accept its part of the settlement and withdrew it later. -/
theorem deposits_leave_once_ended : paidFor ended 1 = 4500 ∧
    (ended.world.store.credit applicant).toNat + drawnBy ended applicant =
      undeliveredTo ended applicant ∧ undeliveredTo ended applicant = 4500 := by
  obtain ⟨hmem, hcall, happ, -, -, -, -, -, hdep, hlost⟩ := settlement.2
  obtain ⟨-, -, -, -, hcredit, -, hdeposits⟩ := deposits_leave_once ended_runs
  have hpaid := ((hdeposits 1).2.2.2 _ hmem).2.1 1 _ _ _ _ _ hcall happ
  refine ⟨?_, hcredit applicant, hlost⟩
  rw [hpaid, hdep]
  rfl

end Pprev
