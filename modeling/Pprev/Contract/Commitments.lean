import Pprev.Contract.Deposits
import Mathlib.Data.Set.Function

/-!
# Terms are fixed by commitments

What an accepted call wrote about a listing, an application or an engagement stays. A listing keeps
its commitment, so whoever applies for it or settles it opens the commitment to the parameters it
was registered with, and the bound on the settlement share that only `register` checks holds in
every settlement.
-/

namespace Pprev

open Evm Function Tx

/-- What a call hashes as a commitment. -/
def committed (e : Entry Block Msg State) : Option Bytes :=
  match e.msg.call with
  | .register _ txData policyIdR r _ _ _ => some (commitmentInput txData policyIdR r)
  | .applyFor txId txData r _ _ _ _ =>
      some (commitmentInput txData (e.before.listings txId).policyIdR r)
  | .settle engId txData r _ _ _ =>
      some (commitmentInput txData (e.before.listings (e.before.listingOf engId)).policyIdR r)
  | _ => none

/-- The commitments of some calls do not collide. -/
def CollisionFree (keccak256 : Bytes → Bytes32) (es : List (Entry Block Msg State)) : Prop :=
  Set.InjOn keccak256 {x | ∃ e ∈ es, committed e = some x}

/-- The call creates the listing with these parameters. -/
def Registers (e : Entry Block Msg State) (txId : Uint256) (txData : TxData) (r : Bytes32) : Prop :=
  e.before.nextTxId = txId ∧ ∃ cTx policyIdR sigmaR etaR tAttR,
    e.msg.call = .register cTx txData policyIdR r sigmaR etaR tAttR

/-- The listing was registered with these parameters and no others. -/
def RegisteredWith (c : Config Block Msg State Err Uint256) (txId : Uint256) (txData : TxData)
    (r : Bytes32) : Prop :=
  (∃ e ∈ Accepted c, Registers e txId txData r) ∧
  ∀ e ∈ Accepted c, ∀ txData' r', Registers e txId txData' r' → txData' = txData ∧ r' = r

/-- The store still says what the call wrote about the record it created, and a listing's policy
bundle is the one it was registered under. -/
def Kept {keccak256 : Bytes → Bytes32} (d : Deployment keccak256) (e : Entry Block Msg State)
    (s : State) : Prop :=
  match e.msg.call with
  | .register cTx _ policyIdR _ _ _ _ =>
      (s.listings e.before.nextTxId).cTx = cTx ∧
      (s.listings e.before.nextTxId).policyIdR = policyIdR ∧
      (s.listings e.before.nextTxId).owner = e.msg.sender ∧
      s.policyRegistry policyIdR = e.before.policyRegistry policyIdR
  | .applyFor txId _ _ cB _ _ _ =>
      (s.applications e.before.nextAppId).txId = txId ∧
      (s.applications e.before.nextAppId).depositor = e.msg.sender ∧
      (s.applications e.before.nextAppId).deposit = e.msg.value ∧
      (s.applications e.before.nextAppId).cB = cB
  | .engage _ appId =>
      (s.engagements e.before.nextEngId).appId = appId ∧
      (s.engagements e.before.nextEngId).expiresAt.toNat = e.block.timestamp + d.TAU_LOCK.toNat
  | _ => True

section

variable {keccak256 : Bytes → Bytes32} {d : Deployment keccak256} {supply : ℕ}
  {c : Config Block Msg State Err Uint256} {e : Entry Block Msg State}

/-- Nothing that an accepted call wrote about its record changes. -/
theorem Runs.kept (h : Runs d supply c) (he : e ∈ Accepted c) : Kept d e c.world.store := by
  obtain ⟨hinv, g, hev⟩ := h.stands he
  unfold Kept
  simp only [Guard, effect] at g hev
  cases hc : e.msg.call with
  | register cTx txData policyIdR r sigmaR etaR tAttR =>
    simp only [hc] at g hev
    have hne : (e.before.addListing e.msg cTx txData policyIdR r etaR
        (e.before.nextTxId + 1)).txState e.before.nextTxId ≠ .none := by simp [State.addListing]
    have howner := hev.book.owner e.before.nextTxId hne
    refine ⟨(hev.cTx _ hne).trans ?_, (hev.policyIdR _ hne).trans ?_, howner.trans ?_,
      hev.policy _ g.policy⟩
    · simp [State.addListing]
    · simp [State.addListing]
    · simp [State.addListing, State.book]
  | applyFor txId txData r cB sigmaA etaA tAttA =>
    simp only [hc] at g hev
    have hne : ((e.before.addApplication e.msg txId cB etaA
        (e.before.nextAppId + 1)).applications e.before.nextAppId).status ≠ .none := by
      simp [State.addApplication]
    have htx := hev.book.appTx e.before.nextAppId hne
    have hdepositor := hev.book.depositor e.before.nextAppId hne
    have hdeposit := hev.book.deposit e.before.nextAppId hne
    refine ⟨htx.trans ?_, hdepositor.trans ?_, BitVec.eq_of_toNat_eq (hdeposit.trans ?_),
      (hev.cB _ hne).trans ?_⟩
    · simp [State.addApplication, State.book]
    · simp [State.addApplication, State.book]
    · simp [State.addApplication, State.book]
    · simp [State.addApplication]
  | engage txId appId =>
    simp only [hc] at g hev
    have hne : ((e.before.addEngagement txId appId
        (BitVec.ofNat 256 (e.block.timestamp + d.TAU_LOCK.toNat))
        (e.before.nextEngId + 1)).engagements e.before.nextEngId).status ≠ .none := by
      simp [State.addEngagement]
    have happ := hev.book.engApp e.before.nextEngId hne
    have hexp := hev.book.expiresAt e.before.nextEngId hne
    refine ⟨happ.trans ?_, hexp.trans ?_⟩
    · simp [State.addEngagement, State.book]
    · have hlt := g.2.window
      simp only [State.addEngagement, State.book, update_self, BitVec.toNat_ofNat]
      exact Nat.mod_eq_of_lt hlt
  | _ => trivial

/-- A listing that exists was registered by an accepted call. -/
theorem Runs.registers (h : Runs d supply c) {txId : Uint256}
    (ht : c.world.store.txState txId ≠ .none) :
    ∃ e ∈ Accepted c, ∃ txData r, Registers e txId txData r := by
  obtain ⟨e, he, htok⟩ := (h.taken_iff (.item (.listing txId))).mp ht
  refine ⟨e, he, ?_⟩
  unfold tokens at htok
  cases hc : e.msg.call with
  | register cTx txData policyIdR r sigmaR etaR tAttR =>
    simp only [hc, List.mem_cons, reduceCtorEq, Token.item.injEq, Item.listing.injEq, List.not_mem_nil,
      or_false, false_or] at htok
    exact ⟨txData, r, htok.symm, cTx, policyIdR, sigmaR, etaR, tAttR, hc⟩
  | _ => simp [hc] at htok

/-- Whoever opens the commitment of a listing names the parameters it was registered with. -/
theorem Runs.registeredWith (h : Runs d supply c) {s : State} (hs : Evolves s c.world.store)
    {txId : Uint256} (ht : s.txState txId ≠ .none) {txData : TxData} {r : Bytes32}
    (hopen : commitment keccak256 txData (s.listings txId).policyIdR r = (s.listings txId).cTx)
    {S : Set Bytes} (hinj : Set.InjOn keccak256 S)
    (hmem : commitmentInput txData (s.listings txId).policyIdR r ∈ S)
    (hall : ∀ e ∈ Accepted c, ∀ x, committed e = some x → x ∈ S) :
    RegisteredWith c txId txData r ∧ txData.settlementShare ≤ BPS := by
  have key : ∀ e ∈ Accepted c, ∀ txData' r', Registers e txId txData' r' →
      (txData' = txData ∧ r' = r) ∧ txData'.settlementShare ≤ BPS := by
    rintro e he txData' r' ⟨rfl, cTx, policyIdR, sigmaR, etaR, tAttR, hc⟩
    obtain ⟨-, g, -⟩ := h.stands he
    have hkept := h.kept he
    simp only [Guard, Kept, hc] at g hkept
    have hcTx : (s.listings e.before.nextTxId).cTx = cTx := (hs.cTx _ ht).symm.trans hkept.1
    have heq : keccak256 (commitmentInput txData' policyIdR r') =
        keccak256 (commitmentInput txData (s.listings e.before.nextTxId).policyIdR r) :=
      (g.commitment.trans hcTx.symm).trans hopen.symm
    obtain ⟨h₁, -, h₂⟩ := commitmentInput_inj
      (hinj (hall e he _ (by simp [committed, hc])) hmem heq)
    exact ⟨⟨h₁, h₂⟩, g.share⟩
  have hnow : c.world.store.txState txId ≠ .none :=
    TxState.ne_none_of_path (hs.book.txState txId) ht
  obtain ⟨e, he, txData', r', hreg⟩ := h.registers hnow
  obtain ⟨⟨rfl, rfl⟩, hshare⟩ := key e he txData' r' hreg
  exact ⟨⟨⟨e, he, hreg⟩, fun e' he' txData' r' hreg' => (key e' he' txData' r' hreg').1⟩, hshare⟩

/-! ## The split of a settlement -/

/-- What a settlement pays everyone, and in all: the owner of the listing its share of the deposit,
rounded down, and the remaining collateral, the depositor the rest of its deposit. -/
structure Split (a : Application) (l : Listing) (settlementShare : Uint256) (paid : Address → ℕ)
    (total : ℕ) : Prop where
  ownerShare : (ownerShare a.deposit settlementShare).toNat =
    a.deposit.toNat * settlementShare.toNat / 10000
  share_le : a.deposit.toNat * settlementShare.toNat / 10000 ≤ a.deposit.toNat
  parties : a.depositor ≠ l.owner
  toOwner : paid l.owner =
    a.deposit.toNat * settlementShare.toNat / 10000 + l.collateral.toNat
  toDepositor : paid a.depositor =
    a.deposit.toNat - a.deposit.toNat * settlementShare.toNat / 10000
  total : total = a.deposit.toNat + l.collateral.toNat

/-- The plan of a settlement whose conditions hold is the split. -/
theorem plan_split {b : Block} {m : Msg} {s : State} {engId : Uint256} {txData : TxData}
    {r : Bytes32} {sigmaS : Bytes} {etaS : Bytes32} {tAttS : Uint64}
    (hcall : m.call = .settle engId txData r sigmaS etaS tAttS) (h : Inv d b.timestamp s)
    (g : SettleChecks d b m s engId txData r sigmaS etaS tAttS) (a : SettleAmounts s engId txData) :
    Split (s.applications (s.engagements engId).appId) (s.listings (s.listingOf engId))
      txData.settlementShare (amountTo · (plan d m s)) (Prog.total (plan d m s)) := by
  have hne := depositor_ne_owner h g.known
  have hle := a.share_le
  rw [a.ownerShare_toNat] at hle
  simp only [plan, hcall]
  refine ⟨a.ownerShare_toNat, hle, hne, ?_, ?_, ?_⟩
  · rw [amountTo_append, amountTo_transfer_self, amountTo_transfer_of_ne hne, Nat.add_zero,
      State.toOwner, toNat_add_of_lt a.toOwner, a.ownerShare_toNat]
  · rw [amountTo_append, amountTo_transfer_of_ne hne.symm, Nat.zero_add, amountTo_transfer_self,
      a.toCounterparty_toNat]
  · rw [Prog.total_append, total_transfer, total_transfer, a.sum]

/-- With little ether in the world the amounts of a settlement can be computed. -/
theorem settleAmounts_of_share {b : Block} {m : Msg} {s : State} {engId : Uint256}
    {txData : TxData} {r : Bytes32} {sigmaS : Bytes} {etaS : Bytes32} {tAttS : Uint64}
    (h : Inv d b.timestamp s) (g : SettleChecks d b m s engId txData r sigmaS etaS tAttS)
    (hshare : txData.settlementShare ≤ BPS) (hlt : obligations s < 2 ^ 128) :
    SettleAmounts s engId txData := by
  have howed := Book.owed_settle (b := s.book) (g.isOpen h) g.locked
  rw [← obligations_eq_owed] at howed
  have hsum : (s.applications (s.engagements engId).appId).deposit.toNat +
      (s.listings (s.listingOf engId)).collateral.toNat < 2 ^ 128 :=
    ((Nat.le_add_left _ _).trans howed.le).trans_lt hlt
  have hdep : (s.applications (s.engagements engId).appId).deposit.toNat < 2 ^ 128 := by omega
  have hbps : txData.settlementShare.toNat ≤ 10000 := hshare
  have hproduct : (s.applications (s.engagements engId).appId).deposit.toNat *
      txData.settlementShare.toNat < 2 ^ 256 :=
    calc _ ≤ 2 ^ 128 * 10000 := Nat.mul_le_mul hdep.le hbps
      _ < 2 ^ 256 := by decide
  have hfloor : (ownerShare (s.applications (s.engagements engId).appId).deposit
      txData.settlementShare).toNat ≤
      (s.applications (s.engagements engId).appId).deposit.toNat := by
    rw [ownerShare, BitVec.toNat_udiv, toNat_mul_of_lt hproduct]
    exact bps_le hbps
  exact ⟨hproduct, by omega, hfloor⟩

/-- **Terms.** The records keep what the calls that created them wrote; an accepted application or
settlement carries the parameters its listing was registered with, and a settlement splits the
deposit and the remaining collateral as these say, in what it has to pay and in what it has paid or
credited when it ends. Of any further settlement call that passes the checks the same holds, and
none fails for an overflow while less than `2 ^ 128` ether is in the world. -/
theorem terms_fixed (h : Runs d supply c) (hk : CollisionFree keccak256 (Accepted c)) :
    (∀ e ∈ Accepted c, Kept d e c.world.store) ∧
    (∀ e ∈ Accepted c, ∀ txId txData r cB sigmaA etaA tAttA,
      e.msg.call = .applyFor txId txData r cB sigmaA etaA tAttA → RegisteredWith c txId txData r) ∧
    (∀ e ∈ Accepted c, ∀ engId txData r sigmaS etaS tAttS,
      e.msg.call = .settle engId txData r sigmaS etaS tAttS →
      RegisteredWith c (e.before.listingOf engId) txData r ∧
      txData.settlementShare.toNat ≤ 10000 ∧
      Split (e.before.applications (e.before.engagements engId).appId)
        (e.before.listings (e.before.listingOf engId)) txData.settlementShare
        (amountTo · ((code d).plan e)) (Prog.total ((code d).plan e))) ∧
    (∀ rec ∈ c.world.history, ∀ engId txData r sigmaS etaS tAttS,
      rec.entry.msg.call = .settle engId txData r sigmaS etaS tAttS →
      Split (rec.entry.before.applications (rec.entry.before.engagements engId).appId)
        (rec.entry.before.listings (rec.entry.before.listingOf engId)) txData.settlementShare
        (fun w => receivedIn w rec.paid + undelivered w rec.paid)
        (Prog.total (rec.paid.map Payment.pair))) ∧
    (∀ w, (c.world.store.credit w).toNat + drawnBy c w = undeliveredTo c w) ∧
    ∀ m engId txData r sigmaS etaS tAttS, m.call = .settle engId txData r sigmaS etaS tAttS →
      CollisionFree keccak256 (⟨c.block, m, c.world.store⟩ :: Accepted c) →
      SettleChecks d c.block m c.world.store engId txData r sigmaS etaS tAttS →
      let s := c.world.store
      let deposit := (s.applications (s.engagements engId).appId).deposit.toNat
      RegisteredWith c (s.listingOf engId) txData r ∧
      txData.settlementShare.toNat ≤ 10000 ∧
      deposit * txData.settlementShare.toNat / 10000 ≤ deposit ∧
      (supply < 2 ^ 128 → deposit * txData.settlementShare.toNat < 2 ^ 256 ∧
        (m.value = 0 → (run d c.block m s).Live ∧
          Split (s.applications (s.engagements engId).appId) (s.listings (s.listingOf engId))
            txData.settlementShare (amountTo · (run d c.block m s).payouts)
            (Prog.total (run d c.block m s).payouts))) := by
  have hsettle : ∀ e ∈ Accepted c, ∀ engId txData r sigmaS etaS tAttS,
      e.msg.call = .settle engId txData r sigmaS etaS tAttS →
      Split (e.before.applications (e.before.engagements engId).appId)
        (e.before.listings (e.before.listingOf engId)) txData.settlementShare
        (amountTo · (plan d e.msg e.before)) (Prog.total (plan d e.msg e.before)) := by
    intro e he engId txData r sigmaS etaS tAttS hc
    obtain ⟨hinv, g, -⟩ := h.stands he
    simp only [Guard, hc] at g
    exact plan_split hc hinv g.2.1 g.2.2
  refine ⟨fun e he => h.kept he, fun e he txId txData r cB sigmaA etaA tAttA hc => ?_,
    fun e he engId txData r sigmaS etaS tAttS hc => ?_,
    fun rec hr engId txData r sigmaS etaS tAttS hc => ?_, h.credit_eq,
    fun m engId txData r sigmaS etaS tAttS hc hk' g => ?_⟩
  · obtain ⟨-, g, -⟩ := h.stands he
    simp only [Guard, hc] at g
    have ht : e.before.txState txId ≠ .none := by
      rcases (isOpen_iff.mp g.isOpen).1 with ht | ht <;>
        rw [show e.before.txState txId = _ from ht] <;> decide
    exact (h.registeredWith (h.evolves_before he) ht g.commitment hk
      ⟨e, he, by simp [committed, hc]⟩ fun e' he' x hx => ⟨e', he', hx⟩).1
  · obtain ⟨-, g, -⟩ := h.stands he
    simp only [Guard, hc] at g
    have ht : e.before.txState (e.before.listingOf engId) ≠ .none := by
      rw [g.2.1.locked]
      decide
    obtain ⟨hreg, hshare⟩ := h.registeredWith (h.evolves_before he) ht g.2.1.commitment hk
      ⟨e, he, by simp [committed, hc]⟩ fun e' he' x hx => ⟨e', he', hx⟩
    rw [h.plan_eq he]
    exact ⟨hreg, hshare, hsettle e he _ _ _ _ _ _ hc⟩
  · have hpaid : (fun w => receivedIn w rec.paid + undelivered w rec.paid) =
        (amountTo · (plan d rec.entry.msg rec.entry.before)) := by
      rw [← h.paid_eq hr]
      exact funext fun w => paidIn_eq w rec.paid
    rw [hpaid, h.paid_eq hr]
    exact hsettle rec.entry (List.mem_append_left _ (List.mem_map_of_mem hr)) _ _ _ _ _ _ hc
  · have ht : c.world.store.txState (c.world.store.listingOf engId) ≠ .none := by
      rw [g.locked]
      decide
    obtain ⟨hreg, hshare⟩ := h.registeredWith (.refl _) ht g.commitment hk'
      ⟨_, List.mem_cons_self, by simp [committed, hc]⟩
      fun e' he' x hx => ⟨e', List.mem_cons_of_mem _ he', hx⟩
    refine ⟨hreg, hshare, bps_le hshare, fun hlt => ?_⟩
    have a := settleAmounts_of_share h.inv g hshare (h.obligations_le.trans_lt hlt)
    refine ⟨a.product, fun hv => ?_⟩
    have hguard : Guard d c.block m c.world.store := by
      simp only [Guard, hc]
      exact ⟨hv, g, a⟩
    rw [(run_behaves h.inv hguard).payouts]
    exact ⟨run_live hguard, plan_split hc h.inv g a⟩

end

open Vectors in
/-- The owner got a tenth of the deposit of 5000 and its collateral, the applicant the rest. -/
theorem terms_fixed_ended : RegisteredWith ended 1 txData r ∧
    receivedIn owner settlement.1.paid + undelivered owner settlement.1.paid = 7500 ∧
    receivedIn applicant settlement.1.paid + undelivered applicant settlement.1.paid = 4500 := by
  have hcommitted : (Accepted ended).map committed =
      [none, some (commitmentInput txData policyIdR r), none,
        some (commitmentInput txData policyIdR r), some (commitmentInput txData policyIdR r),
        none] := by decide +kernel
  have hall : ∀ e ∈ Accepted ended, ∀ x, committed e = some x →
      x = commitmentInput txData policyIdR r := by
    intro e he x hx
    have := List.mem_map_of_mem (f := committed) he
    rw [hcommitted, hx] at this
    simpa using this
  have hk : CollisionFree keccak (Accepted ended) := by
    rintro x ⟨e, he, hx⟩ y ⟨e', he', hy⟩ -
    rw [hall e he x hx, hall e' he' y hy]
  obtain ⟨hmem, hcall, happ, hlisting, hdep, hcol, hparty, hparty', -, -⟩ := settlement.2
  obtain ⟨-, -, hsettle, hrecords, -, -⟩ := terms_fixed ended_runs hk
  have hreg := (hsettle settlement.1.entry
    (List.mem_append_left _ (List.mem_map_of_mem hmem)) _ _ _ _ _ _ hcall).1
  have hsplit := hrecords _ hmem _ _ _ _ _ _ hcall
  rw [hlisting] at hreg
  rw [happ, hlisting] at hsplit
  have howner := hsplit.toOwner
  have hdepositor := hsplit.toDepositor
  rw [hparty', hdep, hcol] at howner
  rw [hparty, hdep] at hdepositor
  exact ⟨hreg, howner, hdepositor⟩

end Pprev
