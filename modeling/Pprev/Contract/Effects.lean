import Pprev.Contract.Abstraction

/-!
# The effects of the functions are moves of the book

One section for each function with effects: the move it makes, and from it that the invariant is
kept, that the storage evolves, and what the move changes in the obligations.
-/

namespace Pprev

open Evm Function

section

variable {keccak256 : Bytes → Bytes32} {d : Deployment keccak256} {b : Block} {m : Msg} {s : State}

variable (d b s) in
/-- The store `s'` is a proper successor of `s`: with `value` received and `out` still to be paid
the books balance. -/
structure Accounted (value out : ℕ) (s' : State) : Prop where
  inv : Inv d b.timestamp s'
  evolves : Evolves s s'
  owed : obligations s' + out = obligations s + value

theorem maxExpirations_pos (d : Deployment keccak256) : 0 < (terms d).maxExpirations := by
  have h := d.valid
  have : d.MAX_EXPIRATIONS ≠ 0 := fun h0 => h (by simp [h0])
  show 0 < d.MAX_EXPIRATIONS.toNat
  bv_omega

theorem isOpen_iff {txId : Uint256} : s.isOpen d txId = true ↔ s.book.IsOpen (terms d) txId := by
  simp [State.isOpen, Book.IsOpen, State.book, terms, BitVec.lt_def]

theorem Accounted.of_step {value out : ℕ} {s' : State} (h : Inv d b.timestamp s)
    (hs : s.book.Step (terms d) b.timestamp s'.book) (halloc : Allocated s')
    (hindex : s'.book.Indexed 0 s'.pendingApp) (hkeep : s.book.Evolves s'.book → Evolves s s')
    (howed : obligations s' + out = obligations s + value) : Accounted d b s value out s' :=
  ⟨⟨h.valid.step (maxExpirations_pos d) hs, halloc, hindex⟩, hkeep (h.valid.step_evolves hs), howed⟩

/-! ## Register -/

section Register

variable {cTx : Bytes32} {txData : TxData} {policyIdR r etaR : Bytes32} {sigmaR : Bytes}
  {tAttR : Uint64}

theorem book_addListing (h : Allocated s) (n : Uint256) :
    (s.addListing m cTx txData policyIdR r etaR n).book =
      s.book.register s.nextTxId m.sender m.value.toNat := by
  have h0 : (s.listings s.nextTxId).expirations.toNat = 0 := by rw [h.next_listing]; rfl
  ext t <;> simp only [State.book, State.addListing, Book.register, update_apply] <;>
    split_ifs <;> simp_all

theorem addListing_accounted (h : Inv d b.timestamp s)
    (g : RegisterGuard d b m s cTx txData policyIdR r sigmaR etaR tAttR) :
    Accounted d b s m.value.toNat 0 (s.addListing m cTx txData policyIdR r etaR (s.nextTxId + 1)) := by
  have ha := h.allocated
  have hbook : (s.addListing m cTx txData policyIdR r etaR (s.nextTxId + 1)).book =
      s.book.register s.nextTxId m.sender m.value.toNat := book_addListing ha _
  have hfresh := ha.next_txState
  refine .of_step h ?_ ?_ ?_ (fun hb => ?_) ?_
  · rw [hbook]
    exact .register _ _ _ hfresh
  · have hlt := g.next
    exact { ha with
      nextTxId := by show s.nextTxId + 1 ≠ 0; bv_omega
      txState := ha.txState.update_new ha.nextTxId g.next _
      listings := ha.listings.update_new ha.nextTxId g.next _ }
  · rw [hbook]
    exact h.indexed
  · have hne : ∀ t, s.txState t ≠ .none → t ≠ s.nextTxId := by
      rintro t ht rfl
      exact ht hfresh
    exact ⟨hb, fun t ht => by simp [State.addListing, hne t ht],
      fun t ht => by simp [State.addListing, hne t ht], fun _ _ => rfl, fun _ _ => rfl,
      fun c hc => by simp [State.addListing, update_apply, hc],
      fun η hη => by simp [State.addListing, update_apply, hη]⟩
  · rw [obligations_eq_owed, obligations_eq_owed, hbook, Nat.add_zero]
    exact Book.owed_register (b := s.book) hfresh m.sender m.value.toNat

end Register

/-! ## Apply -/

section Apply

variable {txId : Uint256} {txData : TxData} {r cB : Bytes32} {sigmaA : Bytes} {etaA : Bytes32}
  {tAttA : Uint64}

theorem book_addApplication (n : Uint256) : (s.addApplication m txId cB etaA n).book =
    s.book.apply s.nextAppId txId m.sender m.value.toNat := by
  ext t <;> simp only [State.book, State.addApplication, Book.apply, update_apply] <;>
    split_ifs <;> simp_all

theorem addApplication_accounted (h : Inv d b.timestamp s)
    (g : ApplyGuard d b m s txId txData r cB sigmaA etaA tAttA) :
    Accounted d b s m.value.toNat 0 (s.addApplication m txId cB etaA (s.nextAppId + 1)) := by
  have ha := h.allocated
  have hbook : (s.addApplication m txId cB etaA (s.nextAppId + 1)).book =
      s.book.apply s.nextAppId txId m.sender m.value.toNat := book_addApplication _
  have hfresh : (s.applications s.nextAppId).status = .none := by rw [ha.next_application]; rfl
  have hzero : (s.applications 0).status = .none := by rw [ha.applications 0 (.inl rfl)]; rfl
  refine .of_step h ?_ ?_ ?_ (fun hb => ?_) ?_
  · rw [hbook]
    exact .apply _ _ _ _ hfresh (isOpen_iff.mp g.isOpen) g.owner
      (h.indexed.alone g.pending hzero)
  · have hlt := g.next
    exact { ha with
      nextAppId := by show s.nextAppId + 1 ≠ 0; bv_omega
      applications := ha.applications.update_new ha.nextAppId g.next _ }
  · rw [hbook]
    exact h.indexed.apply hfresh g.pending _
  · have hne : ∀ a, (s.applications a).status ≠ .none → a ≠ s.nextAppId := by
      rintro a hs rfl
      exact hs hfresh
    exact ⟨hb, fun _ _ => rfl, fun _ _ => rfl,
      fun a hs => by simp [State.addApplication, hne a hs], fun _ _ => rfl, fun _ => id,
      fun η hη => by simp [State.addApplication, update_apply, hη]⟩
  · rw [obligations_eq_owed, obligations_eq_owed, hbook, Nat.add_zero]
    exact Book.owed_apply h.valid.linked hfresh txId m.sender m.value.toNat

end Apply

/-! ## Engage -/

section Engage

variable {txId appId : Uint256}

theorem book_addEngagement (htx : (s.applications appId).txId = txId) (x n : Uint256) :
    (s.addEngagement txId appId x n).book = s.book.engage s.nextEngId appId x.toNat := by
  subst htx
  ext t <;> simp only [State.book, State.addEngagement, Book.engage, update_apply] <;>
    split_ifs <;> simp_all

theorem addEngagement_accounted (h : Inv d b.timestamp s) (g : EngageGuard d b m s txId appId) :
    Accounted d b s 0 0 (s.addEngagement txId appId
      (BitVec.ofNat 256 (b.timestamp + d.TAU_LOCK.toNat)) (s.nextEngId + 1)) := by
  have ha := h.allocated
  obtain ⟨hstate, hmore⟩ := isOpen_iff.mp g.isOpen
  have hpending : (s.applications appId).status ≠ .none := by rw [g.pending]; decide
  have htxId : s.txState txId ≠ .none := by
    have := h.valid.linked.app_listing appId hpending
    rwa [show s.book.appTx appId = txId from g.txId_eq] at this
  have hfresh : (s.engagements s.nextEngId).status = .none := by rw [ha.next_engagement]; rfl
  have hbook := book_addEngagement g.txId_eq (BitVec.ofNat 256 (b.timestamp + d.TAU_LOCK.toNat))
    (s.nextEngId + 1)
  rw [BitVec.toNat_ofNat, Nat.mod_eq_of_lt g.window] at hbook
  refine .of_step h ?_ ?_ ?_ (fun hb => ?_) ?_
  · rw [hbook]
    refine .engage _ _ hfresh g.pending ?_
    rw [show s.book.appTx appId = txId from g.txId_eq]
    exact ⟨hstate, hmore⟩
  · have hlt := g.next
    exact { ha with
      nextEngId := by show s.nextEngId + 1 ≠ 0; bv_omega
      engagements := ha.engagements.update_new ha.nextEngId g.next _
      applications := ha.applications.update_old (ha.appId_used hpending) _
      txState := ha.txState.update_old (ha.txId_used htxId) _ }
  · have hne : appId ≠ 0 := fun h0 => ha.appId_used hpending (.inl h0)
    let booked := s.book.engage s.nextEngId appId (b.timestamp + (terms d).lock)
    have hengaged : booked.appStatus = update s.book.appStatus appId .engaged := rfl
    have hclear := h.indexed.clear g.pending hne (by decide) hengaged rfl rfl
    rw [show s.book.appTx appId = txId from g.txId_eq] at hclear
    rw [hbook]
    exact hclear
  · exact ⟨hb, fun _ _ => rfl, fun _ _ => rfl,
      fun a _ => by simp only [State.addEngagement, update_apply]; split_ifs with ha <;> simp [ha],
      fun _ _ => rfl, fun _ => id, fun _ => id⟩
  · rw [obligations_eq_owed, obligations_eq_owed, hbook, Nat.add_zero, Nat.add_zero]
    exact Book.owed_engage (b := s.book) hfresh g.pending
      (by rw [show s.book.appTx appId = txId from g.txId_eq]; exact hstate)
      (b.timestamp + d.TAU_LOCK.toNat)

end Engage

/-! ## Settle -/

/-- A part in basis points is at most the whole. -/
theorem bps_le {whole part : ℕ} (h : part ≤ 10000) : whole * part / 10000 ≤ whole :=
  Nat.div_le_of_le_mul ((Nat.mul_le_mul_left _ h).trans (Nat.mul_comm _ _).le)

section Settle

variable {engId : Uint256} {txData : TxData} {r : Bytes32} {sigmaS : Bytes} {etaS : Bytes32}
  {tAttS : Uint64}

theorem book_settled (toOwner toCounterparty : Uint256) :
    (s.settled engId etaS toOwner toCounterparty).book = s.book.settle engId := by
  ext t <;> simp only [State.book, State.settled, Book.settle, Book.listing, State.listingOf,
    update_apply] <;> split_ifs <;> simp_all

/-- In a valid store only the open engagement of a listing can be settled. -/
theorem SettleChecks.isOpen (h : Inv d b.timestamp s)
    (g : SettleChecks d b m s engId txData r sigmaS etaS tAttS) :
    (s.engagements engId).status = .open :=
  h.valid.open_of_locked (e := engId) g.known g.locked g.window

/-- The share of the owner is rounded down. -/
theorem SettleAmounts.ownerShare_toNat (a : SettleAmounts s engId txData) :
    (ownerShare (s.applications (s.engagements engId).appId).deposit
      txData.settlementShare).toNat =
      (s.applications (s.engagements engId).appId).deposit.toNat *
        txData.settlementShare.toNat / 10000 := by
  rw [ownerShare, BitVec.toNat_udiv, toNat_mul_of_lt a.product]
  rfl

theorem SettleAmounts.toCounterparty_toNat (a : SettleAmounts s engId txData) :
    (s.toCounterparty engId txData).toNat =
      (s.applications (s.engagements engId).appId).deposit.toNat -
        (s.applications (s.engagements engId).appId).deposit.toNat *
          txData.settlementShare.toNat / 10000 := by
  rw [State.toCounterparty, toNat_sub_of_le a.share_le, a.ownerShare_toNat]

/-- The two payouts are the deposit and the collateral. -/
theorem SettleAmounts.sum (a : SettleAmounts s engId txData) :
    (s.toOwner engId txData).toNat + (s.toCounterparty engId txData).toNat =
      (s.applications (s.engagements engId).appId).deposit.toNat +
        (s.listings (s.listingOf engId)).collateral.toNat := by
  rw [State.toOwner, State.toCounterparty, toNat_add_of_lt a.toOwner, toNat_sub_of_le a.share_le]
  have := a.share_le
  omega

theorem settled_accounted (h : Inv d b.timestamp s)
    (g : SettleChecks d b m s engId txData r sigmaS etaS tAttS) (a : SettleAmounts s engId txData) :
    Accounted d b s 0 ((s.toOwner engId txData).toNat + (s.toCounterparty engId txData).toNat)
      (s.settled engId etaS (s.toOwner engId txData) (s.toCounterparty engId txData)) := by
  have ha := h.allocated
  have hbook : (s.settled engId etaS (s.toOwner engId txData)
      (s.toCounterparty engId txData)).book = s.book.settle engId := book_settled _ _
  have htx : s.txState (s.listingOf engId) ≠ .none := by rw [g.locked]; decide
  refine .of_step h ?_ ?_ ?_ (fun hb => ?_) ?_
  · rw [hbook]
    exact .settle _ g.known g.locked g.window
  · exact { ha with
      engagements := ha.engagements.update_old (ha.engId_used g.known) _
      txState := ha.txState.update_old (ha.txId_used htx) _
      listings := ha.listings.update_old (ha.txId_used htx) _ }
  · rw [hbook]
    exact h.indexed
  · exact ⟨hb,
      fun t _ => by simp only [State.settled, update_apply]; split_ifs with ht <;> simp [ht],
      fun t _ => by simp only [State.settled, update_apply]; split_ifs with ht <;> simp [ht],
      fun _ _ => rfl, fun _ _ => rfl, fun _ => id,
      fun η hη => by simp [State.settled, update_apply, hη]⟩
  · rw [obligations_eq_owed, obligations_eq_owed, hbook, Nat.add_zero]
    have howed := Book.owed_settle (b := s.book) (g.isOpen h) g.locked
    rw [a.sum]
    exact howed

end Settle

/-! ## Expire -/

section Expire

variable {engId : Uint256}

theorem book_expired (sv compensation : Uint256) (exhausted : Bool)
    (hexp : (s.listings (s.listingOf engId)).expirations.toNat + 1 < 2 ^ 256) :
    (s.expired engId sv compensation ((s.listings (s.listingOf engId)).expirations + 1)
      exhausted).book =
      s.book.expire engId (if exhausted then .cancelled else .expired)
        (if exhausted then 0 else sv.toNat) := by
  have hnext := toNat_add_of_lt (a := (s.listings (s.listingOf engId)).expirations) (b := 1) hexp
  ext t <;> simp only [State.book, State.expired, Book.expire, Book.listing, State.listingOf,
    update_apply] at hnext ⊢ <;> split_ifs <;> simp_all

/-- What an expiration leaves of the collateral. -/
theorem ExpireAmounts.surviving_toNat (a : ExpireAmounts d s engId) :
    (surviving d (s.listings (s.listingOf engId)).collateral).toNat =
      (terms d).surviving (s.book.collateral (s.book.listing engId)) := by
  rw [surviving, BitVec.toNat_udiv, toNat_mul_of_lt a.product]
  rfl

theorem ExpireAmounts.compensation_toNat (a : ExpireAmounts d s engId) :
    (s.compensation d engId).toNat +
        (surviving d (s.listings (s.listingOf engId)).collateral).toNat =
      (s.listings (s.listingOf engId)).collateral.toNat := by
  rw [State.compensation, toNat_sub_of_le a.surviving_le]
  have := a.surviving_le
  omega

theorem ExpireAmounts.exhausted_iff (a : ExpireAmounts d s engId) :
    s.exhausted d engId = true ↔
      s.book.expirations (s.book.listing engId) + 1 = (terms d).maxExpirations := by
  have hnext := toNat_add_of_lt (a := (s.listings (s.listingOf engId)).expirations) (b := 1)
    a.expirations
  rw [State.exhausted, decide_eq_true_eq, ← BitVec.toNat_inj, hnext]
  rfl

variable (d s engId) in
/-- What `expire` pays in all. -/
def State.expirePayouts : ℕ :=
  ((s.applications (s.engagements engId).appId).deposit + s.compensation d engId).toNat +
    if s.exhausted d engId then (surviving d (s.listings (s.listingOf engId)).collateral).toNat
    else 0

theorem afterExpire_step (g : ExpireChecks b s engId) (a : ExpireAmounts d s engId) :
    s.book.Step (terms d) b.timestamp (s.afterExpire d engId).book := by
  rw [State.afterExpire, book_expired _ _ _ a.expirations]
  cases hx : s.exhausted d engId with
  | true => exact .exhaust _ g.isOpen g.locked g.window (a.exhausted_iff.mp hx)
  | false =>
    have hmore := mt a.exhausted_iff.mpr (by simp [hx])
    have hstep := Book.Step.expire (p := terms d) engId g.isOpen g.locked g.window hmore
    rw [← a.surviving_toNat] at hstep
    exact hstep

theorem afterExpire_owed (g : ExpireChecks b s engId) (a : ExpireAmounts d s engId) :
    obligations (s.afterExpire d engId) + s.expirePayouts d engId = obligations s := by
  have hcomp := a.compensation_toNat
  have hexhaust := Book.owed_exhaust (b := s.book) g.isOpen g.locked
  have hexpire := Book.owed_expire (b := s.book) g.isOpen g.locked
    (surviving d (s.listings (s.listingOf engId)).collateral).toNat
  rw [show s.book.deposit (s.book.engApp engId) +
    s.book.collateral (s.book.listing engId) =
      (s.applications (s.engagements engId).appId).deposit.toNat +
        (s.listings (s.listingOf engId)).collateral.toNat from rfl] at hexhaust hexpire
  rw [State.expirePayouts, obligations_eq_owed, obligations_eq_owed, State.afterExpire,
    book_expired _ _ _ a.expirations, toNat_add_of_lt a.toDepositor]
  cases s.exhausted d engId with
  | true =>
    simp only [if_true]
    omega
  | false =>
    simp only [Bool.false_eq_true, if_false]
    omega

theorem afterExpire_accounted (h : Inv d b.timestamp s) (g : ExpireChecks b s engId)
    (a : ExpireAmounts d s engId) :
    Accounted d b s 0 (s.expirePayouts d engId) (s.afterExpire d engId) := by
  have ha := h.allocated
  have hknown : (s.engagements engId).status ≠ .none := by rw [g.isOpen]; decide
  have htx : s.txState (s.listingOf engId) ≠ .none := by rw [g.locked]; decide
  refine .of_step h (afterExpire_step g a) ?_ ?_ (fun hb => ?_) ?_
  · exact { ha with
      engagements := ha.engagements.update_old (ha.engId_used hknown) _
      txState := ha.txState.update_old (ha.txId_used htx) _
      listings := ha.listings.update_old (ha.txId_used htx) _ }
  · rw [State.afterExpire, book_expired _ _ _ a.expirations]
    exact h.indexed
  · exact ⟨hb,
      fun t _ => by
        simp only [State.afterExpire, State.expired, update_apply]; split_ifs with ht <;> simp [ht],
      fun t _ => by
        simp only [State.afterExpire, State.expired, update_apply]; split_ifs with ht <;> simp [ht],
      fun _ _ => rfl, fun _ _ => rfl, fun _ => id, fun _ => id⟩
  · rw [Nat.add_zero]
    exact afterExpire_owed g a

end Expire

/-! ## Reclaim -/

section Reclaim

variable {appId : Uint256}

theorem book_reclaimed : (s.reclaimed m appId).book = s.book.reclaim appId := by
  ext t <;> simp only [State.book, State.reclaimed, Book.reclaim, update_apply] <;>
    split_ifs <;> simp_all

theorem reclaimed_accounted (h : Inv d b.timestamp s) (g : ReclaimGuard m s appId) :
    Accounted d b s 0 (s.applications appId).deposit.toNat (s.reclaimed m appId) := by
  have ha := h.allocated
  have hpending : (s.applications appId).status ≠ .none := by rw [g.pending]; decide
  have hne : appId ≠ 0 := fun h0 => ha.appId_used hpending (.inl h0)
  refine .of_step h ?_ ?_ ?_ (fun hb => ?_) ?_
  · rw [book_reclaimed]
    exact .reclaim _ g.pending
  · exact { ha with applications := ha.applications.update_old (ha.appId_used hpending) _ }
  · have hreclaimed : (s.book.reclaim appId).appStatus =
      update s.book.appStatus appId .reclaimed := rfl
    have hclear := h.indexed.clear g.pending hne (by decide) hreclaimed rfl rfl
    rw [show s.book.depositor appId = m.sender from g.depositor.symm] at hclear
    rw [book_reclaimed]
    exact hclear
  · exact ⟨hb, fun _ _ => rfl, fun _ _ => rfl,
      fun a _ => by simp only [State.reclaimed, update_apply]; split_ifs with ha <;> simp [ha],
      fun _ _ => rfl, fun _ => id, fun _ => id⟩
  · rw [obligations_eq_owed, obligations_eq_owed, book_reclaimed, Nat.add_zero]
    exact Book.owed_reclaim (b := s.book) g.pending

end Reclaim

/-! ## Cancel -/

section Cancel

variable {txId : Uint256}

theorem book_cancelled : (s.cancelled txId).book = s.book.cancel txId := by
  ext t <;> simp only [State.book, State.cancelled, Book.cancel, update_apply] <;>
    split_ifs <;> simp_all

theorem cancelled_accounted (h : Inv d b.timestamp s) (g : CancelGuard m s txId) :
    Accounted d b s 0 (s.listings txId).collateral.toNat (s.cancelled txId) := by
  have ha := h.allocated
  have htx : s.txState txId ≠ .none := by rcases g.state with hs | hs <;> rw [hs] <;> decide
  refine .of_step h ?_ ?_ ?_ (fun hb => ?_) ?_
  · rw [book_cancelled]
    exact .cancel _ g.state
  · exact { ha with
      txState := ha.txState.update_old (ha.txId_used htx) _
      listings := ha.listings.update_old (ha.txId_used htx) _ }
  · rw [book_cancelled]
    exact h.indexed
  · exact ⟨hb,
      fun t _ => by simp only [State.cancelled, update_apply]; split_ifs with ht <;> simp [ht],
      fun t _ => by simp only [State.cancelled, update_apply]; split_ifs with ht <;> simp [ht],
      fun _ _ => rfl, fun _ _ => rfl, fun _ => id, fun _ => id⟩
  · rw [obligations_eq_owed, obligations_eq_owed, book_cancelled, Nat.add_zero]
    exact Book.owed_cancel (b := s.book) g.state

end Cancel

/-! ## Credits -/

section Credits

theorem book_credited {dst : Address} {amount : Uint256}
    (hlt : (s.credit dst).toNat + amount.toNat < 2 ^ 256) :
    (s.credited dst amount (s.credit dst + amount)).book = s.book.addCredit dst amount.toNat := by
  have hadd := toNat_add_of_lt hlt
  ext t <;> simp only [State.book, State.credited, Book.addCredit, update_apply]
  split_ifs <;> simp_all

theorem credited_accounted (h : Inv d b.timestamp s) {dst : Address} {amount : Uint256}
    (hlt : (s.credit dst).toNat + amount.toNat < 2 ^ 256) :
    Accounted d b s amount.toNat 0 (s.credited dst amount (s.credit dst + amount)) := by
  have ha := h.allocated
  refine .of_step h ?_ { ha with } ?_ (fun hb => ?_) ?_
  · rw [book_credited hlt]
    exact .addCredit _ _
  · rw [book_credited hlt]
    exact h.indexed
  · exact ⟨hb, fun _ _ => rfl, fun _ _ => rfl, fun _ _ => rfl, fun _ _ => rfl, fun _ => id,
      fun _ => id⟩
  · rw [obligations_eq_owed, obligations_eq_owed, book_credited hlt, Nat.add_zero]
    exact Book.owed_addCredit dst amount.toNat

theorem book_withdrawn : (s.withdrawn m).book = s.book.withdraw m.sender := by
  ext t <;> simp only [State.book, State.withdrawn, Book.withdraw, update_apply]
  split_ifs <;> simp_all

theorem withdrawn_accounted (h : Inv d b.timestamp s) :
    Accounted d b s 0 (s.credit m.sender).toNat (s.withdrawn m) := by
  have ha := h.allocated
  refine .of_step h ?_ { ha with } ?_ (fun hb => ?_) ?_
  · rw [book_withdrawn]
    exact .withdraw _
  · rw [book_withdrawn]
    exact h.indexed
  · exact ⟨hb, fun _ _ => rfl, fun _ _ => rfl, fun _ _ => rfl, fun _ _ => rfl, fun _ => id,
      fun _ => id⟩
  · rw [obligations_eq_owed, obligations_eq_owed, book_withdrawn, Nat.add_zero]
    exact Book.owed_withdraw (b := s.book) m.sender

end Credits

/-! ## Administrative operations -/

/-- An effect that leaves the book alone. -/
theorem Accounted.of_book_eq {s' : State} (h : Inv d b.timestamp s) (hbook : s'.book = s.book)
    (halloc : Allocated s') (hindex : s'.pendingApp = s.pendingApp)
    (hkeep : s.book.Evolves s'.book → Evolves s s') : Accounted d b s 0 0 s' := by
  refine ⟨⟨?_, halloc, ?_⟩, hkeep ?_, ?_⟩
  · rw [hbook]
    exact h.valid
  · rw [hbook, hindex]
    exact h.indexed
  · rw [hbook]
    exact .refl _
  · rw [obligations_eq_owed, obligations_eq_owed, hbook]

theorem addPolicy_accounted {policyIdR policyIdA policyIdS : Bytes32}
    {reqEscrow minCollateral maxCollateral : Uint256} (h : Inv d b.timestamp s)
    (g : PolicyGuard d m s policyIdR policyIdA policyIdS minCollateral maxCollateral) :
    Accounted d b s 0 0
      (s.addPolicy policyIdR policyIdA policyIdS reqEscrow minCollateral maxCollateral) := by
  refine .of_book_eq h rfl { h.allocated with } rfl fun hb => ?_
  refine ⟨hb, fun _ _ => rfl, fun _ _ => rfl, fun _ _ => rfl, fun p hp => ?_, fun _ => id,
    fun _ => id⟩
  have hne : p ≠ policyIdR := by
    rintro rfl
    rw [g.fresh] at hp
    cases hp
  exact update_of_ne hne _ _

theorem withVerifier_accounted (h : Inv d b.timestamp s) (verifier : Address) :
    Accounted d b s 0 0 (s.withVerifier verifier) :=
  .of_book_eq h rfl { h.allocated with } rfl fun hb =>
    ⟨hb, fun _ _ => rfl, fun _ _ => rfl, fun _ _ => rfl, fun _ _ => rfl, fun _ => id, fun _ => id⟩

end

end Pprev
