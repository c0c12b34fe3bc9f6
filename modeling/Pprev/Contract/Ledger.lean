import Pprev.Contract.Accepted
import Pprev.Evm.Credit

/-!
# What everyone was paid, and on account of what

The transfers of the accepted calls, each with the answer of its recipient. What a recipient did not
accept is its credit, less what it withdrew (`Runs.credit_eq`); and everything that an account was
sent or still has in credit was paid to it as the depositor of some application or as the owner of
some listing (`Runs.attributed`).
-/

namespace Pprev

open Evm Function Tx

/-- The ether among some transfers that is for `w`. -/
def amountTo (w : Address) (l : List (Address × Uint256)) : ℕ :=
  ((l.filter fun p => p.1 = w).map fun p => p.2.toNat).sum

/-- The ether among some transfers that `w` accepted. -/
def receivedIn (w : Address) (paid : List Payment) : ℕ :=
  ((paid.filter fun p => p.dst = w ∧ p.delivered = true).map fun p => p.amount.toNat).sum

/-- The ether among some transfers that `w` accepted or was to be credited with. -/
def paidIn (w : Address) (paid : List Payment) : ℕ := receivedIn w paid + undelivered w paid

/-- The accepted calls with the transfers they made so far: of a call that ended all, of a call that
waits those before and the one its recipient, now in control, just received. -/
def ledger (c : Config Block Msg State Err Uint256) :
    List (Entry Block Msg State × List Payment) :=
  c.world.history.map (fun r => (r.entry, r.paid)) ++
    c.stack.map fun f => (f.entry, f.paid ++ [⟨f.dst, f.amount, true⟩])

/-- What a call takes from the credit of `w`. -/
def drawn (w : Address) (e : Entry Block Msg State) : ℕ :=
  match e.msg.call with
  | .withdraw => if e.msg.sender = w then (e.before.credit w).toNat else 0
  | _ => 0

/-- The application that a call makes, engages or disposes of. -/
def applicationOf (e : Entry Block Msg State) : Option Uint256 :=
  match e.msg.call with
  | .applyFor _ _ _ _ _ _ _ => some e.before.nextAppId
  | .engage _ appId => some appId
  | .settle engId _ _ _ _ _ => some (e.before.engagements engId).appId
  | .expire engId => some (e.before.engagements engId).appId
  | .reclaim appId => some appId
  | _ => none

/-- The listing that a call makes, opens or closes. -/
def listingOf (e : Entry Block Msg State) : Option Uint256 :=
  match e.msg.call with
  | .register _ _ _ _ _ _ _ => some e.before.nextTxId
  | .engage txId _ => some txId
  | .settle engId _ _ _ _ _ => some (e.before.listingOf engId)
  | .expire engId => some (e.before.listingOf engId)
  | .cancel txId => some txId
  | _ => none

section

variable (c : Config Block Msg State Err Uint256)

/-- The ether that `w` was sent. -/
def sentTo (w : Address) : ℕ := ((ledger c).map fun x => receivedIn w x.2).sum

/-- The ether that `w` did not accept. -/
def undeliveredTo (w : Address) : ℕ := ((ledger c).map fun x => undelivered w x.2).sum

/-- What `w` took from its credit. -/
def drawnBy (w : Address) : ℕ := ((Accepted c).map (drawn w)).sum

/-- What was paid or credited to the depositor of an application by the calls about it. -/
def paidFor (appId : Uint256) : ℕ :=
  ((ledger c).map fun x => if applicationOf x.1 = some appId then
    paidIn (c.world.store.applications appId).depositor x.2 else 0).sum

/-- What was paid or credited to the owner of a listing by the calls about it. -/
def paidToOwner (txId : Uint256) : ℕ :=
  ((ledger c).map fun x => if listingOf x.1 = some txId then
    paidIn (c.world.store.listings txId).owner x.2 else 0).sum

theorem ledger_entries : (ledger c).map Prod.fst = Accepted c := by
  simp [ledger, Accepted, accepted]
  rfl

end

/-! ## Amounts -/

@[simp] theorem amountTo_nil (w : Address) : amountTo w [] = 0 := rfl

theorem amountTo_append (w : Address) (l l' : List (Address × Uint256)) :
    amountTo w (l ++ l') = amountTo w l + amountTo w l' := by
  simp [amountTo]

theorem amountTo_transfer_self (w : Address) (amount : Uint256) :
    amountTo w (transfer w amount) = amount.toNat := by
  unfold transfer
  split_ifs with h0
  · rw [h0]; rfl
  · simp [amountTo]

theorem amountTo_transfer_of_ne {w dst : Address} (h : dst ≠ w) (amount : Uint256) :
    amountTo w (transfer dst amount) = 0 := by
  unfold transfer
  split_ifs <;> simp [amountTo, h]

theorem amountTo_ite_of_ne {w dst : Address} (h : dst ≠ w) {amount : Uint256} {p : Prop}
    [Decidable p] : amountTo w (if p then transfer dst amount else []) = 0 := by
  split_ifs
  · exact amountTo_transfer_of_ne h amount
  · rfl

theorem receivedIn_append (w : Address) (l l' : List Payment) :
    receivedIn w (l ++ l') = receivedIn w l + receivedIn w l' := by
  simp [receivedIn]

theorem paidIn_append (w : Address) (l l' : List Payment) :
    paidIn w (l ++ l') = paidIn w l + paidIn w l' := by
  rw [paidIn, paidIn, paidIn, receivedIn_append, undelivered_append]
  omega

/-- What is paid or credited for some transfers is what they amount to. -/
theorem paidIn_eq (w : Address) (paid : List Payment) :
    paidIn w paid = amountTo w (paid.map Payment.pair) := by
  induction paid with
  | nil => rfl
  | cons p paid ih =>
    have hone : paidIn w [p] = amountTo w [p.pair] := by
      obtain ⟨dst, amount, delivered⟩ := p
      by_cases hdst : dst = w <;> cases delivered <;>
        simp [paidIn, receivedIn, undelivered, amountTo, Payment.pair, hdst]
    show paidIn w ([p] ++ paid) = amountTo w ([p.pair] ++ paid.map Payment.pair)
    rw [paidIn_append, amountTo_append, hone, ih]

/-! ## Credits -/

section

variable {keccak256 : Bytes → Bytes32} {d : Deployment keccak256} {b : Block} {m : Msg} {s : State}

/-- The credit of everyone. -/
def State.credits (s : State) (w : Address) : ℕ := (s.credit w).toNat

/-- A payout that is not accepted is credited in full. -/
theorem pay_creditsFailed {α : Type} {dst : Address} {amount : Uint256} {f : Unit → Tx State Err α}
    (hf : ∀ s', (f () s').Credits State.credits s'.credits) :
    ((pay dst amount >>= f) s).Credits State.credits s.credits := by
  by_cases h0 : amount = 0
  · subst h0
    rw [pay_zero]
    exact hf s
  · rw [pay_bind h0]
    refine ⟨rfl, ?_, hf⟩
    show ((checked _ (checkedAdd (s.credit dst) amount) >>= _) s).Credits _ _
    cases hadd : checkedAdd (s.credit dst) amount with
    | none => trivial
    | some c =>
      obtain ⟨hlt, rfl⟩ := checkedAdd_eq_some.mp hadd
      have hcredits : (fun w => s.credits w + undelivered w [⟨dst, amount, false⟩]) =
          (s.credited dst amount (s.credit dst + amount)).credits := by
        funext w
        by_cases hw : dst = w
        · subst hw
          simp [State.credits, State.credited, undelivered, toNat_add_of_lt hlt]
        · simp [State.credits, State.credited, undelivered, hw, update_of_ne (Ne.symm hw)]
      rw [hcredits]
      exact hf _

/-- Only a withdrawal touches the credits before its first point of contact. -/
theorem credit_effect (hw : m.call ≠ .withdraw) : (effect d b m s).credit = s.credit := by
  unfold effect
  cases hc : m.call with
  | withdraw => exact absurd hc hw
  | _ => rfl

/-- Before its first point of contact a call takes what it draws from the credits. -/
theorem credits_effect (w : Address) :
    (effect d b m s).credits w + drawn w ⟨b, m, s⟩ = s.credits w := by
  by_cases hw : m.call = .withdraw
  · simp only [State.credits, effect, drawn, hw, State.withdrawn, update_apply]
    by_cases hs : m.sender = w
    · subst hs
      rw [if_pos rfl, if_pos rfl]
      exact Nat.zero_add _
    · rw [if_neg (Ne.symm hs), if_neg hs, Nat.add_zero]
  · have hdrawn : drawn w ⟨b, m, s⟩ = 0 := by
      unfold drawn
      split
      · exact absurd ‹_› hw
      · rfl
    rw [State.credits, credit_effect hw, hdrawn]
    rfl

/-- After its first point of contact a call credits what its recipients do not accept. -/
theorem followUp_creditsFailed (s₁ : State) : (followUp d m s s₁).Credits State.credits s₁.credits :=
  followUp_rec (Q := fun p s' => p.Credits State.credits s'.credits) (fun _ _ => rfl)
    (fun _ _ _ _ => pay_creditsFailed) (fun _ => ⟨rfl, trivial, fun _ => rfl⟩) s₁

end

/-- How the contract keeps credits. -/
def creditRule {keccak256 : Bytes → Bytes32} (d : Deployment keccak256) : CreditRule (code d) where
  credit := State.credits
  drawn := drawn
  credits b m s hl := by
    refine ⟨(effect d b m s).credits, credits_effect, ?_⟩
    show (run d b m s).Credits _ _
    rw [run_eq (run_guard hl)]
    exact followUp_creditsFailed _

section

variable {keccak256 : Bytes → Bytes32} {d : Deployment keccak256} {supply : ℕ}
  {c : Config Block Msg State Err Uint256}

/-- **Credits.** The credit of everyone, and what was drawn from it, is what it did not accept. -/
theorem Runs.credit_eq (h : Runs d supply c) (w : Address) :
    (c.world.store.credit w).toNat + drawnBy c w = undeliveredTo c w := by
  obtain ⟨b, s, hd, hrun⟩ := h
  obtain ⟨verifier, rfl⟩ := hd.initial
  have hbal : (c.world.store.credit w).toNat + drawnBy c w =
      CreditRule.failed w c.world c.stack :=
    (CreditRule.reachable_ok (R := creditRule d) (fun _ => rfl) hrun).balanced w
  rw [hbal, CreditRule.failed, undeliveredTo, ledger, List.map_append, List.sum_append,
    List.map_map, List.map_map]
  congr 2
  refine List.map_congr_left fun f _ => ?_
  show _ = undelivered w (f.paid ++ _)
  rw [undelivered_append, undelivered_accepted, Nat.add_zero]

/-! ## Plans -/

/-- An accepted call that ended made the transfers it had to. -/
theorem Runs.paid_eq (h : Runs d supply c) {r : Record Block Msg State Uint256}
    (hr : r ∈ c.world.history) :
    r.paid.map Payment.pair = plan d r.entry.msg r.entry.before := by
  obtain ⟨base, hok⟩ := h.ok
  have hmem : r.entry ∈ Accepted c :=
    List.mem_append_left _ (List.mem_map_of_mem hr)
  obtain ⟨hinv, g, -⟩ := h.stands hmem
  exact (hok.sound.history r hr).trans (run_behaves hinv g).payouts

/-- The transfers of an accepted call are its plan. -/
theorem Runs.plan_eq (h : Runs d supply c) {e : Entry Block Msg State} (he : e ∈ Accepted c) :
    (code d).plan e = plan d e.msg e.before := by
  obtain ⟨hinv, g, -⟩ := h.stands he
  exact (run_behaves hinv g).payouts

/-- A call that waits makes the transfers it has to. -/
theorem Runs.frame_plan (h : Runs d supply c) {f : Frame Block Msg State Err Uint256}
    (hf : f ∈ c.stack) :
    (f.paid.map Payment.pair ++ [(f.dst, f.amount)]) ++ f.later =
      plan d f.entry.msg f.entry.before := by
  obtain ⟨base, hok⟩ := h.ok
  rw [List.append_assoc, ← h.plan_eq (List.mem_append_right _ (List.mem_map_of_mem hf))]
  exact (hok.frameOk hf).plan

/-- What is in the ledger about a call is a part of what it has to pay, the first payout at least if
there is one. -/
theorem Runs.ledger_plan (h : Runs d supply c) {x : Entry Block Msg State × List Payment}
    (hx : x ∈ ledger c) : ∃ later, x.2.map Payment.pair ++ later = plan d x.1.msg x.1.before ∧
      (x.2.map Payment.pair ≠ [] ∨ later = []) := by
  rcases List.mem_append.mp hx with hx | hx
  · obtain ⟨r, hr, rfl⟩ := List.mem_map.mp hx
    exact ⟨[], by rw [List.append_nil, h.paid_eq hr], .inr rfl⟩
  · obtain ⟨f, hf, rfl⟩ := List.mem_map.mp hx
    refine ⟨f.later, ?_, .inl (by simp)⟩
    rw [← h.frame_plan hf, List.map_append]
    rfl

theorem accepted_of_ledger {x : Entry Block Msg State × List Payment} (hx : x ∈ ledger c) :
    x.1 ∈ Accepted c := by
  rw [← ledger_entries]
  exact List.mem_map_of_mem hx

/-! ## The parties of a call -/

/-- The order of two sums does not matter. -/
theorem sum_map_sum {ι α : Type} (l : List α) (S : Finset ι) (f : α → ι → ℕ) :
    (l.map fun x => ∑ i ∈ S, f x i).sum = ∑ i ∈ S, (l.map fun x => f x i).sum := by
  induction l with
  | nil => simp
  | cons x l ih => simp only [List.map_cons, List.sum_cons, ih, Finset.sum_add_distrib]

section Parties

variable {b : Block} {m : Msg} {s s' : State} {engId appId : Uint256}

theorem known_of_open (h : (s.engagements engId).status = .open) :
    s.book.engStatus engId ≠ .none :=
  h.trans_ne (by decide)

theorem known_of_pending (h : (s.applications appId).status = .pending) :
    s.book.appStatus appId ≠ .none :=
  h.trans_ne (by decide)

theorem engaged_known (h : Inv d b.timestamp s) (hknown : s.book.engStatus engId ≠ .none) :
    s.book.appStatus (s.engagements engId).appId ≠ .none := by
  rw [show s.book.appStatus (s.engagements engId).appId = .engaged from
    h.valid.linked.eng_app engId hknown]
  decide

/-- The two parties of an engagement are different accounts. -/
theorem depositor_ne_owner (h : Inv d b.timestamp s) (hknown : s.book.engStatus engId ≠ .none) :
    (s.applications (s.engagements engId).appId).depositor ≠
      (s.listings (s.listingOf engId)).owner :=
  h.valid.linked.app_owner (s.engagements engId).appId (engaged_known h hknown)

/-- The depositor and the deposit of an application stay as they are. -/
theorem Evolves.application (hev : Evolves s s') (hne : s.book.appStatus appId ≠ .none) :
    (s'.applications appId).depositor = (s.applications appId).depositor ∧
      (s'.applications appId).deposit.toNat = (s.applications appId).deposit.toNat :=
  ⟨hev.book.depositor appId hne, hev.book.deposit appId hne⟩

/-- The owner of a listing stays as it is. -/
theorem Evolves.listing_owner {txId : Uint256} (hev : Evolves s s') (hne : s.txState txId ≠ .none) :
    (s'.listings txId).owner = (s.listings txId).owner :=
  hev.book.owner txId hne

/-- Of all records only the one that a call is about counts. -/
theorem sum_about (D : Uint256 → Address) (o : Option Uint256) (w : Address)
    (l : List (Address × Uint256)) :
    (∑ a with D a = w, if o = some a then amountTo (D a) l else 0) =
      o.elim 0 fun a => if D a = w then amountTo w l else 0 := by
  cases o with
  | none => simp
  | some a =>
    rw [Finset.sum_filter, Finset.sum_eq_single a]
    · by_cases ha : D a = w <;> simp [ha]
    · intro x _ hx
      simp [Ne.symm hx]
    · simp

/-- What two different parties get out of transfers to nobody else. -/
theorem amountTo_parties {D O w : Address} (hne : D ≠ O) {l : List (Address × Uint256)}
    (hl : D ≠ w → O ≠ w → amountTo w l = 0) :
    amountTo w l = (if D = w then amountTo w l else 0) + if O = w then amountTo w l else 0 := by
  by_cases hD : D = w
  · rw [if_pos hD, if_neg (hD ▸ hne.symm), Nat.add_zero]
  · rw [if_neg hD, Nat.zero_add]
    split_ifs with hO
    · rfl
    · exact hl hD hO

/-- What a call pays to anyone it pays as the depositor of the application that it is about, as the
owner of the listing that it is about, or out of its sender's credit. -/
theorem plan_attributed (h : Inv d b.timestamp s) (g : Guard d b m s) (hev : Evolves s s')
    {l later : List (Address × Uint256)} (hl : l ++ later = plan d m s)
    (hfirst : l ≠ [] ∨ later = []) (w : Address) :
    amountTo w l =
      (∑ a with (s'.applications a).depositor = w,
        if applicationOf ⟨b, m, s⟩ = some a then amountTo (s'.applications a).depositor l else 0) +
      (∑ t with (s'.listings t).owner = w,
        if listingOf ⟨b, m, s⟩ = some t then amountTo (s'.listings t).owner l else 0) +
      drawn w ⟨b, m, s⟩ := by
  have hpart : amountTo w (plan d m s) = 0 → amountTo w l = 0 := fun h0 => by
    rw [← hl, amountTo_append] at h0
    omega
  have hempty : plan d m s = [] → l = [] := fun h0 => (List.append_eq_nil_iff.mp (hl.trans h0)).1
  rw [sum_about, sum_about]
  unfold Guard at g
  unfold applicationOf listingOf drawn
  unfold plan at hpart hempty hl
  cases hc : m.call with
  | settle engId txData r sigmaS etaS tAttS =>
    simp only [hc] at g hpart
    have hlocked : s.txState (s.listingOf engId) ≠ .none := g.2.1.locked.trans_ne (by decide)
    simp only [Option.elim, (hev.application (engaged_known h g.2.1.known)).1,
      hev.listing_owner hlocked, Nat.add_zero]
    refine amountTo_parties (depositor_ne_owner h g.2.1.known) fun hD hO => hpart ?_
    rw [amountTo_append, amountTo_transfer_of_ne hO, amountTo_transfer_of_ne hD]
  | expire engId =>
    simp only [hc] at g hpart
    have hlocked : s.txState (s.listingOf engId) ≠ .none := g.2.1.locked.trans_ne (by decide)
    have hknown := known_of_open g.2.1.isOpen
    simp only [Option.elim, (hev.application (engaged_known h hknown)).1,
      hev.listing_owner hlocked, Nat.add_zero]
    refine amountTo_parties (depositor_ne_owner h hknown) fun hD hO => hpart ?_
    rw [amountTo_append, amountTo_transfer_of_ne hD, amountTo_ite_of_ne hO]
  | reclaim appId =>
    simp only [hc] at g hpart
    simp only [Option.elim, (hev.application (known_of_pending g.2.pending)).1, Nat.add_zero,
      ← g.2.depositor]
    split_ifs with hw
    · rfl
    · exact hpart (amountTo_transfer_of_ne hw _)
  | cancel txId =>
    simp only [hc] at g hpart
    have hne : s.txState txId ≠ .none := by
      rcases g.2.state with ht | ht <;> rw [ht] <;> decide
    simp only [Option.elim, hev.listing_owner hne, Nat.zero_add, Nat.add_zero, ← g.2.owner]
    split_ifs with hw
    · rfl
    · exact hpart (amountTo_transfer_of_ne hw _)
  | withdraw =>
    simp only [hc] at hl
    have hall : l = [(m.sender, s.credit m.sender)] := by
      rcases hfirst with hne | rfl
      · cases l with
        | nil => exact absurd rfl hne
        | cons p l =>
          obtain ⟨rfl, hrest⟩ := List.cons_eq_cons.mp hl
          rw [(List.append_eq_nil_iff.mp hrest).1]
      · rwa [List.append_nil] at hl
    subst hall
    by_cases hw : m.sender = w
    · subst hw
      simp [amountTo]
    · simp [amountTo, hw]
  | _ =>
    simp only [hc] at hempty
    simp [hempty]

end Parties

/-- **On account of what.** Everything that an account was sent or has in credit was paid to it as
the depositor of an application or as the owner of a listing. -/
theorem Runs.attributed (h : Runs d supply c) (w : Address) :
    (c.world.store.credit w).toNat + sentTo c w =
      (∑ a with (c.world.store.applications a).depositor = w, paidFor c a) +
        ∑ t with (c.world.store.listings t).owner = w, paidToOwner c t := by
  have hpaid : ((ledger c).map fun x => paidIn w x.2).sum =
      (∑ a with (c.world.store.applications a).depositor = w, paidFor c a) +
        (∑ t with (c.world.store.listings t).owner = w, paidToOwner c t) + drawnBy c w := by
    unfold paidFor paidToOwner drawnBy
    rw [← ledger_entries, List.map_map, ← sum_map_sum, ← sum_map_sum, ← List.sum_map_add,
      ← List.sum_map_add]
    refine congrArg List.sum (List.map_congr_left fun x hx => ?_)
    obtain ⟨hinv, g, -⟩ := h.stands (accepted_of_ledger hx)
    obtain ⟨later, hplan, hfirst⟩ := h.ledger_plan hx
    simp only [paidIn_eq]
    exact plan_attributed hinv g (h.evolves_before (accepted_of_ledger hx)) hplan hfirst w
  have hsum : ((ledger c).map fun x => paidIn w x.2).sum = sentTo c w + undeliveredTo c w :=
    List.sum_map_add
  have hcredit := h.credit_eq w
  omega

end

end Pprev
