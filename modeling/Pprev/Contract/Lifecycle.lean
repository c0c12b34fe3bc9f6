import Pprev.Contract.Accepted

/-!
# The lifecycle of the records

What links the listings, applications and engagements of a reachable store, and what it means for
the checks of `expire` and `_isOpen`.
-/

namespace Pprev

open Evm Function Tx

section

variable {keccak256 : Bytes → Bytes32}

/-- The engagements of a listing that expired. -/
noncomputable def State.expiredOf (s : State) (txId : Uint256) : Finset Uint256 :=
  Finset.univ.filter fun e => (s.engagements e).status = .expired ∧ s.listingOf e = txId

/-- The links between the records of a store. -/
structure Lifecycle (d : Deployment keccak256) (s : State) : Prop where
  locked_iff : ∀ t, s.txState t = .locked ↔
    ∃! e, (s.engagements e).status = .open ∧ s.listingOf e = t
  one_open : ∀ e e', (s.engagements e).status = .open → (s.engagements e').status = .open →
    s.listingOf e = s.listingOf e' → e = e'
  engaged : ∀ e, (s.engagements e).status ≠ .none →
    (s.applications (s.engagements e).appId).status = .engaged
  one_engagement : ∀ a, (s.applications a).status = .engaged →
    ∃! e, (s.engagements e).status ≠ .none ∧ (s.engagements e).appId = a
  settled_iff : ∀ t, s.txState t = .settled ↔
    ∃! e, (s.engagements e).status = .settled ∧ s.listingOf e = t
  closed : ∀ t, s.txState t = .settled ∨ s.txState t = .cancelled → (s.listings t).collateral = 0
  expired : ∀ t, s.txState t = .expired → 1 ≤ (s.listings t).expirations.toNat ∧
    (s.listings t).expirations.toNat < d.MAX_EXPIRATIONS.toNat
  active : ∀ t, s.txState t = .active → (s.listings t).expirations = 0
  expirations : ∀ t, (s.listings t).expirations.toNat = (s.expiredOf t).card
  listing_absent : ∀ t, t = 0 ∨ s.nextTxId ≤ t → s.txState t = .none ∧ s.listings t = default
  application_absent : ∀ a, a = 0 ∨ s.nextAppId ≤ a → s.applications a = default
  engagement_absent : ∀ e, e = 0 ∨ s.nextEngId ≤ e → s.engagements e = default

variable {d : Deployment keccak256} {now : ℕ} {s : State}

theorem Inv.toLifecycle (h : Inv d now s) : Lifecycle d s := by
  obtain ⟨⟨hlinked, hlocked, hsettled, htimed, htallied, hcounted⟩, halloc, -⟩ := h
  exact {
    locked_iff := hlocked.iff_existsUnique
    one_open := hlocked.unique
    engaged := hlinked.eng_app
    one_engagement := fun a ha =>
      let ⟨e, he, hea⟩ := hlinked.app_eng a ha
      ⟨e, ⟨he, hea⟩, fun e' he' => hlinked.eng_unique e' e he'.1 he (he'.2.trans hea.symm)⟩
    settled_iff := hsettled.iff_existsUnique
    closed := fun t ht => BitVec.eq_of_toNat_eq (htallied.closed t ht)
    expired := fun t ht => ⟨htallied.expired t ht, htallied.bounded t (.inr (.inl ht))⟩
    active := fun t ht => BitVec.eq_of_toNat_eq (htallied.active t ht)
    expirations := hcounted
    listing_absent := fun t ht => ⟨halloc.txState t ht, halloc.listings t ht⟩
    application_absent := halloc.applications
    engagement_absent := halloc.engagements }

/-- The check E(b) of `expire` rejects nothing that passed E(a). -/
theorem Inv.expire_ne_notLocked {b : Block} (h : Inv d b.timestamp s) (engId txId : Uint256) :
    expire d b engId s ≠ .revert (.notLocked txId) := by
  refine revertIf_ne (s := s) (fun _ => by simp) fun ha => ?_
  have hlocked : s.txState (s.listingOf engId) = .locked :=
    h.valid.locked.state engId (not_not.mp ha)
  refine revertIf_ne (fun hb => absurd hlocked hb) fun _ => ?_
  refine revertIf_ne (fun _ => by simp) fun _ => ?_
  refine checked_ne (fun _ => by simp) fun product _ => ?_
  refine checked_ne (fun _ => by simp) fun expirations _ => ?_
  refine checked_ne (fun _ => by simp) fun compensation _ => ?_
  refine checked_ne (s := s.expired engId _ _ _ _) (fun _ => by simp) fun toDepositor _ => ?_
  refine pay_bind_ne ?_
  split_ifs
  · exact pay_ne
  · exact fun heq => by cases heq

/-- The expirations test of `_isOpen` rejects no listing whose state is open. -/
theorem Inv.isOpen_eq (h : Inv d now s) (t : Uint256) :
    s.isOpen d t = (s.txState t = .active || s.txState t = .expired) := by
  rw [Bool.eq_iff_iff, isOpen_iff, Bool.or_eq_true, decide_eq_true_eq, decide_eq_true_eq]
  exact ⟨fun ho => ho.1, fun ht => ⟨ht, h.valid.tallied.bounded t (by tauto)⟩⟩

variable {supply : ℕ} {c : Config Block Msg State Err Uint256}

/-- **Lifecycle.** The records of every reachable store are linked; settled and cancelled listings
stay so, from one moment outside any call to a later one and from an accepted call to the present;
and the checks E(b) and of the expirations in `_isOpen` reject nothing. -/
theorem lifecycle (h : Runs d supply c) :
    Lifecycle d c.world.store ∧
    (∀ es c', c.stack = [] → (code d).exec c es = some c' → ∀ t,
      c.world.store.txState t = .settled ∨ c.world.store.txState t = .cancelled →
      c'.world.store.txState t = c.world.store.txState t) ∧
    (∀ e ∈ Accepted c, ∀ t, e.before.txState t = .settled ∨ e.before.txState t = .cancelled →
      c.world.store.txState t = e.before.txState t) ∧
    (∀ engId txId, expire d c.block engId c.world.store ≠ .revert (.notLocked txId)) ∧
    (∀ t, c.world.store.isOpen d t =
      (c.world.store.txState t = .active || c.world.store.txState t = .expired)) :=
  ⟨h.inv.toLifecycle,
    fun _ _ hstack hes t ht => TxState.eq_of_path ((h.evolves hstack hes).book.txState t) ht,
    fun _ he t ht => TxState.eq_of_path ((h.evolves_before he).book.txState t) ht,
    h.inv.expire_ne_notLocked, h.inv.isOpen_eq⟩

end

open Vectors in
theorem lifecycle_ended : ended.world.store.txState 1 = .settled ∧
    ∃! e, (ended.world.store.engagements e).status = .settled ∧ ended.world.store.listingOf e = 1 :=
  have hsettled : ended.world.store.txState 1 = .settled := by decide +kernel
  ⟨hsettled, ((lifecycle ended_runs).1.settled_iff 1).mp hsettled⟩

end Pprev
