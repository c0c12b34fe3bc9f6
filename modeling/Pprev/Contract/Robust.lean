import Pprev.Contract.Solvency
import Pprev.Evm.Success

/-!
# Payouts block nobody

Once the conditions of a call hold nothing its recipients do makes it revert: an undelivered payout
is credited, and no credit overflows while little ether is in the world. Only a withdrawal depends
on its recipient, which is its caller.
-/

namespace Pprev

open Evm Function Tx

section

variable {keccak256 : Bytes → Bytes32} {d : Deployment keccak256} {b : Block} {m : Msg}
  {s : State} {α : Type} {bound : ℕ} {mayFail : Bool}

theorem credit_le_obligations (s : State) (w : Address) : (s.credit w).toNat ≤ obligations s := by
  rw [obligations_eq_owed]
  exact Book.credit_le_owed (b := s.book) w

/-- What follows a payout runs from every later store. -/
theorem pay_robust {dst : Address} {amount : Uint256} {f : Unit → Tx State Err α}
    {plan : List (Address × Uint256)} (hbound : bound < 2 ^ 256) (hinv : Inv d b.timestamp s)
    (hle : obligations s + amount.toNat + Prog.total plan ≤ bound)
    (hf : ∀ s', Inv d b.timestamp s' → Evolves s s' → (f () s').payouts = plan ∧
      (obligations s' + Prog.total plan ≤ bound →
        (f () s').Robust (Inv d b.timestamp) Evolves obligations bound mayFail)) :
    ((pay dst amount >>= f) s).Robust (Inv d b.timestamp) Evolves obligations bound mayFail := by
  by_cases h0 : amount = 0
  · subst h0
    rw [pay_zero]
    exact (hf s hinv (.refl s)).2 ((Nat.add_le_add_right (Nat.le_add_right _ _) _).trans hle)
  · rw [pay_bind h0]
    refine ⟨fun _ => ?_, fun s' hi he hle' => ?_⟩
    · have hlt : (s.credit dst).toNat + amount.toNat < 2 ^ 256 := by
        have := credit_le_obligations s dst
        omega
      have hacc := credited_accounted hinv hlt
      have howed := hacc.owed
      show ((checked _ (checkedAdd (s.credit dst) amount) >>= _) s).Robust _ _ _ _ _
      rw [checked_pass (checkedAdd_eq_some.mpr ⟨hlt, rfl⟩)]
      exact (hf _ hacc.inv hacc.evolves).2 (by omega)
    · have hplan := (hf s hinv (.refl s)).1
      refine (hf s' hi he).2 ?_
      rw [← hplan]
      exact hle'

theorem pay_alone_robust {dst : Address} {amount : Uint256} {a : α} (hbound : bound < 2 ^ 256)
    (hinv : Inv d b.timestamp s) (hle : obligations s + amount.toNat ≤ bound) :
    ((pay dst amount >>= fun _ => pure a) s).Robust (Inv d b.timestamp) Evolves obligations bound
      mayFail := by
  have hplan : obligations s + amount.toNat + Prog.total [] ≤ bound := hle
  exact pay_robust hbound hinv hplan fun _ _ _ => ⟨rfl, fun _ => trivial⟩

theorem pay_then_robust {dst : Address} {amount : Uint256} (dst' : Address) (amount' : Uint256)
    (a : α) {f : Unit → Tx State Err α} (hbound : bound < 2 ^ 256) (hinv : Inv d b.timestamp s)
    (hle : obligations s + (amount.toNat + amount'.toNat) ≤ bound)
    (hf : ∀ s', Inv d b.timestamp s' → Evolves s s' →
      f () s' = (pay dst' amount' >>= fun _ => pure a) s') :
    ((pay dst amount >>= f) s).Robust (Inv d b.timestamp) Evolves obligations bound mayFail := by
  have hplan : obligations s + amount.toNat + Prog.total (transfer dst' amount') ≤ bound := by
    rw [total_transfer]
    omega
  refine pay_robust hbound hinv hplan fun s' hi he => ?_
  · rw [hf s' hi he, total_transfer]
    exact ⟨(pay_alone hi).payouts, pay_alone_robust hbound hi⟩

end

section

variable {keccak256 : Bytes → Bytes32} {d : Deployment keccak256} {b : Block} {m : Msg}
  {s : State} {bound : ℕ}

/-- A call other than a withdrawal is not made to fail by its recipients. -/
theorem run_robust (hbound : bound < 2 ^ 256) (h : Inv d b.timestamp s)
    (hle : obligations s + m.value.toNat ≤ bound) (g : Guard d b m s) (hw : m.call ≠ .withdraw)
    (mayFail : Bool) :
    (run d b m s).Robust (Inv d b.timestamp) Evolves obligations bound mayFail := by
  rw [run_eq g]
  unfold Guard at g
  unfold followUp effect
  cases hc : m.call with
  | settle engId txData r sigmaS etaS tAttS =>
    simp only [hc] at g ⊢
    have hacc := settled_accounted h g.2.1 g.2.2
    have happ : (s.applications (s.engagements engId).appId).status ≠ .none := by
      rw [show (s.applications (s.engagements engId).appId).status = .engaged from
        h.valid.linked.eng_app engId g.2.1.known]
      decide
    refine pay_then_robust (s.applications (s.engagements engId).appId).depositor
      (s.toCounterparty engId txData) 0 hbound hacc.inv (by have := hacc.owed; omega)
      fun s' hi he => ?_
    have hdep : (s'.applications (s.engagements engId).appId).depositor =
        (s.applications (s.engagements engId).appId).depositor := he.book.depositor _ happ
    rw [← hdep]
    rfl
  | expire engId =>
    simp only [hc] at g ⊢
    have hacc := afterExpire_accounted h g.2.1 g.2.2
    have hlocked : s.txState (s.listingOf engId) ≠ .none := by rw [g.2.1.locked]; decide
    have howner : ∀ s', Evolves (s.afterExpire d engId) s' →
        (s'.listings (s.listingOf engId)).owner = (s.listings (s.listingOf engId)).owner :=
      fun s' he => (hacc.evolves.trans he).book.owner _ hlocked
    have howed := hacc.owed
    unfold State.expirePayouts at howed
    cases hx : s.exhausted d engId with
    | true =>
      rw [hx, if_pos rfl] at howed
      simp only [if_true]
      refine pay_then_robust (s.listings (s.listingOf engId)).owner
        (surviving d (s.listings (s.listingOf engId)).collateral) 0 hbound hacc.inv (by omega)
        fun s' hi he => ?_
      rw [← howner s' he]
      rfl
    | false =>
      rw [hx, if_neg Bool.false_ne_true] at howed
      simp only [Bool.false_eq_true, if_false]
      exact pay_alone_robust hbound hacc.inv (by omega)
  | reclaim appId =>
    simp only [hc] at g ⊢
    have hacc := reclaimed_accounted h g.2
    exact pay_alone_robust hbound hacc.inv (by have := hacc.owed; omega)
  | cancel txId =>
    simp only [hc] at g ⊢
    have hacc := cancelled_accounted h g.2
    exact pay_alone_robust hbound hacc.inv (by have := hacc.owed; omega)
  | withdraw => exact absurd hc hw
  | _ => trivial

/-- A withdrawal does not fail when its caller accepts the ether. -/
theorem withdraw_robust (hc : m.call = .withdraw) (g : Guard d b m s) :
    (run d b m s).Robust (Inv d b.timestamp) Evolves obligations bound false := by
  rw [run_eq g]
  unfold followUp effect
  simp only [hc]
  exact ⟨fun h => absurd h (by decide), fun _ _ _ _ => trivial⟩

/-! ## The conditions of an exit -/

theorem rho_lt (d : Deployment keccak256) : d.RHO.toNat < 10000 := by
  have hvalid := d.valid
  simp only [not_or, BitVec.not_le] at hvalid
  exact hvalid.2.2.2.2.2

/-- With little ether in the world the amounts of an expiration can be computed. -/
theorem expireAmounts_of_checks {engId : Uint256} (h : Inv d b.timestamp s)
    (g : ExpireChecks b s engId) (hlt : obligations s < 2 ^ 128) : ExpireAmounts d s engId := by
  have hrho := rho_lt d
  have howed := Book.owed_exhaust (b := s.book) g.isOpen g.locked
  rw [← obligations_eq_owed] at howed
  have hsum : (s.applications (s.engagements engId).appId).deposit.toNat +
      (s.listings (s.listingOf engId)).collateral.toNat < 2 ^ 128 :=
    ((Nat.le_add_left _ _).trans howed.le).trans_lt hlt
  have hbounded : (s.listings (s.listingOf engId)).expirations.toNat <
      d.MAX_EXPIRATIONS.toNat := h.valid.tallied.bounded _ (.inr (.inr (.inl g.locked)))
  have hmax := d.MAX_EXPIRATIONS.isLt
  have hcol : (s.listings (s.listingOf engId)).collateral.toNat < 2 ^ 128 := by omega
  have hproduct : (s.listings (s.listingOf engId)).collateral.toNat * d.RHO.toNat < 2 ^ 256 :=
    calc _ ≤ 2 ^ 128 * 10000 := Nat.mul_le_mul hcol.le hrho.le
      _ < 2 ^ 256 := by decide
  have hfloor : (surviving d (s.listings (s.listingOf engId)).collateral).toNat ≤
      (s.listings (s.listingOf engId)).collateral.toNat := by
    rw [surviving, BitVec.toNat_udiv, toNat_mul_of_lt hproduct]
    exact bps_le hrho.le
  refine ⟨hproduct, by omega, hfloor, ?_⟩
  rw [State.compensation, toNat_sub_of_le hfloor]
  omega

end

end Pprev
