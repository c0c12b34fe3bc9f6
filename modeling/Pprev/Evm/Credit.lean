import Pprev.Evm.Audit

/-!
# Transfers that were not accepted

A contract may credit an account with a transfer it did not accept and pay the credit out in a later
call, taking it off the books when that call is made (`CreditRule`). Then in every configuration of
every run an account was credited exactly what it did not accept: its credit and what was drawn from
it are together the transfers to it that failed, neither more nor less (`CreditRule.reachable_ok`).
-/

namespace Evm

variable {β κ σ ε α : Type}

/-- The ether among some transfers that was for `w` and that `w` did not accept. -/
def undelivered (w : Address) (paid : List Payment) : ℕ :=
  ((paid.filter fun p => p.dst = w ∧ p.delivered = false).map fun p => p.amount.toNat).sum

@[simp] theorem undelivered_nil (w : Address) : undelivered w [] = 0 := rfl

theorem undelivered_append (w : Address) (l l' : List Payment) :
    undelivered w (l ++ l') = undelivered w l + undelivered w l' := by
  simp [undelivered]

theorem undelivered_accepted (w dst : Address) (amount : Uint256) :
    undelivered w [⟨dst, amount, true⟩] = 0 := by
  simp [undelivered]

/-- A run whose store credits `K` when it goes on from here; what a recipient does not accept is
added to its credit, and nothing else changes a credit. -/
def Prog.Credits (credit : σ → Address → ℕ) : (Address → ℕ) → Prog σ ε α → Prop
  | K, .done s _ => credit s = K
  | _, .revert _ => True
  | K, .send s dst amount resume =>
      credit s = K ∧
      (resume false s).Credits credit (fun w => K w + undelivered w [⟨dst, amount, false⟩]) ∧
      ∀ s', (resume true s').Credits credit (credit s')

/-- How a contract keeps credits: an accepted call draws on them when it is made, and from then on
credits what its recipients do not accept. -/
structure CreditRule (C : Code β κ σ ε α) where
  credit : σ → Address → ℕ
  drawn : Address → Entry β κ σ → ℕ
  credits : ∀ b m s, (C.run b m s).Live → ∃ K, (∀ w, K w + drawn w ⟨b, m, s⟩ = credit s w) ∧
    (C.run b m s).Credits credit K

namespace CreditRule

variable {C : Code β κ σ ε α} (R : CreditRule C)

/-- What the accepted calls drew from the credit of an account. -/
def drawnBy (a : Address) (w : World β κ σ α) (stack : List (Frame β κ σ ε α)) : ℕ :=
  ((accepted w stack).map (R.drawn a)).sum

/-- What an account did not accept, in the calls that ended and in those that wait. -/
def failed (a : Address) (w : World β κ σ α) (stack : List (Frame β κ σ ε α)) : ℕ :=
  (w.history.map fun r => undelivered a r.paid).sum +
    (stack.map fun f => undelivered a f.paid).sum

/-- The credit of every account and what was drawn from it are what it did not accept. -/
def Balanced (w : World β κ σ α) (stack : List (Frame β κ σ ε α)) : Prop :=
  ∀ a, R.credit w.store a + R.drawnBy a w stack = failed a w stack

/-- The current world, every world a waiting call may be taken back to, and every waiting call. -/
def Ok : World β κ σ α → List (Frame β κ σ ε α) → Prop
  | w, [] => R.Balanced w ([] : List (Frame β κ σ ε α))
  | w, f :: rest => R.Balanced w (f :: rest) ∧ R.Balanced f.pre (f :: rest) ∧
      ((f.resume false f.pre.store).Credits R.credit
          (fun a => R.credit f.pre.store a + undelivered a [⟨f.dst, f.amount, false⟩]) ∧
        ∀ s, (f.resume true s).Credits R.credit (R.credit s)) ∧
      Ok f.start rest

variable {R}

theorem drawnBy_cons (a : Address) (w : World β κ σ α) (f : Frame β κ σ ε α)
    (rest : List (Frame β κ σ ε α)) :
    R.drawnBy a w (f :: rest) = R.drawn a f.entry + R.drawnBy a w rest := by
  rw [drawnBy, ((accepted_cons_perm w f rest).map _).sum_eq]
  rfl

theorem failed_cons (a : Address) (w : World β κ σ α) (f : Frame β κ σ ε α)
    (rest : List (Frame β κ σ ε α)) :
    failed a w (f :: rest) = undelivered a f.paid + failed a w rest := by
  rw [failed, failed, List.map_cons, List.sum_cons, Nat.add_left_comm]

theorem Ok.balanced {w : World β κ σ α} {stack : List (Frame β κ σ ε α)} (h : R.Ok w stack) :
    R.Balanced w stack := by
  cases stack with
  | nil => exact h
  | cons f rest => exact h.1

theorem Ok.replace {w w' : World β κ σ α} {stack : List (Frame β κ σ ε α)} (h : R.Ok w stack)
    (hw : R.Balanced w' stack) : R.Ok w' stack := by
  cases stack with
  | nil => exact hw
  | cons f rest => exact ⟨hw, h.2⟩

/-- A call that has made the transfers `paid` goes on to its end or to its next transfer. -/
theorem Ok.advance {b : β} {rest : List (Frame β κ σ ε α)} {entry : Entry β κ σ}
    {start : World β κ σ α} {p : Prog σ ε α} (hstart : R.Ok start rest) :
    ∀ {paid : List Payment} {w : World β κ σ α} {K : Address → ℕ}, p.Credits R.credit K →
      (p.Live → ∀ a, K a + (R.drawn a entry + R.drawnBy a w rest) =
        undelivered a paid + failed a w rest) →
      R.Ok (Evm.advance b rest entry start paid w p).world
        (Evm.advance b rest entry start paid w p).stack := by
  induction p with
  | revert e => intros; exact hstart
  | done s a =>
    intro paid w K hp hbal
    refine hstart.replace fun x => ?_
    have hcredit : R.credit s x = K x := congrFun hp x
    show R.credit s x + (R.drawn x entry + R.drawnBy x w rest) = _
    rw [hcredit, hbal trivial x]
    exact (Nat.add_assoc _ _ _).symm
  | send s dst amount resume ih =>
    intro paid w K hp hbal
    obtain ⟨hcredit, hfalse, htrue⟩ := hp
    have hK := hbal trivial
    subst hcredit
    rw [Evm.advance]
    split_ifs with hle
    · have hbalanced : R.Balanced { w with store := s }
          (⟨entry, start, { w with store := s }, dst, amount, paid, resume⟩ :: rest) := fun x => by
        rw [drawnBy_cons, failed_cons]
        exact hK x
      exact ⟨hbalanced, hbalanced, ⟨hfalse, htrue⟩, hstart⟩
    · -- the transfer fails at once
      refine ih false s (w := { w with store := s }) hfalse fun _ x => ?_
      have hx := hK x
      have hdrawn : R.drawnBy x { w with store := s } rest = R.drawnBy x w rest := rfl
      have hfailed : failed x { w with store := s } rest = failed x w rest := rfl
      rw [undelivered_append, hdrawn, hfailed]
      omega

/-- One event keeps the credits. -/
theorem step_ok {c c' : Config β κ σ ε α} {e : Event β κ} (h : R.Ok c.world c.stack)
    (hstep : C.step c e = some c') : R.Ok c'.world c'.stack := by
  rcases Code.step_cases hstep with ⟨b', -, -, -, rfl⟩ | ⟨v, -, -, rfl⟩ | ⟨m, -, -, rfl⟩ |
    ⟨f, rest, -, hst, rfl⟩ | ⟨f, rest, -, hst, rfl⟩
  · exact h
  · exact h.replace h.balanced
  · -- a call that reverts at once is not accepted
    rcases (C.run c.block m c.world.store).live_or_revert with hl | ⟨err, herr⟩
    · obtain ⟨K, hK, hcredits⟩ := R.credits c.block m c.world.store hl
      refine Ok.advance h hcredits fun _ a => ?_
      have hbal := h.balanced a
      have hdrawn : R.drawnBy a (c.world.receive (C.value m)) c.stack =
        R.drawnBy a c.world c.stack := rfl
      have hfailed : failed a (c.world.receive (C.value m)) c.stack =
        failed a c.world c.stack := rfl
      rw [undelivered_nil, hdrawn, hfailed, ← hbal, ← hK a]
      omega
    · rw [herr]
      exact h
  · rw [hst] at h
    obtain ⟨hbal, -, ⟨-, haccepted⟩, hstart⟩ := h
    refine Ok.advance hstart (haccepted _) fun _ a => ?_
    have ha := hbal a
    rw [drawnBy_cons, failed_cons] at ha
    rw [undelivered_append, undelivered_accepted]
    exact ha
  · rw [hst] at h
    obtain ⟨-, hbal, ⟨hrefused, -⟩, hstart⟩ := h
    refine Ok.advance hstart hrefused fun _ a => ?_
    have ha := hbal a
    rw [drawnBy_cons, failed_cons] at ha
    rw [undelivered_append]
    omega

/-- **Credits.** Along every run every account was credited exactly what it did not accept. -/
theorem reachable_ok {b : β} {s : σ} {supply : ℕ} {c : Config β κ σ ε α}
    (hnone : ∀ a, R.credit s a = 0) (h : C.Reachable b s supply c) : R.Ok c.world c.stack := by
  obtain ⟨es, hrun⟩ := h
  have hdeployed : R.Ok (Config.deployed (ε := ε) b s supply : Config β κ σ ε α).world [] :=
    fun a => hnone a
  exact Code.exec_induction (P := fun c => R.Ok c.world c.stack) (fun _ _ _ => step_ok) hdeployed
    hrun

end CreditRule

end Evm
