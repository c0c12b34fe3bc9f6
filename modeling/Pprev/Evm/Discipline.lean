import Pprev.Evm.Machine
import Mathlib.Tactic.Ring

/-!
# Disciplined contracts

A discipline for a contract is an invariant of its store, a preorder that says how the store may
evolve, and the ether the store owes, such that every run of code keeps the invariant whenever it
hands control out, evolves the store, pays what it takes off the books, and does the same transfers
whatever the recipients do (`Prog.Conforms`). Then in every configuration of every run the
contract's balance is what its store owes, what was forced in, and what the waiting calls still
have to pay (`Discipline.exec_ok`).
-/

namespace Evm

variable {β κ σ ε α : Type}

/-- The run started at `s₀` with `t` to be accounted for; it keeps `I`, evolves the store by `R`,
and splits `t` into what the store owes and what is still to be paid. After an accepted transfer
the store may be any later one, after a failed one it is the store before the transfer. -/
def Prog.Conforms (I : σ → Prop) (R : σ → σ → Prop) (owed : σ → ℕ) :
    σ → ℕ → Prog σ ε α → Prop
  | s₀, t, .done s _ => I s ∧ R s₀ s ∧ owed s = t
  | _, _, .revert _ => True
  | s₀, t, .send s _ amount resume =>
      I s ∧ R s₀ s ∧ owed s + amount.toNat + total (resume true s).payouts = t ∧
      (resume false s).Conforms I R owed s t ∧
      ((resume false s).Live → (resume false s).payouts = (resume true s).payouts) ∧
      ∀ s', I s' → R s s' →
        (resume true s').Conforms I R owed s' (owed s' + total (resume true s).payouts) ∧
        (resume true s').payouts = (resume true s).payouts

/-- What a run owes an account of may be counted from an earlier store. -/
theorem Prog.Conforms.of_rel {I : σ → Prop} {R : σ → σ → Prop} {owed : σ → ℕ}
    (htrans : ∀ s s' s'', R s s' → R s' s'' → R s s'') {s₀ s₁ : σ} {t : ℕ} {p : Prog σ ε α}
    (hR : R s₀ s₁) (h : p.Conforms I R owed s₁ t) : p.Conforms I R owed s₀ t := by
  cases p with
  | done s a => exact ⟨h.1, htrans _ _ _ hR h.2.1, h.2.2⟩
  | revert e => trivial
  | send s dst amount resume => exact ⟨h.1, htrans _ _ _ hR h.2.1, h.2.2⟩

/-- Only runs that do not revert at once have to be looked at. -/
theorem Prog.conforms_of_live {I : σ → Prop} {R : σ → σ → Prop} {owed : σ → ℕ} {s₀ : σ} {t : ℕ}
    {p : Prog σ ε α} (h : p.Live → p.Conforms I R owed s₀ t) : p.Conforms I R owed s₀ t := by
  cases p with
  | done s a => exact h trivial
  | revert e => trivial
  | send s dst amount resume => exact h trivial

structure Discipline (C : Code β κ σ ε α) where
  Inv : β → σ → Prop
  Rel : σ → σ → Prop
  owed : σ → ℕ
  inv_next : ∀ {b b' s}, C.next b b' = true → Inv b s → Inv b' s
  rel_refl : ∀ s, Rel s s
  rel_trans : ∀ {s s' s''}, Rel s s' → Rel s' s'' → Rel s s''
  conforms : ∀ b m s, Inv b s → (C.run b m s).Conforms (Inv b) Rel owed s (owed s + C.value m)

/-- The ether that the waiting calls still have to pay after their present transfers. -/
def pendingTotal (stack : List (Frame β κ σ ε α)) : ℕ := (stack.map Frame.pending).sum

@[simp] theorem pendingTotal_nil : pendingTotal ([] : List (Frame β κ σ ε α)) = 0 := rfl

@[simp] theorem pendingTotal_cons (f : Frame β κ σ ε α) (stack : List (Frame β κ σ ε α)) :
    pendingTotal (f :: stack) = f.pending + pendingTotal stack := rfl

/-- The transfers of a call when every recipient accepts and none calls back. -/
def Code.plan (C : Code β κ σ ε α) (e : Entry β κ σ) : List (Address × Uint256) :=
  (C.run e.block e.msg e.before).payouts

namespace Discipline

variable {C : Code β κ σ ε α} (D : Discipline C) (b : β) (base : σ) (supply : ℕ)

/-- A world with the given waiting calls is accounted for. -/
structure Sound (w : World β κ σ α) (stack : List (Frame β κ σ ε α)) : Prop where
  inv : D.Inv b w.store
  rel : D.Rel base w.store
  balance : w.balance = D.owed w.store + w.forced + pendingTotal stack
  supply : w.balance + w.outside = supply
  history : ∀ r ∈ w.history, r.paid.map Payment.pair = C.plan r.entry

/-- A waiting call can be resumed either way. -/
structure FrameOk (f : Frame β κ σ ε α) : Prop where
  block : f.entry.block = b
  before : f.entry.before = f.start.store
  rel : D.Rel f.start.store f.pre.store
  amount_le : f.amount.toNat ≤ f.pre.balance
  refused : (f.resume false f.pre.store).Conforms (D.Inv b) D.Rel D.owed f.pre.store
    (D.owed f.pre.store + f.amount.toNat + f.pending)
  refused_later : (f.resume false f.pre.store).Live →
    (f.resume false f.pre.store).payouts = f.later
  accepted : ∀ s, D.Inv b s → D.Rel f.pre.store s →
    (f.resume true s).Conforms (D.Inv b) D.Rel D.owed s (D.owed s + f.pending) ∧
    (f.resume true s).payouts = f.later
  plan : f.paid.map Payment.pair ++ (f.dst, f.amount) :: f.later = C.plan f.entry

/-- The current world, every world a waiting call may be taken back to, and every waiting call. -/
def Ok : World β κ σ α → List (Frame β κ σ ε α) → Prop
  | w, [] => D.Sound b base supply w []
  | w, f :: rest => D.Sound b base supply w (f :: rest) ∧
      D.Sound b base supply f.handed (f :: rest) ∧ D.FrameOk b f ∧
      D.Rel f.pre.store w.store ∧ Ok f.start rest

variable {D b base supply}

theorem Ok.sound {w : World β κ σ α} {stack : List (Frame β κ σ ε α)}
    (h : D.Ok b base supply w stack) : D.Sound b base supply w stack := by
  cases stack with
  | nil => exact h
  | cons f rest => exact h.1

/-- Every waiting call can be resumed either way. -/
theorem Ok.frameOk {f : Frame β κ σ ε α} {stack : List (Frame β κ σ ε α)} (hf : f ∈ stack) :
    ∀ {w : World β κ σ α}, D.Ok b base supply w stack → D.FrameOk b f := by
  induction stack with
  | nil => cases hf
  | cons g rest ih =>
    intro w h
    obtain ⟨-, -, hg, -, hrest⟩ := h
    rcases List.mem_cons.mp hf with rfl | hf
    · exact hg
    · exact ih hf hrest

/-- The current world may be exchanged for a later one that is accounted for. -/
theorem Ok.replace {w w' : World β κ σ α} {stack : List (Frame β κ σ ε α)}
    (h : D.Ok b base supply w stack) (hs : D.Sound b base supply w' stack)
    (hr : D.Rel w.store w'.store) : D.Ok b base supply w' stack := by
  cases stack with
  | nil => exact hs
  | cons f rest => exact ⟨hs, h.2.1, h.2.2.1, D.rel_trans h.2.2.2.1 hr, h.2.2.2.2⟩

theorem Ok.advance {rest : List (Frame β κ σ ε α)} {entry : Entry β κ σ}
    {start w : World β κ σ α} {paid : List Payment} {p : Prog σ ε α} {s₀ : σ} {t : ℕ}
    (hstart : D.Ok b base supply start rest) (hb : entry.block = b)
    (hbefore : entry.before = start.store) (hp : p.Conforms (D.Inv b) D.Rel D.owed s₀ t)
    (hrel : D.Rel start.store s₀) (hbal : w.balance = t + w.forced + pendingTotal rest)
    (hsup : w.balance + w.outside = supply)
    (hhist : ∀ r ∈ w.history, r.paid.map Payment.pair = C.plan r.entry)
    (hplan : p.Live → paid.map Payment.pair ++ p.payouts = C.plan entry) :
    D.Ok b base supply (Evm.advance b rest entry start paid w p).world
      (Evm.advance b rest entry start paid w p).stack := by
  have hbase : D.Rel base s₀ := D.rel_trans hstart.sound.rel hrel
  cases p with
  | revert e => exact hstart
  | done s a =>
    obtain ⟨hI, hR, ht⟩ := hp
    refine hstart.replace ⟨hI, D.rel_trans hbase hR, ?_, hsup, ?_⟩ (D.rel_trans hrel hR)
    · show w.balance = D.owed s + w.forced + pendingTotal rest
      rw [ht, hbal]
    · intro r hr
      rcases List.mem_cons.mp hr with rfl | hr
      · have h := hplan trivial
        rwa [Prog.payouts, List.append_nil] at h
      · exact hhist r hr
  | send s dst amount resume =>
    obtain ⟨hI, hR, ht, hfalse, hlater, htrue⟩ := hp
    have hle : amount.toNat ≤ w.balance := by omega
    rw [Evm.advance, if_pos hle]
    have hsound : D.Sound b base supply
        (Frame.handed ⟨entry, start, { w with store := s }, dst, amount, paid, resume⟩)
        (⟨entry, start, { w with store := s }, dst, amount, paid, resume⟩ :: rest) := by
      refine ⟨hI, D.rel_trans hbase hR, ?_, ?_, hhist⟩
      · show w.balance - amount.toNat = D.owed s + w.forced +
          (Prog.total (resume true s).payouts + pendingTotal rest)
        omega
      · show w.balance - amount.toNat + (w.outside + amount.toNat) = supply
        omega
    refine ⟨hsound, hsound, ⟨hb, hbefore, D.rel_trans hrel hR, hle, ?_, hlater, htrue, ?_⟩,
      D.rel_refl s, hstart⟩
    · show (resume false s).Conforms (D.Inv b) D.Rel D.owed s
        (D.owed s + amount.toNat + Prog.total (resume true s).payouts)
      rw [ht]; exact hfalse
    · exact hplan trivial

/-- One event keeps every world accounted for. -/
theorem step_ok {c c' : Config β κ σ ε α} {e : Event β κ}
    (h : D.Ok c.block base supply c.world c.stack) (hstep : C.step c e = some c') :
    D.Ok c'.block base supply c'.world c'.stack := by
  have hs := h.sound
  rcases Code.step_cases hstep with ⟨b', -, hnil, hnext, rfl⟩ | ⟨v, -, hv, rfl⟩ | ⟨m, -, hv, rfl⟩ |
    ⟨f, rest, -, hst, rfl⟩ | ⟨f, rest, -, hst, rfl⟩
  · show D.Ok b' base supply c.world c.stack
    rw [hnil] at hs ⊢
    exact { hs with inv := D.inv_next hnext hs.inv }
  · refine h.replace ⟨hs.inv, hs.rel, ?_, ?_, hs.history⟩ (D.rel_refl _)
    · have := hs.balance
      rw [World.force_balance, World.force_forced, World.force_store]
      omega
    · have := hs.supply
      show c.world.balance + v + (c.world.outside - v) = supply
      omega
  · rw [advance_block]
    refine Ok.advance h rfl rfl (D.conforms _ m _ hs.inv) (D.rel_refl _) ?_ ?_ hs.history
      fun _ => rfl
    · have := hs.balance
      rw [World.receive_balance, World.receive_forced]
      omega
    · have := hs.supply
      show c.world.balance + C.value m + (c.world.outside - C.value m) = supply
      omega
  · rw [hst] at h hs
    obtain ⟨-, -, hf, hrel, hstart⟩ := h
    obtain ⟨hconf, hpay⟩ := hf.accepted _ hs.inv hrel
    rw [advance_block]
    refine Ok.advance hstart hf.block hf.before hconf (D.rel_trans hf.rel hrel) ?_ hs.supply
      hs.history fun _ => ?_
    · have := hs.balance
      rw [pendingTotal_cons] at this
      omega
    · rw [hpay, List.map_append, List.append_assoc]
      exact hf.plan
  · rw [hst] at h
    obtain ⟨-, hh, hf, hrel, hstart⟩ := h
    rw [advance_block]
    have hbal := hh.balance
    have hsup := hh.supply
    have hle := hf.amount_le
    simp only [Frame.handed, World.pay_balance, World.pay_store, World.pay_forced,
      pendingTotal_cons] at hbal
    simp only [Frame.handed, World.pay] at hsup
    refine Ok.advance hstart hf.block hf.before hf.refused hf.rel ?_ ?_ hh.history fun hl => ?_
    · omega
    · omega
    · rw [hf.refused_later hl, List.map_append, List.append_assoc]
      exact hf.plan

/-- **Accounting.** Along every run every world is accounted for. -/
theorem exec_ok {c c' : Config β κ σ ε α} {es : List (Event β κ)}
    (h : D.Ok c.block base supply c.world c.stack) (hrun : C.exec c es = some c') :
    D.Ok c'.block base supply c'.world c'.stack :=
  Code.exec_induction (P := fun c => D.Ok c.block base supply c.world c.stack)
    (fun _ _ _ => step_ok) h hrun

theorem deployed_ok {s : σ} (hinv : D.Inv b s) (howed : D.owed s = 0) :
    D.Ok b s supply (Config.deployed (ε := ε) b s supply : Config β κ σ ε α).world [] :=
  ⟨hinv, D.rel_refl s, by simp [Config.deployed, howed], by simp [Config.deployed],
    fun _ h => absurd h List.not_mem_nil⟩

theorem reachable_ok {s : σ} {c : Config β κ σ ε α} (hinv : D.Inv b s) (howed : D.owed s = 0)
    (h : C.Reachable b s supply c) : D.Ok c.block s supply c.world c.stack :=
  let ⟨_, hrun⟩ := h
  exec_ok (deployed_ok hinv howed) hrun

/-- Outside any call the evolution of the store can be counted from the present. -/
theorem Ok.rebase {w : World β κ σ α} (h : D.Ok b base supply w []) :
    D.Ok b w.store supply w [] :=
  { h.sound with rel := D.rel_refl _ }

end Discipline

end Evm
