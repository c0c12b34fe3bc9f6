import Pprev.Evm.Audit

/-!
# What the accepted calls add up to

A chronicle of a disciplined contract is a property of the accepted calls and the store that every
call keeps when it joins them at its first point of contact, and that nothing a call does later
touches (`Prog.Later`). It holds in every configuration of every run, since what a failing recipient
or a revert takes back is taken from the calls and from the store together
(`Chronicle.reachable_ok`).
-/

namespace Evm

variable {β κ σ ε α : Type}

structure Chronicle {C : Code β κ σ ε α} (D : Discipline C) where
  Holds : List (Entry β κ σ) → σ → Prop
  Quiet : σ → σ → Prop
  perm : ∀ {es es' s}, es.Perm es' → Holds es s → Holds es' s
  quiet : ∀ {es s s'}, Quiet s s' → Holds es s → Holds es s'
  call : ∀ b m s es, D.Inv b s → (C.run b m s).Live → Holds es s →
    (C.run b m s).First (Holds (⟨b, m, s⟩ :: es))
  later : ∀ b m s, D.Inv b s → (C.run b m s).Later Quiet

namespace Chronicle

variable {C : Code β κ σ ε α} {D : Discipline C} (H : Chronicle D)

/-- The current world, every world a waiting call may be taken back to, and every waiting call. -/
def Ok : World β κ σ α → List (Frame β κ σ ε α) → Prop
  | w, [] => H.Holds (w.history.map Record.entry) w.store
  | w, f :: rest => H.Holds (accepted w (f :: rest)) w.store ∧
      H.Holds (accepted f.pre (f :: rest)) f.pre.store ∧
      ((f.resume false f.pre.store).Moves H.Quiet f.pre.store ∧
        ∀ s, (f.resume true s).Moves H.Quiet s) ∧
      Ok f.start rest

variable {H}

theorem Ok.holds {w : World β κ σ α} {stack : List (Frame β κ σ ε α)} (h : H.Ok w stack) :
    H.Holds (accepted w stack) w.store := by
  cases stack with
  | nil =>
    rw [accepted, List.map_nil, List.append_nil]
    exact h
  | cons f rest => exact h.1

theorem Ok.replace {w w' : World β κ σ α} {stack : List (Frame β κ σ ε α)} (h : H.Ok w stack)
    (hw : H.Holds (accepted w' stack) w'.store) : H.Ok w' stack := by
  cases stack with
  | nil =>
    rw [accepted, List.map_nil, List.append_nil] at hw
    exact hw
  | cons f rest => exact ⟨hw, h.2⟩

/-- A call goes on to its end or to its next transfer. -/
theorem Ok.advance {b : β} {rest : List (Frame β κ σ ε α)} {entry : Entry β κ σ}
    {start : World β κ σ α} {p : Prog σ ε α} (hstart : H.Ok start rest) :
    ∀ {paid : List Payment} {w : World β κ σ α},
      p.First (H.Holds (entry :: accepted w rest)) → p.Later H.Quiet →
      H.Ok (Evm.advance b rest entry start paid w p).world
        (Evm.advance b rest entry start paid w p).stack := by
  induction p with
  | revert e => intros; exact hstart
  | done s a =>
    intro paid w hfirst hlater
    exact hstart.replace hfirst
  | send s dst amount resume ih =>
    intro paid w hfirst hlater
    rw [Evm.advance]
    split_ifs with hle
    · have hholds := H.perm List.perm_middle.symm hfirst
      exact ⟨hholds, hholds, hlater, hstart⟩
    · -- the transfer fails at once
      refine ih false s (w := { w with store := s }) ?_ hlater.1.later
      exact hlater.1.first.mono fun s' hs' => H.quiet hs' hfirst

/-- One event keeps the chronicle. -/
theorem step_ok {base : σ} {supply : ℕ} {c c' : Config β κ σ ε α} {e : Event β κ}
    (hD : D.Ok c.block base supply c.world c.stack) (h : H.Ok c.world c.stack)
    (hstep : C.step c e = some c') : H.Ok c'.world c'.stack := by
  have hinv := hD.sound.inv
  rcases Code.step_cases hstep with ⟨b', -, -, -, rfl⟩ | ⟨v, -, -, rfl⟩ | ⟨m, -, -, rfl⟩ |
    ⟨f, rest, -, hst, rfl⟩ | ⟨f, rest, -, hst, rfl⟩
  · exact h
  · exact h.replace h.holds
  · -- a call that reverts at once is not accepted
    rcases (C.run c.block m c.world.store).live_or_revert with hl | ⟨err, herr⟩
    · exact Ok.advance h (H.call _ _ _ _ hinv hl h.holds) (H.later _ _ _ hinv)
    · rw [herr]
      exact h
  · rw [hst] at h
    obtain ⟨hholds, -, ⟨-, haccepted⟩, hstart⟩ := h
    have hpresent := H.perm (accepted_cons_perm c.world f rest) hholds
    exact Ok.advance hstart ((haccepted _).first.mono fun s hs => H.quiet hs hpresent)
      (haccepted _).later
  · rw [hst] at h
    obtain ⟨-, hholds, ⟨hrefused, -⟩, hstart⟩ := h
    have hpresent := H.perm (accepted_cons_perm f.pre f rest) hholds
    exact Ok.advance hstart (hrefused.first.mono fun s hs => H.quiet hs hpresent) hrefused.later

/-- **Chronicle.** Along every run the property holds of the accepted calls and the store. -/
theorem exec_ok {base : σ} {supply : ℕ} {c c' : Config β κ σ ε α} {es : List (Event β κ)}
    (hD : D.Ok c.block base supply c.world c.stack) (h : H.Ok c.world c.stack)
    (hrun : C.exec c es = some c') : H.Ok c'.world c'.stack := by
  have key := Code.exec_induction
    (P := fun c => D.Ok c.block base supply c.world c.stack ∧ H.Ok c.world c.stack)
    (fun _ _ _ hP hstep => ⟨Discipline.step_ok hP.1 hstep, step_ok hP.1 hP.2 hstep⟩) ⟨hD, h⟩ hrun
  exact key.2

theorem reachable_ok {b : β} {s : σ} {supply : ℕ} {c : Config β κ σ ε α} (hinv : D.Inv b s)
    (howed : D.owed s = 0) (hnone : H.Holds [] s) (h : C.Reachable b s supply c) :
    H.Ok c.world c.stack :=
  let ⟨_, hrun⟩ := h
  have hdeployed : H.Ok (Config.deployed (ε := ε) b s supply : Config β κ σ ε α).world [] := hnone
  exec_ok (Discipline.deployed_ok hinv howed) hdeployed hrun

end Chronicle

end Evm
