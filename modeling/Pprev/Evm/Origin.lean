import Pprev.Evm.Audit

/-!
# Where the calls of a configuration come from

A configuration remembers calls in its world, in the calls that wait, and in the worlds these may
be taken back to. Whatever holds of every call at the event that makes it holds of every call that
is remembered, and so of every accepted one.
-/

namespace Evm

variable {β κ σ ε α : Type}

/-- Every call of the world has the property. -/
def World.Marked (P : Entry β κ σ → Prop) (w : World β κ σ α) : Prop := ∀ r ∈ w.history, P r.entry

/-- Every call that the configuration remembers has the property. -/
structure Config.Marked (P : Entry β κ σ → Prop) (c : Config β κ σ ε α) : Prop where
  world : c.world.Marked P
  frames : ∀ f ∈ c.stack, P f.entry ∧ f.start.Marked P ∧ f.pre.Marked P

namespace Config.Marked

variable {P Q : Entry β κ σ → Prop} {c c' : Config β κ σ ε α}

theorem mono (h : c.Marked P) (hPQ : ∀ e, P e → Q e) : c.Marked Q :=
  ⟨fun r hr => hPQ _ (h.world r hr), fun f hf =>
    let ⟨he, hs, hp⟩ := h.frames f hf
    ⟨hPQ _ he, fun r hr => hPQ _ (hs r hr), fun r hr => hPQ _ (hp r hr)⟩⟩

theorem accepted (h : c.Marked P) {e : Entry β κ σ} (he : e ∈ Evm.accepted c.world c.stack) :
    P e := by
  rcases List.mem_append.mp he with he | he
  · obtain ⟨r, hr, rfl⟩ := List.mem_map.mp he
    exact h.world r hr
  · obtain ⟨f, hf, rfl⟩ := List.mem_map.mp he
    exact (h.frames f hf).1

theorem advance {b : β} {rest : List (Frame β κ σ ε α)} {entry : Entry β κ σ}
    {start : World β κ σ α} (hentry : P entry) (hstart : start.Marked P)
    (hrest : ∀ f ∈ rest, P f.entry ∧ f.start.Marked P ∧ f.pre.Marked P) (p : Prog σ ε α) :
    ∀ {paid : List Payment} {w : World β κ σ α}, w.Marked P →
      (Evm.advance b rest entry start paid w p).Marked P := by
  induction p with
  | done s a =>
    intro paid w hw
    refine ⟨fun r hr => ?_, hrest⟩
    rcases List.mem_cons.mp hr with rfl | hr
    · exact hentry
    · exact hw r hr
  | revert e => exact fun _ => ⟨hstart, hrest⟩
  | send s dst amount resume ih =>
    intro paid w hw
    rw [Evm.advance]
    split_ifs
    · refine ⟨hw, fun f hf => ?_⟩
      rcases List.mem_cons.mp hf with rfl | hf
      · exact ⟨hentry, hstart, hw⟩
      · exact hrest f hf
    · exact ih false s hw

/-- One event marks only the call that it makes. -/
theorem step {C : Code β κ σ ε α} {e : Event β κ} (h : c.Marked P) (hstep : C.step c e = some c')
    (hcall : ∀ m, e = .call m → P ⟨c.block, m, c.world.store⟩) : c'.Marked P := by
  rcases Code.step_cases hstep with ⟨b', -, -, -, rfl⟩ | ⟨v, -, -, rfl⟩ | ⟨m, rfl, -, rfl⟩ |
    ⟨f, rest, -, hst, rfl⟩ | ⟨f, rest, -, hst, rfl⟩
  · exact ⟨h.world, h.frames⟩
  · exact ⟨h.world, h.frames⟩
  · exact advance (hcall m rfl) h.world h.frames _ h.world
  · have hframes := h.frames
    rw [hst, List.forall_mem_cons] at hframes
    exact advance hframes.1.1 hframes.1.2.1 hframes.2 _ h.world
  · have hframes := h.frames
    rw [hst, List.forall_mem_cons] at hframes
    exact advance hframes.1.1 hframes.1.2.1 hframes.2 _ hframes.1.2.2

theorem deployed (b : β) (s : σ) (supply : ℕ) :
    (Config.deployed b s supply : Config β κ σ ε α).Marked P :=
  ⟨fun _ h => absurd h List.not_mem_nil, fun _ h => absurd h List.not_mem_nil⟩

end Config.Marked

end Evm
