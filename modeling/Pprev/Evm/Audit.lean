import Pprev.Evm.Discipline
import Mathlib.Data.List.Perm.Basic
import Mathlib.Data.List.Pairwise

/-!
# What stays true of the calls a contract has accepted

A call is accepted when its code does not revert before its first point of contact; it stays
accepted unless the call, or a recipient whose control it was made under, fails later. In every
configuration of every run the present store evolved from what each accepted call left at its first
point of contact (`Discipline.Stands`). An audit of a disciplined contract names tokens that a call
takes, that were free before it, and that stay taken. Then no two accepted calls took the same
token, and the tokens that are taken are those the accepted calls took (`Audit.exec_ok`).
-/

namespace Evm

variable {β κ σ ε α : Type}

/-- The store at the first point of contact satisfies `P`. -/
def Prog.First (P : σ → Prop) : Prog σ ε α → Prop
  | .done s _ => P s
  | .revert _ => True
  | .send s _ _ _ => P s

/-- A conforming run reaches its first point of contact by an evolution of the store. -/
theorem Prog.Conforms.first {I : σ → Prop} {R : σ → σ → Prop} {owed : σ → ℕ} {P : σ → Prop}
    {s₀ : σ} {t : ℕ} {p : Prog σ ε α} (h : p.Conforms I R owed s₀ t)
    (hP : ∀ s, R s₀ s → P s) : p.First P := by
  cases p with
  | done s a => exact hP s h.2.1
  | revert e => trivial
  | send s dst amount resume => exact hP s h.2.1

theorem Prog.First.mono {P Q : σ → Prop} {p : Prog σ ε α} (h : p.First P) (hPQ : ∀ s, P s → Q s) :
    p.First Q := by
  cases p with
  | done s a => exact hPQ s h
  | revert e => trivial
  | send s dst amount resume => exact hPQ s h

/-- The run reaches its first point of contact with the store `s₁`. -/
def Prog.At (s₁ : σ) : Prog σ ε α → Prop
  | .done s _ => s = s₁
  | .revert _ => False
  | .send s _ _ _ => s = s₁

theorem Prog.At.live {s₁ : σ} {p : Prog σ ε α} (h : p.At s₁) : p.Live := by
  cases p with
  | done s a => trivial
  | revert e => exact h
  | send s dst amount resume => trivial

theorem Prog.At.first_iff {s₁ : σ} {p : Prog σ ε α} {P : σ → Prop} (h : p.At s₁) :
    p.First P ↔ P s₁ := by
  cases p with
  | done s a => exact Eq.to_iff (congrArg P h)
  | revert e => exact absurd h id
  | send s dst amount resume => exact Eq.to_iff (congrArg P h)

/-- At its first point of contact a conforming run owes what it does not pay. -/
theorem Prog.Conforms.owed_at {I : σ → Prop} {R : σ → σ → Prop} {owed : σ → ℕ} {s₀ s₁ : σ} {t : ℕ}
    {p : Prog σ ε α} (h : p.Conforms I R owed s₀ t) (hat : p.At s₁) :
    owed s₁ + total p.payouts = t := by
  cases p with
  | done s a =>
    obtain rfl : s = s₁ := hat
    exact h.2.2
  | revert e => exact absurd hat id
  | send s dst amount resume =>
    obtain rfl : s = s₁ := hat
    obtain ⟨-, -, howed, -⟩ := h
    rw [payouts, total_cons, ← Nat.add_assoc]
    exact howed

/-- Between any two points of contact the run adds only what satisfies `M`. -/
def Prog.Adds {ι : Type} (present : σ → ι → Prop) (M : ι → Prop) : σ → Prog σ ε α → Prop
  | s₀, .done s _ => ∀ i, present s i → present s₀ i ∨ M i
  | _, .revert _ => True
  | s₀, .send s _ _ resume =>
      (∀ i, present s i → present s₀ i ∨ M i) ∧ (resume false s).Adds present M s ∧
      ∀ s', (resume true s').Adds present M s'

theorem Prog.Adds.of_start {ι : Type} {present : σ → ι → Prop} {M : ι → Prop} {s₀ s₁ : σ}
    {p : Prog σ ε α} (hs : ∀ i, present s₁ i → present s₀ i ∨ M i) (h : p.Adds present M s₁) :
    p.Adds present M s₀ := by
  have hstart : ∀ s, (∀ i, present s i → present s₁ i ∨ M i) →
      ∀ i, present s i → present s₀ i ∨ M i :=
    fun s h i hi => (h i hi).elim (hs i) .inr
  cases p with
  | done s a => exact hstart s h
  | revert e => trivial
  | send s dst amount resume => exact ⟨hstart s h.1, h.2⟩

/-- Between any two points of contact the run moves the store by `Q`. -/
def Prog.Moves (Q : σ → σ → Prop) : σ → Prog σ ε α → Prop
  | s₀, .done s _ => Q s₀ s
  | _, .revert _ => True
  | s₀, .send s _ _ resume =>
      Q s₀ s ∧ (resume false s).Moves Q s ∧ ∀ s', (resume true s').Moves Q s'

/-- From its first point of contact on the run moves the store by `Q`. -/
def Prog.Later (Q : σ → σ → Prop) : Prog σ ε α → Prop
  | .done _ _ => True
  | .revert _ => True
  | .send s _ _ resume => (resume false s).Moves Q s ∧ ∀ s', (resume true s').Moves Q s'

theorem Prog.Moves.later {Q : σ → σ → Prop} {s₀ : σ} {p : Prog σ ε α} (h : p.Moves Q s₀) :
    p.Later Q := by
  cases p with
  | done s a => trivial
  | revert e => trivial
  | send s dst amount resume => exact h.2

theorem Prog.Moves.first {Q : σ → σ → Prop} {s₀ : σ} {p : Prog σ ε α} (h : p.Moves Q s₀) :
    p.First (Q s₀) := by
  cases p with
  | done s a => exact h
  | revert e => trivial
  | send s dst amount resume => exact h.1

theorem Prog.Moves.of_start {Q : σ → σ → Prop} (htrans : ∀ s s' s'', Q s s' → Q s' s'' → Q s s'')
    {s₀ s₁ : σ} {p : Prog σ ε α} (hQ : Q s₀ s₁) (h : p.Moves Q s₁) : p.Moves Q s₀ := by
  cases p with
  | done s a => exact htrans _ _ _ hQ h
  | revert e => trivial
  | send s dst amount resume => exact ⟨htrans _ _ _ hQ h.1, h.2⟩

/-- A run that does not change what is present adds nothing. -/
theorem Prog.Moves.adds {ι : Type} {present : σ → ι → Prop} {M : ι → Prop} {Q : σ → σ → Prop}
    (hQ : ∀ s s' i, Q s s' → present s' i → present s i) {p : Prog σ ε α} :
    ∀ {s₀ : σ}, p.Moves Q s₀ → p.Adds present M s₀ := by
  induction p with
  | done s a => exact fun h i hi => .inl (hQ _ _ i h hi)
  | revert e => exact fun _ => trivial
  | send s dst amount resume ih =>
    intro s₀ h
    exact ⟨fun i hi => .inl (hQ _ _ i h.1 hi), ih false s h.2.1, fun s' => ih true s' (h.2.2 s')⟩

/-- The accepted calls: those that ended, and those that wait for a recipient. -/
def accepted (w : World β κ σ α) (stack : List (Frame β κ σ ε α)) : List (Entry β κ σ) :=
  w.history.map Record.entry ++ stack.map Frame.entry

/-- A call that begins to wait takes its place among the accepted ones. -/
theorem accepted_cons_perm (w : World β κ σ α) (f : Frame β κ σ ε α)
    (rest : List (Frame β κ σ ε α)) :
    (accepted w (f :: rest)).Perm (f.entry :: accepted w rest) := List.perm_middle

/-- The call was made on a store with the invariant and did not revert at once, and the store `s`
evolved from what it left at its first point of contact. -/
structure Discipline.Stands {C : Code β κ σ ε α} (D : Discipline C) (e : Entry β κ σ) (s : σ) :
    Prop where
  inv : D.Inv e.block e.before
  live : (C.run e.block e.msg e.before).Live
  since : (C.run e.block e.msg e.before).First fun s₁ => D.Rel s₁ s

theorem Discipline.stands_first {C : Code β κ σ ε α} {D : Discipline C} {b : β} {m : κ} {s : σ}
    (hinv : D.Inv b s) (hl : (C.run b m s).Live) : (C.run b m s).First (D.Stands ⟨b, m, s⟩) := by
  have hstands : ∀ s', (C.run b m s).First (fun s₁ => D.Rel s₁ s') → D.Stands ⟨b, m, s⟩ s' :=
    fun s' hs' => ⟨hinv, hl, hs'⟩
  generalize C.run b m s = p at hstands ⊢
  cases p with
  | done s' a => exact hstands s' (D.rel_refl s')
  | revert e => trivial
  | send s' dst amount resume => exact hstands s' (D.rel_refl s')

structure Audit {C : Code β κ σ ε α} (D : Discipline C) (ι : Type) where
  tokens : Entry β κ σ → ι → Prop
  taken : σ → ι → Prop
  taken_rel : ∀ {s s' i}, D.Rel s s' → taken s i → taken s' i
  takes : ∀ b m s, D.Inv b s → (C.run b m s).Live →
    (C.run b m s).First fun s₁ => ∀ i, tokens ⟨b, m, s⟩ i → taken s₁ i
  free : ∀ b m s, D.Inv b s → (C.run b m s).Live → ∀ i, tokens ⟨b, m, s⟩ i → ¬ taken s i
  adds : ∀ b m s, D.Inv b s → (C.run b m s).Adds taken (tokens ⟨b, m, s⟩) s

namespace Audit

variable {C : Code β κ σ ε α} {D : Discipline C} {ι : Type} (A : Audit D ι)

/-- Two calls take the same token. -/
def Clash (e e' : Entry β κ σ) : Prop := ∃ i, A.tokens e i ∧ A.tokens e' i

/-- The store of a world evolved from all accepted calls, no two of these took the same token, and
one of them took each token that is taken. -/
structure Clean (w : World β κ σ α) (stack : List (Frame β κ σ ε α)) : Prop where
  stands : ∀ e ∈ accepted w stack, D.Stands e w.store
  pairwise : (accepted w stack).Pairwise fun e e' => ¬ A.Clash e e'
  made : ∀ i, A.taken w.store i → ∃ e ∈ accepted w stack, A.tokens e i

/-- A waiting call takes only its own tokens when it is resumed. -/
structure FrameOk (f : Frame β κ σ ε α) : Prop where
  refused : (f.resume false f.pre.store).Adds A.taken (A.tokens f.entry) f.pre.store
  accepted : ∀ s, (f.resume true s).Adds A.taken (A.tokens f.entry) s

/-- The current world, every world a waiting call may be taken back to, and every waiting call. -/
def Ok : World β κ σ α → List (Frame β κ σ ε α) → Prop
  | w, [] => A.Clean w []
  | w, f :: rest => A.Clean w (f :: rest) ∧ A.Clean f.pre (f :: rest) ∧ A.FrameOk f ∧
      Ok f.start rest

variable {A}

theorem Ok.clean {w : World β κ σ α} {stack : List (Frame β κ σ ε α)} (h : A.Ok w stack) :
    A.Clean w stack := by
  cases stack with
  | nil => exact h
  | cons f rest => exact h.1

theorem Ok.replace {w w' : World β κ σ α} {stack : List (Frame β κ σ ε α)} (h : A.Ok w stack)
    (hw : A.Clean w' stack) : A.Ok w' stack := by
  cases stack with
  | nil => exact hw
  | cons f rest => exact ⟨hw, h.2⟩

theorem not_clash_comm (e e' : Entry β κ σ) : ¬ A.Clash e e' → ¬ A.Clash e' e :=
  mt fun ⟨i, h', h⟩ => ⟨i, h, h'⟩

/-- An accepted call has taken its tokens. -/
theorem taken_of_stands {e : Entry β κ σ} {s : σ} (h : D.Stands e s) {i : ι} (hi : A.tokens e i) :
    A.taken s i := by
  have hsince := h.since
  have htakes := A.takes e.block e.msg e.before h.inv h.live
  have hlive := h.live
  generalize C.run e.block e.msg e.before = p at hsince htakes hlive
  cases p with
  | done s₁ a => exact A.taken_rel hsince (htakes i hi)
  | revert err => exact absurd hlive id
  | send s₁ dst amount resume => exact A.taken_rel hsince (htakes i hi)

/-- What it takes for the accepted calls to be clean with one more call `e`, before the store
moves from `s₀` on. -/
structure Ready (e : Entry β κ σ) (es : List (Entry β κ σ)) (s₀ : σ) : Prop where
  stands : ∀ e' ∈ es, D.Stands e' s₀
  pairwise : (e :: es).Pairwise fun e e' => ¬ A.Clash e e'
  made : ∀ i, A.taken s₀ i → ∃ e' ∈ e :: es, A.tokens e' i

theorem Ready.clean {e : Entry β κ σ} {es : List (Entry β κ σ)} {s₀ : σ} {w : World β κ σ α}
    {stack : List (Frame β κ σ ε α)} (h : Ready (A := A) e es s₀) (hR : D.Rel s₀ w.store)
    (hperm : (accepted w stack).Perm (e :: es)) (he : D.Stands e w.store)
    (hadds : ∀ i, A.taken w.store i → A.taken s₀ i ∨ A.tokens e i) : A.Clean w stack := by
  refine ⟨fun e' he' => ?_, ?_, fun i hi => ?_⟩
  · rcases List.mem_cons.mp (hperm.mem_iff.mp he') with rfl | he'
    · exact he
    · have hs := h.stands e' he'
      exact ⟨hs.inv, hs.live, hs.since.mono fun s₁ h₁ => D.rel_trans h₁ hR⟩
  · exact (hperm.pairwise_iff fun {e e'} => not_clash_comm e e').mpr h.pairwise
  · obtain ⟨e', he', hmade⟩ : ∃ e' ∈ e :: es, A.tokens e' i :=
      (hadds i hi).elim (h.made i) fun hmade => ⟨e, List.mem_cons_self, hmade⟩
    exact ⟨e', hperm.mem_iff.mpr he', hmade⟩

theorem Clean.ready {w : World β κ σ α} {f : Frame β κ σ ε α} {rest : List (Frame β κ σ ε α)}
    (h : A.Clean w (f :: rest)) : Ready (A := A) f.entry (accepted w rest) w.store := by
  have hperm := accepted_cons_perm w f rest
  refine ⟨fun e he => ?_, ?_, fun i hi => ?_⟩
  · exact h.stands e (hperm.mem_iff.mpr (List.mem_cons_of_mem _ he))
  · exact (hperm.pairwise_iff fun {e e'} => not_clash_comm e e').mp h.pairwise
  · obtain ⟨e, he, hmade⟩ := h.made i hi
    exact ⟨e, hperm.mem_iff.mp he, hmade⟩

theorem Ok.advance {b : β} {rest : List (Frame β κ σ ε α)} {entry : Entry β κ σ}
    {start : World β κ σ α} {p : Prog σ ε α} (hstart : A.Ok start rest) :
    ∀ {paid : List Payment} {w : World β κ σ α} {s₀ : σ} {t : ℕ},
      p.Conforms (D.Inv b) D.Rel D.owed s₀ t → p.Adds A.taken (A.tokens entry) s₀ →
      p.First (D.Stands entry) →
      (p.Live → Ready (A := A) entry (accepted w rest) s₀) →
      A.Ok (Evm.advance b rest entry start paid w p).world
        (Evm.advance b rest entry start paid w p).stack := by
  induction p with
  | revert e => intros; exact hstart
  | done s a =>
    intro paid w s₀ t hp hadds hfirst hready
    exact hstart.replace ((hready trivial).clean hp.2.1 (List.Perm.refl _) hfirst hadds)
  | send s dst amount resume ih =>
    intro paid w s₀ t hp hadds hfirst hready
    have hr := hready trivial
    rw [Evm.advance]
    split_ifs with hle
    · exact ⟨hr.clean hp.2.1 List.perm_middle hfirst hadds.1,
        hr.clean hp.2.1 List.perm_middle hfirst hadds.1, ⟨hadds.2.1, hadds.2.2⟩, hstart⟩
    · -- the transfer fails at once
      obtain ⟨-, hR, -, hfalse, -⟩ := hp
      refine ih false s (w := { w with store := s }) hfalse hadds.2.1
        (hfalse.first fun s' hs' => ?_) fun _ => ?_
      · exact ⟨hfirst.inv, hfirst.live, hfirst.since.mono fun s₁ h₁ => D.rel_trans h₁ hs'⟩
      · refine ⟨fun e he => ?_, hr.pairwise, fun i hi => ?_⟩
        · have hs := hr.stands e he
          exact ⟨hs.inv, hs.live, hs.since.mono fun s₁ h₁ => D.rel_trans h₁ hR⟩
        · exact (hadds.1 i hi).elim (hr.made i) fun hmade => ⟨entry, List.mem_cons_self, hmade⟩

/-- One event keeps the accepted calls clean. -/
theorem step_ok {base : σ} {supply : ℕ} {c c' : Config β κ σ ε α} {e : Event β κ}
    (hD : D.Ok c.block base supply c.world c.stack) (h : A.Ok c.world c.stack)
    (hstep : C.step c e = some c') : A.Ok c'.world c'.stack := by
  have hs := hD.sound
  have hc := h.clean
  rcases Code.step_cases hstep with ⟨b', -, -, -, rfl⟩ | ⟨v, -, -, rfl⟩ | ⟨m, -, -, rfl⟩ |
    ⟨f, rest, -, hst, rfl⟩ | ⟨f, rest, -, hst, rfl⟩
  · exact h
  · exact h.replace ⟨hc.stands, hc.pairwise, hc.made⟩
  · have hconf := D.conforms c.block m c.world.store hs.inv
    -- a call that reverts at once is not accepted
    rcases (C.run c.block m c.world.store).live_or_revert with hl | ⟨err, herr⟩
    · refine Ok.advance h hconf (A.adds _ _ _ hs.inv) (Discipline.stands_first hs.inv hl)
        fun _ => ?_
      refine ⟨hc.stands, List.pairwise_cons.mpr ⟨fun e he => ?_, hc.pairwise⟩, fun i hi => ?_⟩
      · exact fun ⟨i, hi, hi'⟩ =>
          A.free _ _ _ hs.inv hl i hi (taken_of_stands (hc.stands e he) hi')
      · obtain ⟨e, he, hmade⟩ := hc.made i hi
        exact ⟨e, List.mem_cons_of_mem _ he, hmade⟩
    · rw [herr]
      exact h
  · rw [hst] at hD h hc hs
    obtain ⟨-, -, hf, hrel, -⟩ := hD
    obtain ⟨-, -, hframe, hstart⟩ := h
    obtain ⟨hconf, -⟩ := hf.accepted _ hs.inv hrel
    have he := hc.stands f.entry ((accepted_cons_perm c.world f rest).mem_iff.mpr List.mem_cons_self)
    refine Ok.advance hstart hconf (hframe.accepted _) (hconf.first fun s hR => ?_)
      fun _ => hc.ready
    exact ⟨he.inv, he.live, he.since.mono fun s₁ h₁ => D.rel_trans h₁ hR⟩
  · rw [hst] at hD h
    obtain ⟨-, -, hf, -, -⟩ := hD
    obtain ⟨-, hpre, hframe, hstart⟩ := h
    have he := hpre.stands f.entry ((accepted_cons_perm f.pre f rest).mem_iff.mpr List.mem_cons_self)
    refine Ok.advance hstart hf.refused hframe.refused (hf.refused.first fun s hR => ?_)
      fun _ => hpre.ready
    exact ⟨he.inv, he.live, he.since.mono fun s₁ h₁ => D.rel_trans h₁ hR⟩

/-- **Audit.** Along every run the accepted calls stay clean. -/
theorem exec_ok {base : σ} {supply : ℕ} {c c' : Config β κ σ ε α} {es : List (Event β κ)}
    (hD : D.Ok c.block base supply c.world c.stack) (h : A.Ok c.world c.stack)
    (hrun : C.exec c es = some c') : A.Ok c'.world c'.stack := by
  have key := Code.exec_induction
    (P := fun c => D.Ok c.block base supply c.world c.stack ∧ A.Ok c.world c.stack)
    (fun _ _ _ hP hstep => ⟨Discipline.step_ok hP.1 hstep, step_ok hP.1 hP.2 hstep⟩) ⟨hD, h⟩ hrun
  exact key.2

theorem deployed_ok {b : β} {s : σ} {supply : ℕ} (hnone : ∀ i, ¬ A.taken s i) :
    A.Ok (Config.deployed (ε := ε) b s supply : Config β κ σ ε α).world [] :=
  ⟨fun _ h => absurd h List.not_mem_nil, List.Pairwise.nil, fun i hi => absurd hi (hnone i)⟩

theorem reachable_ok {b : β} {s : σ} {supply : ℕ} {c : Config β κ σ ε α} (hinv : D.Inv b s)
    (howed : D.owed s = 0) (hnone : ∀ i, ¬ A.taken s i) (h : C.Reachable b s supply c) :
    A.Ok c.world c.stack :=
  let ⟨_, hrun⟩ := h
  exec_ok (Discipline.deployed_ok hinv howed) (deployed_ok hnone) hrun

end Audit

end Evm
