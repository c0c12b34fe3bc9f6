import Pprev.Evm.Discipline

/-!
# Calls that cannot be made to fail

Code is robust when it does not revert after any answer of its recipients, whatever they did to the
store meanwhile within the bounds of the discipline (`Prog.Robust`). Then a call, once made, ends
without reverting in every run that takes it to its end (`Discipline.robust_succeeds`), at any
depth and with any calls made by its recipients. Without such calls the end is also reached
(`Discipline.robust_returns`).
-/

namespace Evm

variable {β κ σ ε α : Type}

/-- The run reverts after no answer of its recipients, where a recipient may fail only if `mayFail`
says so; the store after an accepted transfer satisfies `I`, is a later one by `R`, and owes at
most `bound` together with the transfers to come. -/
def Prog.Robust (I : σ → Prop) (R : σ → σ → Prop) (owed : σ → ℕ) (bound : ℕ) (mayFail : Bool) :
    Prog σ ε α → Prop
  | .done _ _ => True
  | .revert _ => False
  | .send s _ _ resume =>
      (mayFail = true → (resume false s).Robust I R owed bound mayFail) ∧
      ∀ s', I s' → R s s' → owed s' + total (resume true s).payouts ≤ bound →
        (resume true s').Robust I R owed bound mayFail

/-- From `c`, where a call waits just above `depth` other calls, the events lead to `c'`, where it
has just ended. Unless `mayFail` says so, the recipients of that call itself do not fail. -/
inductive Code.Ends (C : Code β κ σ ε α) (depth : ℕ) (mayFail : Bool) :
    Config β κ σ ε α → List (Event β κ) → Config β κ σ ε α → Prop
  | ended (c : Config β κ σ ε α) (h : c.stack.length = depth) : Ends C depth mayFail c [] c
  | within (c c₁ c' : Config β κ σ ε α) (e : Event β κ) (es : List (Event β κ))
      (h : depth < c.stack.length) (hstep : C.step c e = some c₁)
      (hfail : mayFail = false → c.stack.length = depth + 1 → e ≠ .refuse)
      (hends : Ends C depth mayFail c₁ es c') : Ends C depth mayFail c (e :: es) c'

/-- The call has just ended, without reverting. -/
def Config.Succeeded (entry : Entry β κ σ) (rest : List (Frame β κ σ ε α))
    (c : Config β κ σ ε α) : Prop :=
  c.stack = rest ∧ ∃ paid a history, c.world.history = ⟨entry, paid, a⟩ :: history ∧
    c.result = some (.ok a)

/-- Whatever the recipients of the call do, it succeeds: it can be made, and it succeeds in every
run that takes it to its end. -/
def Code.Succeeds (C : Code β κ σ ε α) (mayFail : Bool) (c : Config β κ σ ε α) (m : κ) : Prop :=
  ∃ c₁, C.step c (.call m) = some c₁ ∧
    ∀ es c', C.Ends c.stack.length mayFail c₁ es c' →
      c'.Succeeded ⟨c.block, m, c.world.store⟩ c.stack

theorem advance_stack (b : β) (rest : List (Frame β κ σ ε α)) (entry : Entry β κ σ)
    (start : World β κ σ α) (p : Prog σ ε α) : ∀ (paid : List Payment) (w : World β κ σ α),
    (advance b rest entry start paid w p).stack = rest ∨
      ∃ f, (advance b rest entry start paid w p).stack = f :: rest := by
  induction p with
  | done s a => exact fun _ _ => .inl rfl
  | revert e => exact fun _ _ => .inl rfl
  | send s dst amount resume ih =>
    intro paid w
    rw [advance]
    split_ifs
    · exact .inr ⟨_, rfl⟩
    · exact ih false s _ _

namespace Discipline

variable {C : Code β κ σ ε α} (D : Discipline C) (b : β) (supply : ℕ) (mayFail : Bool)

/-- A waiting call whose code is robust. -/
structure Sturdy (f : Frame β κ σ ε α) : Prop where
  refused : mayFail = true →
    (f.resume false f.pre.store).Robust (D.Inv b) D.Rel D.owed supply mayFail
  accepted : ∀ s, D.Inv b s → D.Rel f.pre.store s → D.owed s + f.pending ≤ supply →
    (f.resume true s).Robust (D.Inv b) D.Rel D.owed supply mayFail

/-- The call has succeeded, or it waits with robust code. -/
def Tracked (entry : Entry β κ σ) (rest : List (Frame β κ σ ε α)) (c : Config β κ σ ε α) : Prop :=
  c.Succeeded entry rest ∨
    ∃ above f, c.stack = above ++ f :: rest ∧ f.entry = entry ∧ D.Sturdy b supply mayFail f

variable {D b supply mayFail}

theorem Tracked.advance {rest : List (Frame β κ σ ε α)} {entry : Entry β κ σ}
    {start w : World β κ σ α} {paid : List Payment} {p : Prog σ ε α} {s₀ : σ} {t : ℕ}
    (hp : p.Conforms (D.Inv b) D.Rel D.owed s₀ t) (hbal : t ≤ w.balance)
    (hr : p.Robust (D.Inv b) D.Rel D.owed supply mayFail) :
    D.Tracked b supply mayFail entry rest (Evm.advance b rest entry start paid w p) := by
  cases p with
  | done s a => exact .inl ⟨rfl, paid, a, w.history, rfl, rfl⟩
  | revert e => exact absurd hr id
  | send s dst amount resume =>
    obtain ⟨-, -, ht, -⟩ := hp
    have hle : amount.toNat ≤ w.balance := by omega
    rw [Evm.advance, if_pos hle]
    exact .inr ⟨[], _, rfl, rfl, hr.1, hr.2⟩

/-- What is on top of the call may change as long as the call itself waits. -/
theorem Tracked.above {rest above : List (Frame β κ σ ε α)} {entry : Entry β κ σ}
    {f : Frame β κ σ ε α} (hentry : f.entry = entry) (hf : D.Sturdy b supply mayFail f)
    {entry' : Entry β κ σ} {start w : World β κ σ α} {paid : List Payment} {p : Prog σ ε α} :
    D.Tracked b supply mayFail entry rest
      (Evm.advance b (above ++ f :: rest) entry' start paid w p) := by
  rcases advance_stack b (above ++ f :: rest) entry' start p paid w with h | ⟨g, h⟩
  · exact .inr ⟨above, f, h, hentry, hf⟩
  · exact .inr ⟨g :: above, f, h, hentry, hf⟩

/-- One event keeps track of a call that has not ended. -/
theorem Tracked.step {base : σ} {rest : List (Frame β κ σ ε α)} {entry : Entry β κ σ}
    {c c' : Config β κ σ ε α} {e : Event β κ} (hb : c.block = b)
    (hok : D.Ok c.block base supply c.world c.stack)
    (h : D.Tracked b supply mayFail entry rest c) (hdepth : rest.length < c.stack.length)
    (hfail : mayFail = false → c.stack.length = rest.length + 1 → e ≠ .refuse)
    (hstep : C.step c e = some c') : D.Tracked b supply mayFail entry rest c' ∧ c'.block = b := by
  subst hb
  obtain ⟨hst, -⟩ | ⟨above, f, hst, hentry, hf⟩ := h
  · rw [hst] at hdepth
    exact absurd hdepth (lt_irrefl _)
  rcases Code.step_cases hstep with ⟨b', -, hnil, -, rfl⟩ | ⟨v, -, -, rfl⟩ | ⟨m, -, -, rfl⟩ |
    ⟨g, rest', rfl, hst', rfl⟩ | ⟨g, rest', rfl, hst', rfl⟩
  · rw [hnil] at hst
    exact absurd hst.symm (by simp)
  · exact ⟨.inr ⟨above, f, hst, hentry, hf⟩, rfl⟩
  · rw [hst]
    exact ⟨Tracked.above hentry hf, advance_block _ _ _ _ _ _ _⟩
  · refine ⟨?_, advance_block _ _ _ _ _ _ _⟩
    cases above with
    | cons g' above =>
      -- a recipient further up ends
      obtain ⟨rfl, rfl⟩ := List.cons_eq_cons.mp (hst'.symm.trans hst)
      exact Tracked.above hentry hf
    | nil =>
      obtain ⟨rfl, rfl⟩ := List.cons_eq_cons.mp (hst'.symm.trans hst)
      rw [hst'] at hok
      have hs := hok.sound
      obtain ⟨-, -, hframe, hrel, -⟩ := hok
      obtain ⟨hconf, -⟩ := hframe.accepted _ hs.inv hrel
      have hbal := hs.balance
      have hsup := hs.supply
      rw [pendingTotal_cons] at hbal
      rw [← hentry]
      exact Tracked.advance hconf (by omega) (hf.accepted _ hs.inv hrel (by omega))
  · refine ⟨?_, advance_block _ _ _ _ _ _ _⟩
    cases above with
    | cons g' above =>
      obtain ⟨rfl, rfl⟩ := List.cons_eq_cons.mp (hst'.symm.trans hst)
      exact Tracked.above hentry hf
    | nil =>
      obtain ⟨rfl, rfl⟩ := List.cons_eq_cons.mp (hst'.symm.trans hst)
      have hmay : mayFail = true := by
        cases mayFail with
        | true => rfl
        | false => exact absurd rfl (hfail rfl (by rw [hst]; rfl))
      rw [hst'] at hok
      obtain ⟨-, hh, hframe, -, -⟩ := hok
      have hbal := hh.balance
      have hle := hframe.amount_le
      simp only [Frame.handed, World.pay_balance, World.pay_store, World.pay_forced,
        pendingTotal_cons] at hbal
      rw [← hentry]
      exact Tracked.advance hframe.refused (by omega) (hf.refused hmay)

theorem Tracked.ends {base : σ} {rest : List (Frame β κ σ ε α)} {entry : Entry β κ σ}
    {c c' : Config β κ σ ε α} {es : List (Event β κ)}
    (hends : C.Ends rest.length mayFail c es c') (hb : c.block = b)
    (hok : D.Ok c.block base supply c.world c.stack)
    (h : D.Tracked b supply mayFail entry rest c) : c'.Succeeded entry rest := by
  induction hends with
  | ended c hdepth =>
    obtain h | ⟨above, f, hst, -, -⟩ := h
    · exact h
    · rw [hst] at hdepth
      simp at hdepth
      omega
  | within c c₁ c' e es hdepth hstep hfail hends ih =>
    obtain ⟨h₁, hb₁⟩ := h.step hb hok hdepth hfail hstep
    exact ih hb₁ (step_ok hok hstep) h₁

/-- **Success.** A call whose code is robust succeeds whatever its recipients do. -/
theorem robust_succeeds {base : σ} {c : Config β κ σ ε α} {m : κ}
    (hok : D.Ok c.block base supply c.world c.stack) (hv : C.value m ≤ c.world.outside)
    (hr : (C.run c.block m c.world.store).Robust (D.Inv c.block) D.Rel D.owed supply mayFail) :
    C.Succeeds mayFail c m := by
  have hstep : C.step c (.call m) = some (advance c.block c.stack ⟨c.block, m, c.world.store⟩
      c.world [] (c.world.receive (C.value m)) (C.run c.block m c.world.store)) := by
    simp only [Code.step, if_pos hv]
  refine ⟨_, hstep, fun es c' hends => ?_⟩
  have hs := hok.sound
  have hbal := hs.balance
  refine Tracked.ends hends (advance_block _ _ _ _ _ _ _) (step_ok hok hstep) ?_
  exact Tracked.advance (D.conforms _ m _ hs.inv) (by rw [World.receive_balance]; omega) hr

end Discipline

/-! ## Recipients that do not call back -/

/-- When no recipient calls back the store satisfies `Q` at every point of contact. -/
def Prog.Keeps (Q : σ → Prop) : Prog σ ε α → Prop
  | .done s _ => Q s
  | .revert _ => True
  | .send s _ _ resume => Q s ∧ ∀ ok, (resume ok s).Keeps Q

/-- Every account in control accepts or fails at once, as `answer` says, until no call waits. -/
inductive Code.Answers (C : Code β κ σ ε α) (answer : Config β κ σ ε α → Bool) :
    Config β κ σ ε α → Config β κ σ ε α → Prop
  | none (c : Config β κ σ ε α) (h : c.stack = []) : Answers C answer c c
  | next (c c₁ c' : Config β κ σ ε α) (h : c.stack ≠ [])
      (hstep : C.step c (if answer c then .accept else .refuse) = some c₁)
      (hnext : Answers C answer c₁ c') : Answers C answer c c'

/-- Answers are a run of events. -/
theorem Code.Answers.exec {C : Code β κ σ ε α} {answer : Config β κ σ ε α → Bool}
    {c c' : Config β κ σ ε α} (h : C.Answers answer c c') : ∃ es, C.exec c es = some c' := by
  induction h with
  | none c h => exact ⟨[], rfl⟩
  | next c c₁ c' h hstep hnext ih =>
    obtain ⟨es, hes⟩ := ih
    refine ⟨(if answer c then .accept else .refuse) :: es, ?_⟩
    show (C.step c _).bind _ = _
    rw [hstep]
    exact hes

/-- A robust call made from outside returns when its recipients only answer. -/
theorem Discipline.robust_returns {C : Code β κ σ ε α} (D : Discipline C) {b : β} {bound : ℕ}
    {mayFail : Bool} {Q : σ → Prop} {entry : Entry β κ σ} {start : World β κ σ α}
    {answer : Config β κ σ ε α → Bool} (hans : mayFail = false → ∀ c, answer c = true)
    {p : Prog σ ε α} :
    ∀ {s₀ : σ} {t : ℕ} {paid : List Payment} {w : World β κ σ α},
      p.Conforms (D.Inv b) D.Rel D.owed s₀ t → t ≤ w.balance → t ≤ bound →
      p.Robust (D.Inv b) D.Rel D.owed bound mayFail → p.Keeps Q →
      ∃ c', C.Answers answer (advance b [] entry start paid w p) c' ∧ c'.block = b ∧
        c'.stack = [] ∧ Q c'.world.store ∧ c'.world.balance ≤ w.balance ∧
        c'.world.forced = w.forced := by
  induction p with
  | done s a =>
    intro s₀ t paid w hp hw hb hr hq
    exact ⟨_, .none _ rfl, rfl, rfl, hq, le_refl _, rfl⟩
  | revert e =>
    intro s₀ t paid w hp hw hb hr hq
    exact absurd hr id
  | send s dst amount resume ih =>
    intro s₀ t paid w hp hw hb hr hq
    obtain ⟨hI, -, ht, hfalse, -, htrue⟩ := hp
    have hle : amount.toNat ≤ w.balance := by omega
    rw [advance, if_pos hle]
    set f : Frame β κ σ ε α := ⟨entry, start, { w with store := s }, dst, amount, paid, resume⟩
      with hf
    cases ha : answer ⟨b, f.handed, [f], none⟩ with
    | true =>
      have hbal : D.owed s + Prog.total (resume true s).payouts ≤ f.handed.balance := by
        show _ ≤ w.balance - amount.toNat
        omega
      have hreturns : ∃ c', C.Answers answer (advance b [] entry start
          (paid ++ [⟨dst, amount, true⟩]) f.handed (resume true s)) c' ∧ c'.block = b ∧
          c'.stack = [] ∧ Q c'.world.store ∧ c'.world.balance ≤ f.handed.balance ∧
          c'.world.forced = f.handed.forced :=
        ih true s (htrue s hI (D.rel_refl s)).1 hbal (by omega)
          (hr.2 s hI (D.rel_refl s) (by omega)) (hq.2 true)
      obtain ⟨c', hrun, hblock, hst, hQ, hbal', hforced⟩ := hreturns
      exact ⟨c', .next _ _ c' (by simp) (by rw [ha]; rfl) hrun, hblock, hst, hQ,
        hbal'.trans (Nat.sub_le _ _), hforced⟩
    | false =>
      have hmay : mayFail = true := by
        cases mayFail with
        | true => rfl
        | false => rw [hans rfl] at ha; cases ha
      have hreturns : ∃ c', C.Answers answer (advance b [] entry start
          (paid ++ [⟨dst, amount, false⟩]) f.pre (resume false s)) c' ∧ c'.block = b ∧
          c'.stack = [] ∧ Q c'.world.store ∧ c'.world.balance ≤ f.pre.balance ∧
          c'.world.forced = f.pre.forced :=
        ih false s hfalse hw hb (hr.1 hmay) (hq.2 false)
      obtain ⟨c', hrun, hblock, hst, hQ, hbal', hforced⟩ := hreturns
      exact ⟨c', .next _ _ c' (by simp) (by rw [ha]; rfl) hrun, hblock, hst, hQ, hbal', hforced⟩

end Evm
