import Pprev.Evm.Success

/-!
# Calls made one after another

A list of calls, each made from outside in its block, whose recipients accept or fail but do not
call back (`Code.Calls`). What such a call ends with can be read off its code alone
(`Prog.Finishes`).
-/

namespace Evm

variable {β κ σ ε α : Type}

/-- The run reverts before its first point of contact. -/
def Prog.error? : Prog σ ε α → Option ε
  | .revert e => some e
  | _ => none

@[simp] theorem Prog.error?_done (s : σ) (a : α) : (done s a : Prog σ ε α).error? = none := rfl
@[simp] theorem Prog.error?_revert (e : ε) : (revert e : Prog σ ε α).error? = some e := rfl
@[simp] theorem Prog.error?_send (s : σ) (dst : Address) (amount : Uint256)
    (resume : Bool → σ → Prog σ ε α) : (send s dst amount resume).error? = none := rfl

theorem Prog.error?_eq_none {p : Prog σ ε α} : p.error? = none ↔ p.Live := by
  cases p with
  | done s a => exact iff_of_true rfl trivial
  | revert e => exact iff_of_false (by simp) id
  | send s dst amount resume => exact iff_of_true rfl trivial

/-- Code behind a check fails as the check does or as it does itself. -/
theorem Tx.error?_revertIf {c : Prop} [Decidable c] {e : ε} {f : Unit → Tx σ ε α} {s : σ} :
    ((revertIf c e >>= f) s).error? = if c then some e else (f () s).error? := by
  split_ifs with hc
  · unfold revertIf
    rw [if_pos hc]
    rfl
  · rw [revertIf_pass hc]

theorem Tx.error?_checked {β : Type} {e : ε} {x : Option α} {f : α → Tx σ ε β} {s : σ} :
    ((checked e x >>= f) s).error? = x.elim (some e) fun a => (f a s).error? := by
  cases x <;> rfl

/-- However its recipients answer, without calling back, a run that has made the transfers `paid`
ends with `Q`. -/
def Prog.Finishes (Q : List Payment → σ → α → Prop) : List Payment → Prog σ ε α → Prop
  | paid, .done s a => Q paid s a
  | _, .revert _ => False
  | paid, .send s dst amount resume =>
      ∀ ok, (resume ok s).Finishes Q (paid ++ [⟨dst, amount, ok⟩])

variable {C : Code β κ σ ε α} {answer : Config β κ σ ε α → Bool}

theorem Code.Answers.eq_of_nil {c c' : Config β κ σ ε α} (h : C.Answers answer c c')
    (hst : c.stack = []) : c' = c :=
  match h with
  | .none _ _ => rfl
  | .next _ _ _ hne _ _ => absurd hst hne

theorem Code.Answers.of_ne_nil {c c' : Config β κ σ ε α} (h : C.Answers answer c c')
    (hst : c.stack ≠ []) :
    ∃ c₁, C.step c (if answer c then .accept else .refuse) = some c₁ ∧ C.Answers answer c₁ c' :=
  match h with
  | .none _ h' => absurd h' hst
  | .next _ c₁ _ _ hstep hnext => ⟨c₁, hstep, hnext⟩

theorem Code.Answers.stack {c c' : Config β κ σ ε α} (h : C.Answers answer c c') :
    c'.stack = [] := by
  induction h with
  | none c h => exact h
  | next c c₁ c' h hstep hnext ih => exact ih

/-- The record of a call from outside that was answered. -/
theorem Prog.Finishes.answers {Q : List Payment → σ → α → Prop} {b : β} {entry : Entry β κ σ}
    {start : World β κ σ α} {c' : Config β κ σ ε α} {p : Prog σ ε α} :
    ∀ {paid : List Payment} {w : World β κ σ α}, p.Finishes Q paid →
      C.Answers answer (advance b [] entry start paid w p) c' →
      ∃ paid' a, Q paid' c'.world.store a ∧ c'.world.history = ⟨entry, paid', a⟩ :: w.history ∧
        c'.result = some (.ok a) := by
  induction p with
  | done s a =>
    intro paid w h hans
    obtain rfl := hans.eq_of_nil rfl
    exact ⟨paid, a, h, rfl, rfl⟩
  | revert e => exact fun h => absurd h id
  | send s dst amount resume ih =>
    intro paid w h hans
    rw [advance] at hans
    split_ifs at hans with hle
    · obtain ⟨c₁, hstep, hnext⟩ := hans.of_ne_nil (by simp)
      split_ifs at hstep with ha
      · obtain rfl := Option.some.inj hstep
        exact ih true s (w := World.pay { w with store := s } amount.toNat) (h true) hnext
      · obtain rfl := Option.some.inj hstep
        exact ih false s (w := { w with store := s }) (h false) hnext
    · exact ih false s (w := { w with store := s }) (h false) hans

/-- A call from outside that reverts at once leaves everything as it was. -/
theorem Code.Answers.revert {b : β} {entry : Entry β κ σ} {start w : World β κ σ α}
    {paid : List Payment} {e : ε} {c' : Config β κ σ ε α}
    (h : C.Answers answer (advance b [] entry start paid w (.revert e)) c') :
    c' = ⟨b, start, [], some (.error e)⟩ := h.eq_of_nil rfl

/-- Whatever the answers are, a call from outside returns. -/
theorem Code.answers_total (answer : Config β κ σ ε α → Bool) {b : β} {entry : Entry β κ σ}
    {start : World β κ σ α} {p : Prog σ ε α} : ∀ {paid : List Payment} {w : World β κ σ α},
      ∃ c', C.Answers answer (advance b [] entry start paid w p) c' := by
  induction p with
  | done s a => exact ⟨_, .none _ rfl⟩
  | revert e => exact ⟨_, .none _ rfl⟩
  | send s dst amount resume ih =>
    intro paid w
    rw [advance]
    split_ifs with hle
    · set f : Frame β κ σ ε α := ⟨entry, start, { w with store := s }, dst, amount, paid, resume⟩
        with hf
      cases ha : answer ⟨b, f.handed, [f], none⟩ with
      | true =>
        have hnext : ∃ c', C.Answers answer (advance b [] entry start
            (paid ++ [⟨dst, amount, true⟩]) f.handed (resume true s)) c' := ih true s
        obtain ⟨c', hc'⟩ := hnext
        exact ⟨c', .next _ _ c' (by simp) (by rw [ha]; rfl) hc'⟩
      | false =>
        have hnext : ∃ c', C.Answers answer (advance b [] entry start
            (paid ++ [⟨dst, amount, false⟩]) f.pre (resume false s)) c' := ih false s
        obtain ⟨c', hc'⟩ := hnext
        exact ⟨c', .next _ _ c' (by simp) (by rw [ha]; rfl) hc'⟩
    · exact ih false s

/-- From `c` the calls are made one after another, each in its block; the recipients of their
transfers only answer, each call in some way of its own. The configurations are those after each
call. -/
inductive Code.Calls (C : Code β κ σ ε α) :
    Config β κ σ ε α → List (β × κ) → List (Config β κ σ ε α) → Prop
  | nil (c : Config β κ σ ε α) : Calls C c [] []
  | cons {c c₁ c₂ c' : Config β κ σ ε α} {b : β} {m : κ} {calls : List (β × κ)}
      {after : List (Config β κ σ ε α)} (answer : Config β κ σ ε α → Bool)
      (hblock : C.step c (.block b) = some c₁) (hcall : C.step c₁ (.call m) = some c₂)
      (hanswers : C.Answers answer c₂ c') (hnext : Calls C c' calls after) :
      Calls C c ((b, m) :: calls) (c' :: after)

end Evm
