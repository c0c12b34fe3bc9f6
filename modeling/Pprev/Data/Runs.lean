import Mathlib.Data.List.Induction
import Mathlib.Data.Nat.Init

/-!
# Runs

Systems that take one step after another, and the rule by which a fact about a step becomes one
about a run: the events of a transition system, the turns of a loop, the chunks of an input.
-/

/-!
## Traces

The traces of a labelled transition system from a first state, and the rule by which a relation
between the trace so far and the state holds at every moment.
-/

namespace Trace

variable {σ ε : Type*} {step : σ → ε → σ → Prop} {init s : σ} {es : List ε}

/-- The system comes to the state with these events behind it, the oldest first. -/
inductive Runs (step : σ → ε → σ → Prop) (init : σ) : List ε → σ → Prop where
  | start : Runs step init [] init
  | snoc {es : List ε} {s t : σ} {e : ε} :
      Runs step init es s → step s e t → Runs step init (es ++ [e]) t

/-- **Invariants.** -/
theorem Runs.invariant (Inv : List ε → σ → Prop) (start : Inv [] init)
    (snoc : ∀ {es s e t}, Inv es s → step s e t → Inv (es ++ [e]) t)
    (h : Runs step init es s) : Inv es s := by
  induction h with
  | start => exact start
  | snoc _ hstep ih => exact snoc ih hstep

theorem Runs.eq_init (h : Runs step init [] s) : s = init := by
  generalize hes : ([] : List ε) = es at h
  cases h with
  | start => rfl
  | snoc => simp at hes

theorem Runs.of_snoc {e : ε} {t : σ} (h : Runs step init (es ++ [e]) t) :
    ∃ s, Runs step init es s ∧ step s e t := by
  generalize hds : es ++ [e] = ds at h
  cases h with
  | start => simp at hds
  | snoc hrun hstep =>
    obtain ⟨rfl, hlast⟩ := List.append_inj' hds rfl
    obtain rfl := (List.cons.inj hlast).1
    exact ⟨_, hrun, hstep⟩

/-- A trace is that of a run to the state in between and of a run from there. -/
theorem Runs.of_append {ds : List ε} {t : σ} (h : Runs step init (es ++ ds) t) :
    ∃ s, Runs step init es s ∧ Runs step s ds t := by
  induction ds using List.reverseRecOn generalizing t with
  | nil => exact ⟨t, by simpa using h, .start⟩
  | append_singleton ds e ih =>
    rw [← List.append_assoc] at h
    obtain ⟨u, hrun, hstep⟩ := h.of_snoc
    obtain ⟨s, hfront, hrest⟩ := ih hrun
    exact ⟨s, hfront, hrest.snoc hstep⟩

theorem Runs.of_cons {e : ε} {t : σ} (h : Runs step init (e :: es) t) :
    ∃ s, step init e s ∧ Runs step s es t := by
  obtain ⟨s, hone, hrest⟩ := of_append (show Runs step init ([e] ++ es) t from h)
  obtain ⟨u, hnone, hstep⟩ := of_snoc (show Runs step init ([] ++ [e]) s from hone)
  cases hnone.eq_init
  exact ⟨s, hstep, hrest⟩

end Trace

/-!
## Loops

The runs of a `while` loop over a state, and the rule of total correctness: an invariant that every
turn keeps and a number that every turn lowers.
-/

namespace Loop

variable {σ α : Type*} {cond : σ → Prop} {body : σ → σ → Prop}

/-- The loop that is entered in the first state ends in the second. -/
inductive Ends (cond : σ → Prop) (body : σ → σ → Prop) : σ → σ → Prop where
  | exit {s : σ} : ¬cond s → Ends cond body s s
  | turn {s t u : σ} : cond s → body s t → Ends cond body t u → Ends cond body s u

theorem Ends.not_cond {s t : σ} (h : Ends cond body s t) : ¬cond t := by
  induction h with
  | exit hcond => exact hcond
  | turn _ _ _ ih => exact ih

/-- What one turn leaves as it is, the loop leaves as it is. -/
theorem Ends.eq {s t : σ} (h : Ends cond body s t) {f : σ → α}
    (hf : ∀ s t, cond s → body s t → f s = f t) : f s = f t := by
  induction h with
  | exit => rfl
  | turn hcond hbody _ ih => exact (hf _ _ hcond hbody).trans ih

/-- **Total correctness.** -/
theorem exists_ends {Inv : σ → Prop} (variant : σ → ℕ)
    (step : ∀ s, Inv s → cond s → ∃ t, body s t ∧ Inv t ∧ variant t < variant s) {s : σ}
    (h : Inv s) : ∃ t, Ends cond body s t ∧ Inv t := by
  induction hn : variant s using Nat.strong_induction_on generalizing s with
  | _ n ih =>
    by_cases hcond : cond s
    · obtain ⟨t, hbody, hinv, hlt⟩ := step s h hcond
      obtain ⟨u, hends, hu⟩ := ih _ (hn ▸ hlt) hinv rfl
      exact ⟨u, .turn hcond hbody hends, hu⟩
    · exact ⟨s, .exit hcond, h⟩

end Loop

/-!
## Decisions on a growing buffer

A decision that is made again each time a chunk arrives. If a decision stands on every longer
buffer, the first one does not depend on how the input is cut into chunks.
-/

namespace Incremental

variable {α β : Type} (decide : List α → Option β)

/-- What is decided on a buffer stands on every extension of it. -/
def Stable : Prop := ∀ buf more b, decide buf = some b → decide (buf ++ more) = some b

/-- The first decision on a buffer to which chunks are added. -/
def first : List α → List (List α) → Option β
  | _, [] => none
  | buf, chunk :: chunks =>
    match decide (buf ++ chunk) with
    | some b => some b
    | none => first (buf ++ chunk) chunks

variable {decide}

/-- The first decision is the one on the whole input. -/
theorem Stable.first_eq (h : Stable decide) {buf : List α} (hbuf : decide buf = none)
    (chunks : List (List α)) : first decide buf chunks = decide (buf ++ chunks.flatten) := by
  induction chunks generalizing buf with
  | nil => rw [first, List.flatten_nil, List.append_nil, hbuf]
  | cons chunk chunks ih =>
    rw [first, List.flatten_cons, ← List.append_assoc]
    split
    next b hb => exact (h _ _ _ hb).symm
    next hnone => exact ih hnone

end Incremental
