import Mathlib.Data.List.Basic
import Pprev.Prover.Session

/-!
# The order of a failure and the driver's end

A failure of the prover before preprocessing completed and the end of the session driver, each
visible within `CUT_GRACE` of the other, in every order: what the session returns for them.
-/

namespace Pprev

namespace Prover

/-- A failure before preprocessing completed. -/
inductive EarlyFailure where
  | timesOut
  | fails (e : ForeignError)
  deriving DecidableEq

def EarlyFailure.preprocessing : EarlyFailure → Preprocessing
  | timesOut => .timesOut
  | fails e => .fails e

/-- Which side is observed first, and how often the session is polled before and in between. -/
inductive Order where
  | proverFirst (idle wait : ℕ)
  | driverFirst (idle wait : ℕ)
  | together (idle : ℕ)
  deriving DecidableEq

/-- A poll at which nothing has happened. -/
def idlePoll : Event := .pollMpc (.before .pending) false

def Order.events (order : Order) (p : EarlyFailure) (d : DriverEnd) : List Event :=
  match order with
  | proverFirst idle wait => List.replicate idle idlePoll ++
    .pollMpc (.before p.preprocessing) false ::
      (List.replicate wait (.pollDriver false) ++ [.driverEnds d, .pollDriver false])
  | driverFirst idle wait => List.replicate idle idlePoll ++
    .driverEnds d :: idlePoll ::
      (List.replicate wait idlePoll ++ [.pollMpc (.before p.preprocessing) false])
  | together idle => List.replicate idle idlePoll ++
    [.driverEnds d, .pollMpc (.before p.preprocessing) false, .pollDriver false]

section

variable (timeout : String)

/-- The session returns a stall, which is retried. -/
def Retryable (p : EarlyFailure) (d : DriverEnd) (order : Order) : Prop :=
  ∃ s e, run timeout .init (order.events p d) = some s ∧ s.main = .returned (.error e) ∧ e.IsStall

/-- The error of an early failure. -/
def EarlyFailure.error : EarlyFailure → AnyhowError
  | timesOut => .preprocessingStalled ("did not finish within " ++ timeout)
  | fails e => .foreign e

variable {timeout} {p : EarlyFailure} {d : DriverEnd}

theorem runMpc_early : runMpc timeout false (.before p.preprocessing) =
    some (false, some (.error (p.error timeout))) := by
  cases p <;> rfl

/-- A step that is taken any number of times and changes nothing. -/
theorem run_replicate {s : Session} {event : Event} (h : step timeout s event = some s) (n : ℕ) :
    run timeout s (List.replicate n event) = some s := by
  induction n with
  | zero => rfl
  | succ n ih => exact run_cons.mpr ⟨s, h, ih⟩

/-- The error of the select, which asks the driver about an ambiguous failure only. -/
def selectError (e : AnyhowError) (d : DriverEnd) : AnyhowError :=
  if e.IsStall then e
  else decide (some (e, failureOf e)) (if failureOf e = .lossy then some d else none)

variable (timeout p d) in
/-- The error that the session returns. -/
def Order.error : Order → AnyhowError
  | proverFirst _ _ => selectError (p.error timeout) d
  | driverFirst _ _ => afterDriverEnd d false (some (.error (p.error timeout)))
  | together _ => selectError (p.error timeout) d

theorem selectMpc_early (e : AnyhowError) (d : DriverEnd) :
    selectMpc false (.error e) = .returned (.error (selectError e d)) ∨
      selectMpc false (.error e) = .awaitingDriver e ∧
        selectError e d = decide (some (e, .lossy)) (some d) := by
  unfold selectMpc selectError
  by_cases he : e.IsStall
  · simp [he]
  · cases hfailure : failureOf e <;> simp [he, hfailure]

/-- The select after a failure of the prover, until the driver's end is visible. -/
theorem run_select {driver : Option DriverEnd} {more : List Event} {e : AnyhowError}
    (hreturned : ∀ e', run timeout ⟨false, driver, .returned (.error e')⟩ more =
      some ⟨false, some d, .returned (.error e')⟩)
    (hawaiting : run timeout ⟨false, driver, .awaitingDriver e⟩ more =
      some ⟨false, some d, .returned (.error (decide (some (e, .lossy)) (some d)))⟩) :
    run timeout ⟨false, driver, selectMpc false (.error e)⟩ more =
      some ⟨false, some d, .returned (.error (selectError e d))⟩ := by
  obtain hmain | ⟨hmain, herror⟩ := selectMpc_early e d
  · rw [hmain, hreturned]
  · rw [hmain, hawaiting, herror]

theorem run_order (order : Order) : run timeout .init (order.events p d) =
    some ⟨false, some d, .returned (.error (order.error timeout p d))⟩ := by
  have hidle (n : ℕ) : run timeout .init (List.replicate n idlePoll) = some .init :=
    run_replicate rfl n
  have hselect (driver : Option DriverEnd) :
      step timeout ⟨false, driver, .selecting⟩ (.pollMpc (.before p.preprocessing) false) =
        some ⟨false, driver, selectMpc false (.error (p.error timeout))⟩ := by
    simp only [step, runMpc_early]
    rfl
  cases order with
  | proverFirst idle wait =>
    refine run_append.mpr ⟨_, hidle idle, run_cons.mpr ⟨_, hselect none, ?_⟩⟩
    refine run_select (fun e' => ?_) ?_
    · refine run_append.mpr ⟨_, run_replicate rfl wait, ?_⟩
      exact run_cons.mpr ⟨_, rfl, run_cons.mpr ⟨_, rfl, rfl⟩⟩
    · refine run_append.mpr ⟨_, run_replicate rfl wait, ?_⟩
      exact run_cons.mpr ⟨_, rfl, run_cons.mpr ⟨_, rfl, rfl⟩⟩
  | driverFirst idle wait =>
    have hgrace : step timeout ⟨false, some d, .awaitingMpc d⟩
        (.pollMpc (.before p.preprocessing) false) = some ⟨false, some d,
          .returned (.error (afterDriverEnd d false (some (.error (p.error timeout)))))⟩ := by
      simp only [step, runMpc_early]
      rfl
    refine run_append.mpr ⟨_, hidle idle, run_cons.mpr ⟨_, rfl, run_cons.mpr ⟨_, rfl, ?_⟩⟩⟩
    refine run_append.mpr ⟨_, run_replicate rfl wait, ?_⟩
    exact run_cons.mpr ⟨_, hgrace, rfl⟩
  | together idle =>
    refine run_append.mpr ⟨_, hidle idle, run_cons.mpr ⟨_, rfl, run_cons.mpr ⟨_, hselect _, ?_⟩⟩⟩
    refine run_select (fun e' => ?_) ?_
    · exact run_cons.mpr ⟨_, rfl, rfl⟩
    · exact run_cons.mpr ⟨_, rfl, rfl⟩

theorem retryable_iff {order : Order} :
    Retryable timeout p d order ↔ (order.error timeout p d).IsStall := by
  unfold Retryable
  rw [run_order]
  constructor
  · rintro ⟨s, e, hs, hmain, he⟩
    obtain rfl := Option.some.inj hs
    cases hmain
    exact he
  · exact fun he => ⟨_, _, rfl, rfl, he⟩

/-- A stall that the select returns without a look at the driver. -/
def EarlyFailure.Unchecked : EarlyFailure → Prop
  | timesOut => True
  | fails e => failureOf (.foreign e) = .closure

theorem isStall_selectError : (selectError (p.error timeout) d).IsStall ↔
    p.Unchecked ∨ (closure d).isSome ∧ ∃ e, p = .fails e ∧ failureOf (.foreign e) = .lossy := by
  cases p with
  | timesOut => exact iff_of_true trivial (.inl trivial)
  | fails e =>
    have he := AnyhowError.not_isStall_foreign e
    rw [EarlyFailure.error, selectError, if_neg he]
    cases hfailure : failureOf (.foreign e) with
    | final =>
      refine iff_of_false (isStall_decide_final.not.mpr he) ?_
      rintro (h | ⟨-, _, h, hlossy⟩)
      · cases hfailure.symm.trans h
      · cases h
        cases hfailure.symm.trans hlossy
    | closure => exact iff_of_true trivial (.inl hfailure)
    | lossy =>
      rw [if_pos rfl]
      cases hclosure : closure d with
      | none =>
        refine iff_of_false ((isStall_decide_failed hclosure).not.mpr he) ?_
        rintro (h | ⟨h, -⟩)
        · cases hfailure.symm.trans h
        · cases h
      | some reason =>
        have hsome : (closure d).isSome := by rw [hclosure]; rfl
        exact iff_of_true (isStall_decide_closed hsome nofun) (.inr ⟨rfl, e, rfl, hfailure⟩)

theorem isStall_afterDriverEnd : (afterDriverEnd d false (some (.error (p.error timeout)))).IsStall ↔
    (closure d).isSome ∧ ∀ e, p = .fails e → failureOf (.foreign e) ≠ .final := by
  cases p with
  | timesOut =>
    have hstall : (EarlyFailure.timesOut.error timeout).IsStall := trivial
    simp only [afterDriverEnd, Bool.false_eq_true, if_false, if_pos hstall]
    cases closure d with
    | none => exact iff_of_false (AnyhowError.not_isStall_message _) (fun h => by cases h.1)
    | some reason => exact iff_of_true hstall ⟨rfl, fun e he => by cases he⟩
  | fails e =>
    have he := AnyhowError.not_isStall_foreign e
    have hdecide : afterDriverEnd d false (some (.error (.foreign e))) =
        decide (some (.foreign e, failureOf (.foreign e))) (some d) := rfl
    rw [EarlyFailure.error, hdecide]
    cases hclosure : closure d with
    | none =>
      exact iff_of_false ((isStall_decide_failed hclosure).not.mpr he) (fun h => by cases h.1)
    | some reason =>
      have hsome : (closure d).isSome := by rw [hclosure]; rfl
      by_cases hfinal : failureOf (.foreign e) = .final
      · rw [hfinal]
        exact iff_of_false (isStall_decide_final.not.mpr he) (fun h => h.2 e rfl hfinal)
      · refine iff_of_true (isStall_decide_closed hsome hfinal) ⟨rfl, ?_⟩
        rintro _ ⟨⟩
        exact hfinal

/-- Beside a closed connection, and for a failure over which the driver is asked, the order does not
matter. -/
theorem isStall_error_iff (h : ¬ (closure d = none ∧ p.Unchecked)) (order : Order) :
    (order.error timeout p d).IsStall ↔
      (closure d).isSome ∧ ∀ e, p = .fails e → failureOf (.foreign e) ≠ .final := by
  have hselect : (selectError (p.error timeout) d).IsStall ↔
      (closure d).isSome ∧ ∀ e, p = .fails e → failureOf (.foreign e) ≠ .final := by
    rw [isStall_selectError]
    cases p with
    | timesOut =>
      have hsome : (closure d).isSome := Option.isSome_iff_ne_none.mpr fun hnone => h ⟨hnone, trivial⟩
      exact iff_of_true (.inl trivial) ⟨hsome, nofun⟩
    | fails e =>
      simp only [EarlyFailure.fails.injEq, EarlyFailure.Unchecked] at h ⊢
      cases hfailure : failureOf (.foreign e) with
      | final => simp [hfailure]
      | closure =>
        have hsome : (closure d).isSome :=
          Option.isSome_iff_ne_none.mpr fun hnone => h ⟨hnone, hfailure⟩
        simp [hfailure, hsome]
      | lossy => simp [hfailure]
  cases order with
  | proverFirst idle wait => exact hselect
  | driverFirst idle wait => exact isStall_afterDriverEnd
  | together idle => exact hselect

end

/-- What is returned for an early failure and an end of the driver depends on the order, or is a
stall beside a failed driver, exactly if the driver ended otherwise than by a closure and the select
does not ask for its end: for a timeout of preprocessing, and for a failure that shows the closure
itself. -/
theorem retryable_in_every_order_iff (timeout : String) (p : EarlyFailure) (d : DriverEnd) :
    ((∀ order order', Retryable timeout p d order ↔ Retryable timeout p d order') ∧
      (closure d = none → ∀ order, ¬ Retryable timeout p d order)) ↔
    ¬ (closure d = none ∧ p.Unchecked) := by
  constructor
  · rintro ⟨-, hfailed⟩ ⟨hnone, hunchecked⟩
    exact hfailed hnone (.together 0)
      (retryable_iff.mpr (isStall_selectError.mpr (.inl hunchecked)))
  · intro h
    refine ⟨fun order order' => ?_, fun hnone order => ?_⟩
    · rw [retryable_iff, retryable_iff, isStall_error_iff h, isStall_error_iff h]
    · rw [retryable_iff, isStall_error_iff h, hnone]
      exact fun hstall => by cases hstall.1

/-- A timeout of preprocessing beside a driver that panicked is retried if the prover is observed
first, and is not if the driver is. -/
theorem retryable_by_order : ¬ ((∀ order order',
    Retryable "30s" .timesOut (.panicked "task panicked") order ↔
      Retryable "30s" .timesOut (.panicked "task panicked") order') ∧
    ∀ order, ¬ Retryable "30s" .timesOut (.panicked "task panicked") order) := by
  rintro ⟨horder, -⟩
  have h := horder (.proverFirst 0 0) (.driverFirst 0 0)
  rw [retryable_iff, retryable_iff] at h
  revert h
  decide

end Prover

end Pprev
