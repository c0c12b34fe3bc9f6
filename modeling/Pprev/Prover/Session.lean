import Pprev.Prover.Failure

/-!
# One session

The function `notarize_shape` of `session.rs`: a select over the prover's half of the session, which
may hang at any point, and the session driver, which may end at any time; then a wait of `CUT_GRACE`
for the other side. The events of a session come in any order.
-/

namespace Pprev

namespace Prover

/-! ## The prover's half -/

/-- How a poll of the prover's half ends after preprocessing, when the registry may be contacted. -/
inductive Notarising where
  | pending
  | fails (e : ForeignError)
  | succeeds
  deriving DecidableEq

/-- How a poll of it ends during preprocessing. -/
inductive Preprocessing where
  | pending
  | timesOut
  | fails (e : ForeignError)
  | completes (rest : Notarising)
  deriving DecidableEq

inductive Progress where
  | before (p : Preprocessing)
  | after (n : Notarising)
  deriving DecidableEq

def Notarising.result : Notarising → Option (Except AnyhowError Unit)
  | pending => none
  | fails e => some (.error (.foreign e))
  | succeeds => some (.ok ())

/-- The flag after a poll, which is set as soon as preprocessing is complete, and the result if the
prover's half has returned. -/
def Preprocessing.result (timeout : String) : Preprocessing → Bool × Option (Except AnyhowError Unit)
  | pending => (false, none)
  | timesOut => (false, some (.error (.preprocessingStalled ("did not finish within " ++ timeout))))
  | fails e => (false, some (.error (.foreign e)))
  | completes rest => (true, rest.result)

/-- A poll of `run_mpc`, if it can end so. -/
def runMpc (timeout : String) (preprocessed : Bool) :
    Progress → Option (Bool × Option (Except AnyhowError Unit))
  | .before p => if preprocessed then none else some (p.result timeout)
  | .after n => if preprocessed then some (true, n.result) else none

/-! ## The session -/

/-- Where `notarize_shape` waits. -/
inductive Main where
  | selecting
  /-- for the driver, after an ambiguous failure of the prover -/
  | awaitingDriver (e : AnyhowError)
  /-- for the prover, after the driver's end -/
  | awaitingMpc (ended : DriverEnd)
  /-- for the attestation, after the prover's success -/
  | attesting
  | returned (result : Except AnyhowError Unit)
  deriving DecidableEq

structure Session where
  preprocessed : Bool
  /-- The end of the driver, once it has come. -/
  driver : Option DriverEnd
  main : Main
  deriving DecidableEq

def Session.init : Session := ⟨false, none, .selecting⟩

inductive Event where
  | driverEnds (ended : DriverEnd)
  /-- a poll of the prover's half, and whether `CUT_GRACE` is over then -/
  | pollMpc (progress : Progress) (elapsed : Bool)
  /-- a poll of the driver alone -/
  | pollDriver (elapsed : Bool)
  | attested (result : Except ForeignError Unit)
  deriving DecidableEq

/-- The error of a session that is lost after preprocessing. -/
def lost (ended : DriverEnd) : String :=
  "the notary closed the session before notarisation completed: " ++ describe ended

/-- The arms of the select for a result of the prover. -/
def selectMpc (preprocessed : Bool) : Except AnyhowError Unit → Main
  | .error e =>
    if preprocessed = false ∧ ¬ e.IsStall then
      match failureOf e with
      | .lossy => .awaitingDriver e
      | failure => .returned (.error (decide (some (e, failure)) none))
    else .returned (.error e)
  | .ok () => .attesting

/-- The error after the driver's end, from the result of the prover if it came within
`CUT_GRACE`. -/
def afterDriverEnd (ended : DriverEnd) (preprocessed : Bool)
    (outcome : Option (Except AnyhowError Unit)) : AnyhowError :=
  if preprocessed then
    match outcome with
    | some (.error e) => .context (lost ended) e
    | _ => .message (lost ended)
  else
    match outcome with
    | some (.error e) =>
      if e.IsStall then
        match closure ended with
        | some _ => e
        | none => .message ("the session driver failed: " ++ describe ended ++ "; the prover: " ++ e.text)
      else decide (some (e, failureOf e)) (some ended)
    | some (.ok ()) => .message "the session ended while the prover still ran"
    | none => decide none (some ended)

/-- A poll of the select, after one of the prover's half: a result that is ready wins over the
driver's end. -/
def Session.select (s : Session) : Bool × Option (Except AnyhowError Unit) → Session
  | (preprocessed, some result) => ⟨preprocessed, s.driver, selectMpc preprocessed result⟩
  | (preprocessed, none) =>
    match s.driver with
    | none => ⟨preprocessed, none, .selecting⟩
    | some ended =>
      if preprocessed then ⟨preprocessed, some ended, .returned (.error (.message (lost ended)))⟩
      else ⟨preprocessed, some ended, .awaitingMpc ended⟩

/-- A poll of the wait for the prover after the driver's end. -/
def Session.grace (s : Session) (ended : DriverEnd) (elapsed : Bool) :
    Bool × Option (Except AnyhowError Unit) → Session
  | (preprocessed, outcome) =>
    if outcome = none ∧ elapsed = false then ⟨preprocessed, s.driver, .awaitingMpc ended⟩
    else ⟨preprocessed, s.driver, .returned (.error (afterDriverEnd ended preprocessed outcome))⟩

/-- What an event makes of the session, if it can occur. What comes after the return changes
nothing. -/
def step (timeout : String) (s : Session) (event : Event) : Option Session :=
  match event, s.main with
  | .driverEnds ended, _ => if s.driver = none then some { s with driver := some ended } else none
  | _, .returned _ => some s
  | .pollMpc progress _, .selecting => (runMpc timeout s.preprocessed progress).map s.select
  | .pollMpc progress elapsed, .awaitingMpc ended =>
    (runMpc timeout s.preprocessed progress).map (s.grace ended elapsed)
  | .pollDriver elapsed, .awaitingDriver e =>
    if s.driver = none ∧ elapsed = false then some s
    else some { s with main := .returned (.error (decide (some (e, .lossy)) s.driver)) }
  | .attested result, .attesting => some { s with main := .returned (result.mapError .foreign) }
  | _, _ => none

/-- A run of events, each of which can occur. -/
def run (timeout : String) (s : Session) (events : List Event) : Option Session :=
  events.foldlM (step timeout) s

/-! ## Stalls and contact with the registry -/

section

variable {timeout : String}

theorem run_cons {s s' : Session} {event : Event} {events : List Event} :
    run timeout s (event :: events) = some s' ↔
      ∃ next, step timeout s event = some next ∧ run timeout next events = some s' := by
  simp only [run, List.foldlM_cons, bind, Option.bind_eq_some_iff]

/-- What every step keeps, a run keeps. -/
theorem run_invariant {P : Session → Prop}
    (hP : ∀ {s s' : Session} {event : Event}, P s → step timeout s event = some s' → P s')
    {s s' : Session} {events : List Event} (hs : P s) (h : run timeout s events = some s') :
    P s' := by
  induction events generalizing s with
  | nil =>
    obtain rfl := Option.some.inj h
    exact hs
  | cons event events ih =>
    obtain ⟨next, hstep, hrun⟩ := run_cons.mp h
    exact ih (hP hs hstep) hrun

theorem run_append {s s' : Session} {events more : List Event} :
    run timeout s (events ++ more) = some s' ↔
      ∃ next, run timeout s events = some next ∧ run timeout next more = some s' := by
  simp only [run, List.foldlM_append, bind, Option.bind_eq_some_iff]

theorem not_isStall_result {n : Notarising} {e : AnyhowError} (h : n.result = some (.error e)) :
    ¬ e.IsStall := by
  cases n with
  | pending => cases h
  | fails e => cases h; exact AnyhowError.not_isStall_foreign _
  | succeeds => cases h

/-- The prover's half stalls only before the flag is set. -/
theorem runMpc_stall {preprocessed preprocessed' : Bool} {progress : Progress} {e : AnyhowError}
    (h : runMpc timeout preprocessed progress = some (preprocessed', some (.error e)))
    (he : e.IsStall) : preprocessed' = false := by
  cases progress with
  | before p =>
    simp only [runMpc, Option.ite_none_left_eq_some, Option.some.injEq] at h
    cases p with
    | pending => cases h.2
    | timesOut => cases h.2; rfl
    | fails e => cases h.2; rfl
    | completes rest =>
      obtain ⟨-, hresult⟩ := Prod.mk.inj h.2
      exact absurd he (not_isStall_result hresult)
  | after n =>
    simp only [runMpc, Option.ite_none_right_eq_some, Option.some.injEq] at h
    obtain ⟨-, hresult⟩ := Prod.mk.inj h.2
    exact absurd he (not_isStall_result hresult)

theorem Session.select_some (s : Session) (preprocessed : Bool) (result : Except AnyhowError Unit) :
    s.select (preprocessed, some result) =
      ⟨preprocessed, s.driver, selectMpc preprocessed result⟩ := rfl

theorem Session.select_pending {s : Session} (h : s.driver = none) (preprocessed : Bool) :
    s.select (preprocessed, none) = ⟨preprocessed, none, .selecting⟩ := by
  simp only [Session.select, h]

theorem Session.select_ended {s : Session} {ended : DriverEnd} (h : s.driver = some ended)
    (preprocessed : Bool) : s.select (preprocessed, none) =
      if preprocessed then ⟨preprocessed, some ended, .returned (.error (.message (lost ended)))⟩
      else ⟨preprocessed, some ended, .awaitingMpc ended⟩ := by
  simp only [Session.select, h]

theorem Session.grace_eq (s : Session) (ended : DriverEnd) (elapsed preprocessed : Bool)
    (outcome : Option (Except AnyhowError Unit)) : s.grace ended elapsed (preprocessed, outcome) =
      if outcome = none ∧ elapsed = false then ⟨preprocessed, s.driver, .awaitingMpc ended⟩
      else ⟨preprocessed, s.driver, .returned (.error (afterDriverEnd ended preprocessed outcome))⟩ :=
  rfl

/-- What a step can do. -/
inductive Stepped (timeout : String) (s : Session) : Event → Session → Prop where
  | driverEnds {ended : DriverEnd} (h : s.driver = none) :
    Stepped timeout s (.driverEnds ended) { s with driver := some ended }
  | returned {event : Event} {result : Except AnyhowError Unit} (h : s.main = .returned result) :
    Stepped timeout s event s
  | select {progress : Progress} {elapsed : Bool} {polled : Bool × Option (Except AnyhowError Unit)}
    (hmain : s.main = .selecting) (h : runMpc timeout s.preprocessed progress = some polled) :
    Stepped timeout s (.pollMpc progress elapsed) (s.select polled)
  | grace {progress : Progress} {elapsed : Bool} {ended : DriverEnd}
    {polled : Bool × Option (Except AnyhowError Unit)} (hmain : s.main = .awaitingMpc ended)
    (h : runMpc timeout s.preprocessed progress = some polled) :
    Stepped timeout s (.pollMpc progress elapsed) (s.grace ended elapsed polled)
  | waits {e : AnyhowError} (hmain : s.main = .awaitingDriver e) (h : s.driver = none) :
    Stepped timeout s (.pollDriver false) s
  | decides {elapsed : Bool} {e : AnyhowError} (hmain : s.main = .awaitingDriver e)
    (h : ¬ (s.driver = none ∧ elapsed = false)) :
    Stepped timeout s (.pollDriver elapsed)
      { s with main := .returned (.error (decide (some (e, .lossy)) s.driver)) }
  | attested {result : Except ForeignError Unit} (hmain : s.main = .attesting) :
    Stepped timeout s (.attested result) { s with main := .returned (result.mapError .foreign) }

theorem stepped_of_step {s s' : Session} {event : Event} (h : step timeout s event = some s') :
    Stepped timeout s event s' := by
  unfold step at h
  split at h
  next ended =>
    split_ifs at h with hdriver
    obtain rfl := Option.some.inj h
    exact .driverEnds hdriver
  next hmain =>
    obtain rfl := Option.some.inj h
    exact .returned hmain
  next hmain =>
    obtain ⟨polled, hpolled, rfl⟩ := Option.map_eq_some_iff.mp h
    exact .select hmain hpolled
  next hmain =>
    obtain ⟨polled, hpolled, rfl⟩ := Option.map_eq_some_iff.mp h
    exact .grace hmain hpolled
  next hmain =>
    split_ifs at h with hwaits
    · obtain rfl := Option.some.inj h
      obtain ⟨hdriver, rfl⟩ := hwaits
      exact .waits hmain hdriver
    · obtain rfl := Option.some.inj h
      exact .decides hmain hwaits
  next hmain =>
    obtain rfl := Option.some.inj h
    exact .attested hmain
  next => cases h

/-- The prover waits for the driver, or has returned a stall, only if the flag was not set. -/
structure Session.Uncontacted (s : Session) : Prop where
  awaiting : ∀ e, s.main = .awaitingDriver e → s.preprocessed = false
  returned : ∀ e, s.main = .returned (.error e) → e.IsStall → s.preprocessed = false

theorem uncontacted_init : Session.init.Uncontacted := by
  constructor <;> intro e h <;> cases h

/-- What the select returns is a stall only if the flag is not set. -/
theorem selectMpc_returned {preprocessed : Bool} {result : Except AnyhowError Unit} {e : AnyhowError}
    (hresult : ∀ e, result = .error e → e.IsStall → preprocessed = false)
    (h : selectMpc preprocessed result = .returned (.error e)) (he : e.IsStall) :
    preprocessed = false := by
  cases result with
  | ok u => cases h
  | error e' =>
    rw [selectMpc] at h
    split_ifs at h with hfirst
    · exact hfirst.1
    · cases h
      exact hresult e rfl he

theorem selectMpc_awaitingDriver {preprocessed : Bool} {result : Except AnyhowError Unit}
    {e : AnyhowError} (h : selectMpc preprocessed result = .awaitingDriver e) :
    preprocessed = false := by
  cases result with
  | ok u => cases h
  | error e' =>
    rw [selectMpc] at h
    split_ifs at h with hfirst
    exact hfirst.1

/-- After preprocessing the driver's end makes no stall of another error. -/
theorem not_isStall_afterDriverEnd {ended : DriverEnd} {outcome : Option (Except AnyhowError Unit)}
    (h : ∀ e, outcome = some (.error e) → ¬ e.IsStall) :
    ¬ (afterDriverEnd ended true outcome).IsStall := by
  match outcome with
  | none => exact AnyhowError.not_isStall_message _
  | some (.ok ()) => exact AnyhowError.not_isStall_message _
  | some (.error e) => exact h e rfl

/-- One step keeps the invariant. -/
theorem Session.Uncontacted.step {s s' : Session} {event : Event} (hs : s.Uncontacted)
    (h : step timeout s event = some s') : s'.Uncontacted := by
  cases stepped_of_step h with
  | driverEnds hdriver => exact ⟨hs.awaiting, hs.returned⟩
  | returned hmain => exact hs
  | @select progress elapsed polled hmain hpolled =>
    obtain ⟨preprocessed, result⟩ := polled
    cases result with
    | none =>
      cases hdriver : s.driver with
      | none =>
        rw [Session.select_pending hdriver]
        exact ⟨nofun, nofun⟩
      | some ended =>
        rw [Session.select_ended hdriver]
        split_ifs
        · refine ⟨nofun, fun e he hstall => ?_⟩
          cases he
          exact absurd hstall (AnyhowError.not_isStall_message _)
        · exact ⟨nofun, nofun⟩
    | some result =>
      have hresult : ∀ e, result = .error e → e.IsStall → preprocessed = false := by
        rintro e rfl he
        exact runMpc_stall hpolled he
      exact ⟨fun e he => selectMpc_awaitingDriver he, fun e he => selectMpc_returned hresult he⟩
  | @grace progress elapsed ended polled hmain hpolled =>
    obtain ⟨preprocessed, outcome⟩ := polled
    rw [Session.grace_eq]
    split_ifs with hwaits
    · exact ⟨nofun, nofun⟩
    · refine ⟨nofun, fun e he hstall => ?_⟩
      cases he
      by_contra hpreprocessed
      obtain rfl : preprocessed = true := by simpa using hpreprocessed
      refine not_isStall_afterDriverEnd ?_ hstall
      rintro e rfl he
      cases runMpc_stall hpolled he
  | waits hmain hdriver => exact hs
  | decides hmain hnot => exact ⟨nofun, fun e he hstall => hs.awaiting _ hmain⟩
  | @attested result hmain =>
    refine ⟨nofun, fun e he hstall => ?_⟩
    cases result with
    | ok u => cases he
    | error e' =>
      cases he
      exact absurd hstall (AnyhowError.not_isStall_foreign _)

theorem Session.Uncontacted.run {s s' : Session} {events : List Event} (hs : s.Uncontacted)
    (h : run timeout s events = some s') : s'.Uncontacted :=
  run_invariant (fun hs hstep => hs.step hstep) hs h

/-- The flag is never taken back. -/
theorem preprocessed_runMpc {progress : Progress} {polled : Bool × Option (Except AnyhowError Unit)}
    (h : runMpc timeout true progress = some polled) : polled.1 = true := by
  cases progress with
  | before p => cases h
  | after n => cases h; rfl

theorem preprocessed_step {s s' : Session} {event : Event} (hs : s.preprocessed = true)
    (h : step timeout s event = some s') : s'.preprocessed = true := by
  cases stepped_of_step h with
  | driverEnds hdriver => exact hs
  | returned hmain => exact hs
  | @select progress elapsed polled hmain hpolled =>
    rw [hs] at hpolled
    obtain ⟨preprocessed, result⟩ := polled
    obtain rfl : preprocessed = true := preprocessed_runMpc hpolled
    cases result with
    | some result => rfl
    | none =>
      cases hdriver : s.driver with
      | none => rw [Session.select_pending hdriver]
      | some ended => rw [Session.select_ended hdriver, if_pos rfl]
  | @grace progress elapsed ended polled hmain hpolled =>
    rw [hs] at hpolled
    obtain ⟨preprocessed, outcome⟩ := polled
    obtain rfl : preprocessed = true := preprocessed_runMpc hpolled
    rw [Session.grace_eq]
    split_ifs <;> rfl
  | waits hmain hdriver => exact hs
  | decides hmain hnot => exact hs
  | attested hmain => exact hs

theorem preprocessed_run {s s' : Session} {events : List Event} (hs : s.preprocessed = true)
    (h : run timeout s events = some s') : s'.preprocessed = true :=
  run_invariant preprocessed_step hs h

/-! ## Final failures -/

theorem returned_step {s s' : Session} {event : Event} {result : Except AnyhowError Unit}
    (hs : s.main = .returned result) (h : step timeout s event = some s') :
    s'.main = .returned result := by
  cases stepped_of_step h with
  | driverEnds hdriver => exact hs
  | returned hmain => exact hs
  | select hmain hpolled => cases hs.symm.trans hmain
  | grace hmain hpolled => cases hs.symm.trans hmain
  | waits hmain hdriver => exact hs
  | decides hmain hnot => cases hs.symm.trans hmain
  | attested hmain => cases hs.symm.trans hmain

theorem returned_run {s s' : Session} {events : List Event} {result : Except AnyhowError Unit}
    (hs : s.main = .returned result) (h : run timeout s events = some s') :
    s'.main = .returned result :=
  run_invariant returned_step hs h

/-- A final failure is returned at once, and is no stall. -/
theorem final_step {s s' : Session} {progress : Progress} {elapsed preprocessed : Bool}
    {e : AnyhowError} (h : step timeout s (.pollMpc progress elapsed) = some s')
    (hmain : ∀ result, s.main ≠ .returned result)
    (hmpc : runMpc timeout s.preprocessed progress = some (preprocessed, some (.error e)))
    (he : ¬ e.IsStall) (hfinal : failureOf e = .final) :
    ∃ e', s'.main = .returned (.error e') ∧ ¬ e'.IsStall := by
  cases stepped_of_step h with
  | returned hreturned => exact absurd hreturned (hmain _)
  | select hselecting hpolled =>
    obtain rfl := Option.some.inj (hmpc.symm.trans hpolled)
    rw [Session.select_some, selectMpc, hfinal]
    split_ifs
    · exact ⟨_, rfl, isStall_decide_final.not.mpr he⟩
    · exact ⟨_, rfl, he⟩
  | @grace _ _ ended _ hgrace hpolled =>
    obtain rfl := Option.some.inj (hmpc.symm.trans hpolled)
    rw [Session.grace_eq, if_neg (by simp)]
    refine ⟨_, rfl, ?_⟩
    cases preprocessed with
    | true => exact not_isStall_afterDriverEnd fun _ h => by cases h; exact he
    | false =>
      simp only [afterDriverEnd, Bool.false_eq_true, if_false, he, hfinal]
      exact isStall_decide_final.not.mpr he

end

end Prover

end Pprev
