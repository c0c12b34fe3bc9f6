import Mathlib.Algebra.Group.Nat.Defs
import Pprev.Prover.Session

/-!
# Retries

The function `with_retries` of `session.rs`: a new session after a stalled one, and after nothing
else, up to a bound.
-/

namespace Pprev

namespace Prover

structure NotarizeStats where
  attempts : ℕ
  /-- Why each abandoned attempt was abandoned, in order. -/
  stalls : List String
  deriving DecidableEq

/-- How an attempt goes: no connection is opened, or its session ends. -/
inductive Attempt (T : Type) where
  | unconnected (e : AnyhowError)
  | notarized (result : Except AnyhowError T)

def Attempt.stall? {T : Type} : Attempt T → Option AnyhowError
  | notarized (.error e) => if e.IsStall then some e else none
  | _ => none

inductive Retried (T : Type) where
  | ok (notarized : T) (stats : NotarizeStats)
  | error (e : AnyhowError)
  /-- the count of attempts overflows -/
  | panic

section

variable {T : Type} (attempt : ℕ → Attempt T) (maxRetries : ℕ)

def allStalled (stats : NotarizeStats) : AnyhowError :=
  .message ("preprocessing stalled on all " ++ toString stats.attempts ++ " attempts: " ++
    "; ".intercalate stats.stalls)

/-- The loop, and the attempts for which it asks for a connection. -/
def retryFrom (stats : NotarizeStats) : Retried T × List ℕ :=
  if stats.attempts + 1 < 2 ^ 32 then
    let attempts := stats.attempts + 1
    match attempt attempts with
    | .unconnected e => (.error e, [attempts])
    | .notarized (.ok notarized) => (.ok notarized { stats with attempts := attempts }, [attempts])
    | .notarized (.error e) =>
      if e.IsStall then
        let stats := ⟨attempts, stats.stalls ++ [e.text]⟩
        if maxRetries < attempts then (.error (allStalled stats), [attempts])
        else
          let (result, opened) := retryFrom stats
          (result, attempts :: opened)
      else (.error (.context ("notarisation failed on attempt " ++ toString attempts) e), [attempts])
  else (.panic, [])
termination_by 2 ^ 32 - stats.attempts

def withRetries : Retried T × List ℕ := retryFrom attempt maxRetries ⟨0, []⟩

/-- What the loop returns after an attempt that did not stall. -/
def finish (stats : NotarizeStats) : Attempt T → Retried T
  | .unconnected e => .error e
  | .notarized (.ok notarized) => .ok notarized stats
  | .notarized (.error e) =>
    .error (.context ("notarisation failed on attempt " ++ toString stats.attempts) e)

/-- The reasons of the first attempts, as far as they stalled. -/
def reasons (n : ℕ) : List String :=
  (List.range n).filterMap fun i => (attempt (i + 1)).stall?.map AnyhowError.text

/-- The loop asks for the connections of the first `n` attempts, of which all but the last stalled.
The last one decides, or it stalled too and there are no retries left. -/
structure Ends (n : ℕ) (out : Retried T × List ℕ) : Prop where
  pos : 0 < n
  le : n ≤ maxRetries + 1
  opened : out.2 = List.range' 1 n
  stalled : ∀ i, 0 < i → i < n → (attempt i).stall?.isSome
  result : (attempt n).stall? = none ∧ out.1 = finish ⟨n, reasons attempt (n - 1)⟩ (attempt n) ∨
    n = maxRetries + 1 ∧ (attempt n).stall?.isSome ∧
      out.1 = .error (allStalled ⟨n, reasons attempt n⟩)

/-! ## The loop ends -/

variable {attempt maxRetries}

theorem Attempt.stall?_eq_some {a : Attempt T} {e : AnyhowError} :
    a.stall? = some e ↔ a = .notarized (.error e) ∧ e.IsStall := by
  unfold Attempt.stall?
  split
  next e' =>
    split_ifs with h
    · simp only [Option.some.injEq, notarized.injEq, Except.error.injEq]
      constructor
      · rintro rfl
        exact ⟨rfl, h⟩
      · exact fun h' => h'.1
    · simp only [notarized.injEq, Except.error.injEq, false_iff]
      rintro ⟨rfl, h'⟩
      exact h h'
  next hne =>
    simp only [reduceCtorEq, false_iff]
    rintro ⟨rfl, -⟩
    exact hne e rfl

theorem retryFrom_finish {stats : NotarizeStats} (h32 : stats.attempts + 1 < 2 ^ 32)
    (h : (attempt (stats.attempts + 1)).stall? = none) : retryFrom attempt maxRetries stats =
      (finish { stats with attempts := stats.attempts + 1 } (attempt (stats.attempts + 1)),
        [stats.attempts + 1]) := by
  rw [retryFrom, if_pos h32]
  dsimp only
  cases hattempt : attempt (stats.attempts + 1) with
  | unconnected e => rfl
  | notarized result =>
    cases result with
    | ok notarized => rfl
    | error e =>
      have he : ¬ e.IsStall := fun he => by
        rw [hattempt, Attempt.stall?_eq_some.mpr ⟨rfl, he⟩] at h
        cases h
      dsimp only
      rw [if_neg he]
      rfl

theorem retryFrom_stall {stats : NotarizeStats} (h32 : stats.attempts + 1 < 2 ^ 32)
    {e : AnyhowError} (h : (attempt (stats.attempts + 1)).stall? = some e) :
    retryFrom attempt maxRetries stats =
      let stats := ⟨stats.attempts + 1, stats.stalls ++ [e.text]⟩
      if maxRetries < stats.attempts then (.error (allStalled stats), [stats.attempts])
      else ((retryFrom attempt maxRetries stats).1,
        stats.attempts :: (retryFrom attempt maxRetries stats).2) := by
  obtain ⟨hattempt, he⟩ := Attempt.stall?_eq_some.mp h
  conv_lhs => rw [retryFrom]
  rw [if_pos h32]
  simp only [hattempt, he, if_true]

theorem reasons_succ (n : ℕ) : reasons attempt (n + 1) =
    reasons attempt n ++ ((attempt (n + 1)).stall?.map AnyhowError.text).toList := by
  rw [reasons, List.range_succ, List.filterMap_append, reasons]
  cases h : (attempt (n + 1)).stall? <;> simp [h]

theorem range'_snoc (j : ℕ) : List.range' 1 j ++ [j + 1] = List.range' 1 (j + 1) := by
  rw [List.range'_concat, Nat.one_mul, Nat.add_comm]

/-- An attempt that does not stall ends the loop. -/
theorem ends_of_finish (hmax : maxRetries < 2 ^ 32 - 1) {j : ℕ} (hj : j ≤ maxRetries)
    (hstalled : ∀ i, 0 < i → i < j + 1 → (attempt i).stall?.isSome)
    (hstall : (attempt (j + 1)).stall? = none) :
    Ends attempt maxRetries (j + 1) ((retryFrom attempt maxRetries ⟨j, reasons attempt j⟩).1,
      List.range' 1 j ++ (retryFrom attempt maxRetries ⟨j, reasons attempt j⟩).2) := by
  rw [retryFrom_finish (show j + 1 < 2 ^ 32 by omega) hstall]
  exact ⟨by omega, by omega, range'_snoc j, hstalled, .inl ⟨hstall, rfl⟩⟩

/-- After attempts that stalled, the loop ends as it does from the start. -/
theorem ends_retryFrom (hmax : maxRetries < 2 ^ 32 - 1) {k j : ℕ} (hk : j + k = maxRetries)
    (hstalled : ∀ i, 0 < i → i < j + 1 → (attempt i).stall?.isSome) :
    ∃ n, Ends attempt maxRetries n ((retryFrom attempt maxRetries ⟨j, reasons attempt j⟩).1,
      List.range' 1 j ++ (retryFrom attempt maxRetries ⟨j, reasons attempt j⟩).2) := by
  induction k generalizing j with
  | zero =>
    cases hstall : (attempt (j + 1)).stall? with
    | none => exact ⟨j + 1, ends_of_finish hmax (by omega) hstalled hstall⟩
    | some e =>
      rw [retryFrom_stall (show j + 1 < 2 ^ 32 by omega) hstall]
      dsimp only
      rw [if_pos (by omega)]
      refine ⟨j + 1, by omega, by omega, range'_snoc j, hstalled,
        .inr ⟨by omega, by rw [hstall]; rfl, ?_⟩⟩
      rw [reasons_succ, hstall]
      rfl
  | succ k ih =>
    cases hstall : (attempt (j + 1)).stall? with
    | none => exact ⟨j + 1, ends_of_finish hmax (by omega) hstalled hstall⟩
    | some e =>
      have hreasons : reasons attempt (j + 1) = reasons attempt j ++ [e.text] := by
        rw [reasons_succ, hstall]
        rfl
      have hstalled' : ∀ i, 0 < i → i < j + 1 + 1 → (attempt i).stall?.isSome := by
        intro i hi hlt
        rcases Nat.lt_succ_iff_lt_or_eq.mp hlt with hlt | rfl
        · exact hstalled i hi hlt
        · rw [hstall]
          rfl
      obtain ⟨n, hn⟩ := ih (show j + 1 + k = maxRetries by omega) hstalled'
      rw [hreasons, ← range'_snoc j, List.append_assoc, List.singleton_append] at hn
      rw [retryFrom_stall (show j + 1 < 2 ^ 32 by omega) hstall]
      dsimp only
      rw [if_neg (by omega)]
      exact ⟨n, hn⟩

theorem exists_ends (hmax : maxRetries < 2 ^ 32 - 1) :
    ∃ n, Ends attempt maxRetries n (withRetries attempt maxRetries) := by
  have hstart : ∀ i, 0 < i → i < 0 + 1 → (attempt i).stall?.isSome := fun i hi hi' => by omega
  obtain ⟨n, hn⟩ := ends_retryFrom hmax (Nat.zero_add maxRetries) hstart
  have hreasons : reasons attempt 0 = [] := rfl
  rw [hreasons, List.range'_zero, List.nil_append] at hn
  exact ⟨n, hn⟩

theorem Ends.attempts {n : ℕ} {out : Retried T × List ℕ} (h : Ends attempt maxRetries n out)
    {notarized : T} {stats : NotarizeStats} (hok : out.1 = .ok notarized stats) :
    attempt n = .notarized (.ok notarized) ∧ stats = ⟨n, reasons attempt (n - 1)⟩ := by
  obtain ⟨-, hfinish⟩ | ⟨-, -, hall⟩ := h.result
  · rw [hok] at hfinish
    cases hn : attempt n with
    | unconnected e => rw [hn] at hfinish; cases hfinish
    | notarized result =>
      rw [hn] at hfinish
      cases result with
      | error e => cases hfinish
      | ok t => cases hfinish; exact ⟨rfl, rfl⟩
  · rw [hok] at hall
    cases hall

theorem length_reasons {n : ℕ} (h : ∀ i, 0 < i → i < n + 1 → (attempt i).stall?.isSome) :
    (reasons attempt n).length = n := by
  induction n with
  | zero => rfl
  | succ n ih =>
    obtain ⟨e, he⟩ := Option.isSome_iff_exists.mp (h (n + 1) (by omega) (by omega))
    rw [reasons_succ, List.length_append, ih fun i hi hlt => h i hi (by omega), he]
    rfl

end

/-- A stall is returned only from a session that never contacted the registry, and no final failure
becomes one. The loop opens a new connection only after a stall, and so never after the registry may
have been contacted; it opens at most one more than the retries it has, and ends with the first
session that does not stall. -/
theorem retries_before_contact (timeout : String) :
    (∀ events more s s' e, run timeout .init events = some s → run timeout s more = some s' →
      s'.main = .returned (.error e) → e.IsStall → s.preprocessed = false) ∧
    (∀ events more s s' progress elapsed preprocessed e, run timeout .init events = some s →
      (∀ result, s.main ≠ .returned result) →
      runMpc timeout s.preprocessed progress = some (preprocessed, some (.error e)) →
      ¬ e.IsStall → failureOf e = .final →
      run timeout s (.pollMpc progress elapsed :: more) = some s' →
      ∃ e', s'.main = .returned (.error e') ∧ ¬ e'.IsStall) ∧
    (∀ (T : Type) (attempt : ℕ → Attempt T) (maxRetries : ℕ), maxRetries < 2 ^ 32 - 1 →
      ∃ n, Ends attempt maxRetries n (withRetries attempt maxRetries) ∧
        ∀ notarized stats, (withRetries attempt maxRetries).1 = .ok notarized stats →
          attempt n = .notarized (.ok notarized) ∧ stats.attempts = n ∧
            stats.stalls = reasons attempt (n - 1) ∧ stats.attempts = stats.stalls.length + 1) ∧
    (∀ (attempt : ℕ → Attempt Unit) (sessions : ℕ → Session) (maxRetries : ℕ),
      maxRetries < 2 ^ 32 - 1 → (∀ i, ∃ events, run timeout .init events = some (sessions i)) →
      (∀ i result, attempt i = .notarized result → (sessions i).main = .returned result) →
      ∀ i, 0 < i → i + 1 ∈ (withRetries attempt maxRetries).2 →
        (sessions i).preprocessed = false) := by
  refine ⟨?_, ?_, ?_, ?_⟩
  · intro events more s s' e hevents hmore hmain he
    have hs' := (uncontacted_init.run hevents).run hmore
    by_contra hset
    have hset' := preprocessed_run (by simpa using hset) hmore
    rw [hs'.returned e hmain he] at hset'
    cases hset'
  · intro events more s s' progress elapsed preprocessed e hevents hmain hmpc he hfinal hrun
    obtain ⟨next, hstep, hmore⟩ := run_cons.mp hrun
    obtain ⟨e', he', hstall⟩ := final_step hstep hmain hmpc he hfinal
    exact ⟨e', returned_run he' hmore, hstall⟩
  · intro T attempt maxRetries hmax
    obtain ⟨n, hn⟩ : ∃ n, Ends attempt maxRetries n _ := exists_ends hmax
    refine ⟨n, hn, fun notarized stats hok => ?_⟩
    obtain ⟨hattempt, rfl⟩ := hn.attempts hok
    have hpos := hn.pos
    refine ⟨hattempt, rfl, rfl, ?_⟩
    rw [length_reasons fun i hi hlt => hn.stalled i hi (by omega)]
    show n = n - 1 + 1
    omega
  · intro attempt sessions maxRetries hmax hsessions hreturned i hi hopened
    obtain ⟨n, hn⟩ : ∃ n, Ends attempt maxRetries n _ := exists_ends hmax
    rw [hn.opened, List.mem_range'_1] at hopened
    obtain ⟨e, he⟩ := Option.isSome_iff_exists.mp (hn.stalled i hi (by omega))
    obtain ⟨hattempt, hstall⟩ := Attempt.stall?_eq_some.mp he
    obtain ⟨events, hevents⟩ := hsessions i
    exact (uncontacted_init.run hevents).returned e (hreturned i _ hattempt) hstall

/-- The notary closes the connection, and the prover's half hangs. -/
def cutEvents : List Event :=
  [.driverEnds .finished, .pollMpc (.before .pending) false, .pollMpc (.before .pending) true]

def cutSession : Session := ⟨false, some .finished, .returned (.error (stall "connection closed"))⟩

/-- A session that succeeds at once. -/
def promptEvents : List Event := [.pollMpc (.before (.completes .succeeds)) false, .attested (.ok ())]

def promptSession : Session := ⟨true, none, .returned (.ok ())⟩

/-- One cut session and then prompt ones. -/
def oneCut (i : ℕ) : Attempt Unit :=
  .notarized (if i = 1 then .error (stall "connection closed") else .ok ())

theorem retries_before_contact_oneCut : cutSession.preprocessed = false ∧
    ∃ n, Ends oneCut 3 n (withRetries oneCut 3) := by
  obtain ⟨-, -, hends, hretried⟩ := retries_before_contact "30s"
  have hmax : 3 < 2 ^ 32 - 1 := by decide
  obtain ⟨n, hn, -⟩ := hends Unit oneCut 3 hmax
  refine ⟨?_, n, hn⟩
  have hopened : 1 + 1 ∈ (withRetries oneCut 3).2 := by
    have hle := hn.le
    rw [hn.opened, List.mem_range'_1]
    refine ⟨by decide, ?_⟩
    rcases hn.result with ⟨hstall, -⟩ | ⟨rfl, -, -⟩
    · have hpos := hn.pos
      have hne : n ≠ 1 := by
        rintro rfl
        exact absurd hstall (by decide)
      omega
    · decide
  refine hretried oneCut (fun i => if i = 1 then cutSession else promptSession) 3 hmax (fun i => ?_)
    (fun i result h => ?_) 1 (by decide) hopened
  · by_cases hi : i = 1
    · exact ⟨cutEvents, by rw [if_pos hi]; decide⟩
    · exact ⟨promptEvents, by rw [if_neg hi]; decide⟩
  · by_cases hi : i = 1
    · rw [oneCut, if_pos hi] at h
      cases h
      rw [if_pos hi]
      rfl
    · rw [oneCut, if_neg hi] at h
      cases h
      rw [if_neg hi]
      rfl

end Prover

end Pprev
