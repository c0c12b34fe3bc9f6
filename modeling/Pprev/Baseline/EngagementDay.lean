import Pprev.Offchain.Calendar

/-!
# The engagement day on chain

The function `engagementDay` of `IntegratedSettleVerifier.sol`, over integers of 256 bits, and the
path of the policy verifier to the engagement day of a statement.
-/

namespace Pprev

open Evm Gregorian

inductive EngagementDayError where
  | BadPublicInput
  /-- an operation over- or underflows -/
  | Panic
  deriving DecidableEq

def int256 : ℤ → Except EngagementDayError ℤ := Checked.int 256 .Panic

def engagementDay (TAU_LOCK : Uint64) (UTC_OFFSET_SECS : Int64) (expiresAt : Uint256) :
    Except EngagementDayError Uint256 :=
  if expiresAt.toNat < TAU_LOCK.toNat ∨ expiresAt.toNat > 2 ^ 64 - 1 then .error .BadPublicInput
  else do
    let localTime ← int256 (↑(expiresAt.toNat - TAU_LOCK.toNat) + UTC_OFFSET_SECS.toInt)
    let days ← Checked.loweredDiv int256 localTime 86400
    let z ← int256 (days + 719468)
    let era ← Checked.loweredDiv int256 z 146097
    let doe ← int256 (z - (← int256 (era * 146097)))
    let (y, m, d) ← civilFromDoe int256 era doe
    if y < 0 ∨ y > 9999 then throw .BadPublicInput
    else
      return BitVec.ofInt 256
        (← int256 ((← int256 ((← int256 (y * 10000)) + (← int256 (m * 100)))) + d))

/-- The engagement day of a statement for the policy verifier, which converts `expiresAt` first. -/
def statementDay (tau_lock : Uint64) (utc_offset_secs : Int64) (expiresAt : Uint256) :
    Except CalendarError ℕ :=
  if expiresAt.toNat < 2 ^ 64 then
    engagement_day (BitVec.ofNat 64 expiresAt.toNat) tau_lock utc_offset_secs
  else .error .timeOutOfRange

/-! ## Its value -/

theorem ample_int256 : Ample int256 := .of_bits (by decide) _

section

variable (tau_lock : Uint64) (utc_offset_secs : Int64) (expiresAt : Uint256)

/-- The local time of `expiresAt - tau_lock`. -/
def statementTime : ℤ := expiresAt.toNat - tau_lock.toNat + utc_offset_secs.toInt

/-- The date of the local time; no operation leaves the range of its integers. -/
theorem engagementDay_eq (htau : tau_lock.toNat ≤ expiresAt.toNat) (h64 : expiresAt.toNat < 2 ^ 64) :
    (∃ w : Uint256, Spells (statementTime tau_lock utc_offset_secs expiresAt / 86400) w.toNat ∧
        engagementDay tau_lock utc_offset_secs expiresAt = .ok w) ∨
      (∀ v, ¬ Spells (statementTime tau_lock utc_offset_secs expiresAt / 86400) v) ∧
        engagementDay tau_lock utc_offset_secs expiresAt = .error .BadPublicInput := by
  have hlow := utc_offset_secs.le_toInt
  have hhigh := utc_offset_secs.toInt_lt
  have hok (x : ℤ) (h : -(2 ^ 66) ≤ x) (h' : x < 2 ^ 66) : int256 x = .ok x :=
    Checked.int_eq_ok (.of_le ⟨h, h'⟩ (by decide))
  have hfloor (x n : ℤ) (h : -(2 ^ 65) ≤ x) (h' : x < 2 ^ 65) (hn : 0 < n) (hn' : n < 2 ^ 20) :
      Checked.loweredDiv int256 x n = .ok (x / n) :=
    Checked.loweredDiv_eq hn (hok _ (by omega) (by omega))
  have htime : (↑(expiresAt.toNat - tau_lock.toNat) + utc_offset_secs.toInt : ℤ) =
      statementTime tau_lock utc_offset_secs expiresAt := by
    unfold statementTime
    omega
  have hbounds : -(2 ^ 65) ≤ statementTime tau_lock utc_offset_secs expiresAt ∧
      statementTime tau_lock utc_offset_secs expiresAt < 2 ^ 65 := by
    unfold statementTime
    omega
  obtain ⟨htime0, htime1⟩ := hbounds
  unfold engagementDay
  rw [if_neg (by omega), htime]
  generalize statementTime tau_lock utc_offset_secs expiresAt = time at *
  obtain ⟨p, hp⟩ := Place.exists_doe_eq (time / 86400 + 719468)
  have hspells (v : ℕ) : Spells (time / 86400) v ↔ _ := spells_iff hp
  set era := (time / 86400 + 719468) / 146097 with hera
  have hdoe : time / 86400 + 719468 - era * 146097 = p.doe := by omega
  have hdate : civilFromDoe int256 era p.doe = .ok (p.year era, p.month, p.day) :=
    civilFromDoe_eq ample_int256 (by omega) p
  have hp_mem := p.doe_mem
  simp (disch := omega) only [hok, hfloor, bind, Except.bind, ← hera, hdoe, hdate]
  by_cases hyear : 0 ≤ p.year era ∧ p.year era ≤ 9999
  · obtain ⟨hday, hday'⟩ := p.day_mem
    have hmonth := p.month_mem
    rw [if_neg (by omega)]
    simp (disch := omega) only [hok]
    refine .inl ⟨_, (hspells _).mpr ⟨hyear, ?_⟩, rfl⟩
    rw [BitVec.toNat_ofInt]
    omega
  · rw [if_pos (by omega)]
    exact .inr ⟨fun v hv => hyear ((hspells v).mp hv).1, rfl⟩

theorem engagementDay_of_outside
    (h : ¬ (tau_lock.toNat ≤ expiresAt.toNat ∧ expiresAt.toNat < 2 ^ 64)) :
    engagementDay tau_lock utc_offset_secs expiresAt = .error .BadPublicInput := by
  unfold engagementDay
  rw [if_pos (by omega)]

theorem engagementDay_eq_ok {w : Uint256} :
    engagementDay tau_lock utc_offset_secs expiresAt = .ok w ↔
      tau_lock.toNat ≤ expiresAt.toNat ∧ expiresAt.toNat < 2 ^ 64 ∧
        Spells (statementTime tau_lock utc_offset_secs expiresAt / 86400) w.toNat := by
  by_cases hin : tau_lock.toNat ≤ expiresAt.toNat ∧ expiresAt.toNat < 2 ^ 64
  · obtain ⟨w', hw', hok⟩ | ⟨hnone, herror⟩ :=
      engagementDay_eq tau_lock utc_offset_secs expiresAt hin.1 hin.2
    · rw [hok, Except.ok.injEq]
      constructor
      · rintro rfl
        exact ⟨hin.1, hin.2, hw'⟩
      · rintro ⟨-, -, hw⟩
        exact BitVec.eq_of_toNat_eq (hw'.unique hw)
    · simp [herror, hnone]
  · rw [engagementDay_of_outside _ _ _ hin]
    simp only [reduceCtorEq, false_iff]
    exact fun h => hin ⟨h.1, h.2.1⟩

theorem engagementDay_ne_panic :
    engagementDay tau_lock utc_offset_secs expiresAt ≠ .error .Panic := by
  by_cases hin : tau_lock.toNat ≤ expiresAt.toNat ∧ expiresAt.toNat < 2 ^ 64
  · obtain ⟨w, -, hok⟩ | ⟨-, herror⟩ :=
      engagementDay_eq tau_lock utc_offset_secs expiresAt hin.1 hin.2
    · simp [hok]
    · simp [herror]
  · simp [engagementDay_of_outside _ _ _ hin]

theorem statementDay_eq_ok {v : ℕ} :
    statementDay tau_lock utc_offset_secs expiresAt = .ok v ↔
      (tau_lock.toNat ≤ expiresAt.toNat ∧ expiresAt.toNat < 2 ^ 64 ∧
        Spells (statementTime tau_lock utc_offset_secs expiresAt / 86400) v) ∧
        expiresAt.toNat < tau_lock.toNat + 2 ^ 63 := by
  unfold statementDay
  split_ifs with h64
  · rw [engagement_day_eq_ok]
    unfold localTime statementTime SECS_PER_DAY
    rw [BitVec.toNat_ofNat, Nat.mod_eq_of_lt h64]
    simp only [h64, true_and]
    tauto
  · simp only [false_iff]
    exact fun h => h64 h.1.2.1

theorem statementDay_ne_overflow :
    statementDay tau_lock utc_offset_secs expiresAt ≠ .error .overflow := by
  unfold statementDay
  split_ifs
  · exact engagement_day_ne_overflow _ _ _
  · decide

/-- The time of the engagement is no `i64`, and its local time is before the year 10000. -/
def BeyondI64 : Prop :=
  tau_lock.toNat + 2 ^ 63 ≤ expiresAt.toNat ∧ expiresAt.toNat < 2 ^ 64 ∧
    statementTime tau_lock utc_offset_secs expiresAt < 253402300800

/-- The contract and the policy verifier find the same engagement day but for times beyond `i64`,
which the policy verifier refuses. -/
theorem engagementDay_agrees :
    (¬ BeyondI64 tau_lock utc_offset_secs expiresAt →
      (engagementDay tau_lock utc_offset_secs expiresAt).toOption.map BitVec.toNat =
        (statementDay tau_lock utc_offset_secs expiresAt).toOption) ∧
    (BeyondI64 tau_lock utc_offset_secs expiresAt →
      (∃ w, engagementDay tau_lock utc_offset_secs expiresAt = .ok w) ∧
        ∀ v, statementDay tau_lock utc_offset_secs expiresAt ≠ .ok v) ∧
    engagementDay tau_lock utc_offset_secs expiresAt ≠ .error .Panic ∧
    statementDay tau_lock utc_offset_secs expiresAt ≠ .error .overflow := by
  have hlow := utc_offset_secs.le_toInt
  refine ⟨fun hwithin => ?_, fun hbeyond => ⟨?_, fun v hv => ?_⟩, engagementDay_ne_panic _ _ _,
    statementDay_ne_overflow _ _ _⟩
  · have hnear {v : ℕ} (htau : tau_lock.toNat ≤ expiresAt.toNat) (h64 : expiresAt.toNat < 2 ^ 64)
        (hv : Spells (statementTime tau_lock utc_offset_secs expiresAt / 86400) v) :
        expiresAt.toNat < tau_lock.toNat + 2 ^ 63 := by
      have hrange := exists_spells_iff.mp ⟨v, hv⟩
      unfold BeyondI64 at hwithin
      omega
    cases hday : engagementDay tau_lock utc_offset_secs expiresAt with
    | ok w =>
      obtain ⟨htau, h64, hw⟩ := (engagementDay_eq_ok _ _ _).mp hday
      rw [(statementDay_eq_ok _ _ _).mpr ⟨⟨htau, h64, hw⟩, hnear htau h64 hw⟩]
      rfl
    | error e =>
      cases hstatement : statementDay tau_lock utc_offset_secs expiresAt with
      | error e' => rfl
      | ok v =>
        obtain ⟨⟨htau, h64, hv⟩, -⟩ := (statementDay_eq_ok _ _ _).mp hstatement
        obtain ⟨w, hw, hok⟩ | ⟨hnone, -⟩ :=
          engagementDay_eq tau_lock utc_offset_secs expiresAt htau h64
        · rw [hok] at hday
          cases hday
        · exact absurd hv (hnone v)
  · obtain ⟨htau, h64, htime⟩ := hbeyond
    have hpos : 0 ≤ statementTime tau_lock utc_offset_secs expiresAt := by
      unfold statementTime
      omega
    have hrange : -719528 ≤ statementTime tau_lock utc_offset_secs expiresAt / 86400 ∧
        statementTime tau_lock utc_offset_secs expiresAt / 86400 < 2932897 := by omega
    obtain ⟨v, hv⟩ := exists_spells_iff.mpr hrange
    obtain ⟨w, -, hok⟩ | ⟨hnone, -⟩ :=
      engagementDay_eq tau_lock utc_offset_secs expiresAt (by omega) h64
    · exact ⟨w, hok⟩
    · exact absurd hv (hnone v)
  · have hnear := ((statementDay_eq_ok _ _ _).mp hv).2
    have hbeyond' := hbeyond.1
    omega

end

/-- An offset of the least `i64` brings the least time that is no `i64` to the first of January
1970. -/
theorem engagementDay_beyond :
    engagementDay 0 Int64.minValue (2 ^ 63) = .ok 19700101 ∧
      statementDay 0 Int64.minValue (2 ^ 63) = .error .timeOutOfRange := by
  decide +kernel

end Pprev
