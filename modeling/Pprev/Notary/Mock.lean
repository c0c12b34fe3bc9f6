import Pprev.Baseline.EngagementDay
import Pprev.Circuit.PhiS
import Pprev.Notary.Nonces
import Pprev.Offchain.Layout
import Pprev.Offchain.Statement

/-!
# The mock notary

The module `mock.rs`: the notary that evaluates the settlement policy natively on records given in
the clear. Its rule on dates compares counts of days where the circuit compares encoded dates.
-/

namespace Pprev

open Evm Gregorian

namespace Mock

/-- The opening of c_B that the witness carries. -/
structure CommitmentOpening where
  /-- The identifier under which the settlement registry names B, padded to its layout width. -/
  identifier : Bytes
  salt : Bytes32

/-- The tenancy notation of the settlement registry. -/
structure SettlementRecord where
  propertyId : Bytes
  tenant : Bytes
  /-- Calendar day of the notation in the registry's time zone. -/
  recordDate : String

structure ApplyPolicy where
  incomeMultiple : Uint64

structure SettlePolicy where
  tauLock : Uint64
  /-- Offset of the registry's time zone from UTC, in seconds. -/
  utcOffsetSecs : Int64

inductive Policy where
  | apply (policy : ApplyPolicy)
  | settle (policy : SettlePolicy)

/-- x_S without t_att, which the notary sets. -/
structure SettleRequest where
  engId : Uint256
  txId : Uint256
  cTx : Bytes32
  txData : TxData
  cB : Bytes32
  expiresAt : Uint256
  policyId : Bytes32
  submitter : Address
  eta : Bytes32

/-- Why a request is refused. -/
inductive Refusal where
  /-- not a Settle policy of this notary -/
  | policy (policyId : Bytes32)
  /-- an identifier must fit one field element -/
  | identifier
  /-- the salt is not below the field order -/
  | salt
  /-- c_B does not open to the given identifier and salt -/
  | opening
  /-- a property identifier must be 1 to 32 bytes -/
  | propertyWord
  /-- the settlement record is not on the property of txData -/
  | property
  /-- the settlement record does not name the identity in c_B -/
  | tenant
  /-- expiresAt exceeds 64 bits -/
  | expiresAt
  /-- expiresAt precedes tau_lock -/
  | precedesTauLock
  /-- an addition overflows, in a build that checks for it -/
  | overflow
  | calendar (e : CalendarError)
  /-- the record date precedes the engagement day -/
  | recordDate (date : String)
  | nonce (e : RecordError)
  /-- the statement key does not sign the digest -/
  | key
  deriving DecidableEq

end Mock

open Mock

/-- The notary, its record of nonces and its clock apart. -/
structure MockNotary where
  policies : Bytes32 → Option Mock.Policy
  /-- The signature of the statement key on a digest. -/
  key : Bytes32 → Option Bytes
  domain : Domain

/-- The sum of two `i64`s, which wraps in a build that does not check for overflows. -/
def addI64 (overflowChecks : Bool) (a b : Int64) : Except Refusal Int64 :=
  if overflowChecks = true ∧ ¬ Checked.Fits 64 (a.toInt + b.toInt) then .error .overflow
  else .ok (a + b)

/-- `txData.propertyId` of a padded property identifier. -/
def propertyWord (propertyId : Bytes) : Except Refusal Bytes := do
  ensure (propertyId ≠ [] ∧ propertyId.length ≤ 32) .propertyWord
  .ok (propertyId ++ List.replicate (32 - propertyId.length) 0)

/-- The commitment to an identifier under a salt, which has to be below the field order. -/
def counterpartyCommitment (poseidon : F → F → F) (opening : CommitmentOpening) :
    Except Refusal Bytes32 := do
  ensure (opening.identifier.length ≤ 31) .identifier
  ensure (opening.salt.toNat < BN254_R) .salt
  .ok (BitVec.ofNat 256 (poseidon (packed opening.identifier : ℕ) (opening.salt.toNat : ℕ)).val)

/-- The checks of the dates: the record is not dated before the day of `expiresAt - tau_lock`. -/
def settleDate (overflowChecks : Bool) (policy : Mock.SettlePolicy) (expiresAt : Uint256)
    (recordDate : String) : Except Refusal Unit := do
  ensure (expiresAt.toNat < 2 ^ 64) .expiresAt
  let expiresAt : Uint64 := BitVec.ofNat 64 expiresAt.toNat
  ensure (policy.tauLock.toNat ≤ expiresAt.toNat) .precedesTauLock
  -- a cast keeps the bits
  let engaged := Int64.ofBitVec (expiresAt - policy.tauLock)
  let localTime ← addI64 overflowChecks engaged policy.utcOffsetSecs
  let engagementDay := localTime.toInt / SECS_PER_DAY
  let day ← (day_number recordDate).mapError .calendar
  ensure (engagementDay ≤ day) (.recordDate recordDate)

namespace MockNotary

/-- Records the nonce and signs the digest. -/
def sign (v : MockNotary) (store : NonceStore) (writes : Writes) (eta digest : Bytes32) :
    Except Refusal Bytes × NonceStore :=
  match store.record ⟨wordBytes eta, length_wordBytes eta⟩ writes with
  | (.error e, store) => (.error (.nonce e), store)
  | (.ok (), store) =>
    match v.key digest with
    | some sigma => (.ok sigma, store)
    | none => (.error .key, store)

/-- The checks of `sign_settle`, before the statement is signed. -/
def checkSettle (v : MockNotary) (poseidon : F → F → F) (overflowChecks : Bool)
    (request : Mock.SettleRequest) (record : SettlementRecord) (opening : CommitmentOpening) :
    Except Refusal Unit := do
  match v.policies request.policyId with
  | some (.settle policy) => do
    let cB ← counterpartyCommitment poseidon opening
    ensure (cB = request.cB) .opening
    let word ← propertyWord record.propertyId
    ensure (word = wordBytes request.txData.propertyId) .property
    ensure (record.tenant = opening.identifier) .tenant
    settleDate overflowChecks policy request.expiresAt record.recordDate
  | _ => .error (.policy request.policyId)

/-- The statement of a request at a time of the notary's clock. -/
def statement (request : Mock.SettleRequest) (clock : Uint64) : Settle where
  engId := request.engId
  txId := request.txId
  cTx := request.cTx
  txData := request.txData
  cB := request.cB
  expiresAt := request.expiresAt
  policyId := request.policyId
  submitter := request.submitter
  eta := request.eta
  tAtt := clock

/-- Checks the settlement policy and signs, with the time of the notary's clock. -/
def signSettle (v : MockNotary) (keccak256 : Bytes → Bytes32) (poseidon : F → F → F)
    (overflowChecks : Bool) (store : NonceStore) (writes : Writes) (clock : Uint64)
    (request : Mock.SettleRequest) (record : SettlementRecord) (opening : CommitmentOpening) :
    Except Refusal (Settle × Bytes) × NonceStore :=
  match v.checkSettle poseidon overflowChecks request record opening with
  | .error e => (.error e, store)
  | .ok () =>
    let x := statement request clock
    match v.sign store writes request.eta (Offchain.digest keccak256 x.value v.domain.value) with
    | (.error e, store) => (.error e, store)
    | (.ok sigma, store) => (.ok (x, sigma), store)

/-- What is signed has passed the checks of the dates, under a nonce that was not signed before. -/
theorem signSettle_eq_ok {v : MockNotary} {keccak256 : Bytes → Bytes32} {poseidon : F → F → F}
    {overflowChecks : Bool} {store store' : NonceStore} {writes : Writes} {clock : Uint64}
    {request : Mock.SettleRequest} {record : SettlementRecord} {opening : CommitmentOpening}
    {x : Settle} {sigma : Bytes}
    (h : v.signSettle keccak256 poseidon overflowChecks store writes clock request record opening =
      (.ok (x, sigma), store')) :
    x = statement request clock ∧ v.key (digest keccak256 (.settle x) v.domain) = some sigma ∧
      ⟨wordBytes request.eta, length_wordBytes request.eta⟩ ∉ store.seen ∧
      ∃ policy, v.policies request.policyId = some (.settle policy) ∧
        settleDate overflowChecks policy request.expiresAt record.recordDate = .ok () := by
  rw [← Offchain.digest_value]
  unfold signSettle at h
  split at h
  · cases h
  next hchecks =>
    dsimp only at h
    split at h
    · cases h
    next hsign =>
      obtain ⟨hout, rfl⟩ := Prod.mk.inj h
      obtain ⟨rfl, rfl⟩ := Prod.mk.inj (Except.ok.inj hout)
      unfold sign at hsign
      split at hsign
      · cases hsign
      next hrecord =>
        split at hsign
        next sigma hkey =>
          obtain ⟨hsigma, -⟩ := Prod.mk.inj hsign
          obtain rfl := Except.ok.inj hsigma
          refine ⟨rfl, hkey, (NonceStore.record_eq_ok.mp hrecord).1, ?_⟩
          unfold checkSettle at hchecks
          split at hchecks
          next policy hpolicy =>
            simp only [bind_eq_ok, ensure_eq_ok] at hchecks
            obtain ⟨_, -, _, -, _, -, _, -, _, -, hdate⟩ := hchecks
            exact ⟨policy, hpolicy, hdate⟩
          · cases hchecks
        · cases hsign

end MockNotary

/-! ## The rule of the circuit on dates -/

section

variable {sha256 : Bytes → Bytes} {poseidon : F → F → F} (lib : Circomlib sha256 poseidon)

/-- The rule that the policy verifier and the circuit enforce: there is an engagement day, and the
record shows a calendar date no earlier than it. -/
def DatedAfter (policy : Mock.SettlePolicy) (expiresAt : Uint256) (recordDate : Bytes) : Prop :=
  ∃ E ymd, statementDay policy.tauLock policy.utcOffsetSecs expiresAt = .ok E ∧
    CalendarDate lib (signals recordDate) ymd ∧ E ≤ ymd.val

/-- The local time of the engagement of a policy. -/
def Mock.SettlePolicy.time (policy : Mock.SettlePolicy) (expiresAt : Uint256) : ℤ :=
  statementTime policy.tauLock policy.utcOffsetSecs expiresAt

/-- The local time is past the integers of 64 bits, so that it wraps to one before 1970; a build
that checks for overflows misses this where the time in UTC is past them already. The record date is
no earlier than the wrapped day. -/
def WrapsBefore (overflowChecks : Bool) (policy : Mock.SettlePolicy) (expiresAt : Uint256)
    (recordDate : String) : Prop :=
  policy.tauLock.toNat ≤ expiresAt.toNat ∧ expiresAt.toNat < 2 ^ 64 ∧
    2 ^ 63 ≤ policy.time expiresAt ∧
    (overflowChecks = true → policy.tauLock.toNat + 2 ^ 63 ≤ expiresAt.toNat) ∧
    ∃ d : Date, d.year ≤ 9999 ∧ utf8 recordDate = dateText d ∧
      (policy.time expiresAt - 2 ^ 64) / SECS_PER_DAY ≤ d.unixDay

variable {lib} {policy : Mock.SettlePolicy} {expiresAt : Uint256} {recordDate : String}

theorem addI64_eq_ok {overflowChecks : Bool} {a b c : Int64} :
    addI64 overflowChecks a b = .ok c ↔
      (overflowChecks = true → Checked.Fits 64 (a.toInt + b.toInt)) ∧ c = a + b := by
  unfold addI64
  split_ifs with h
  · simp [h.1, h.2]
  · rw [Except.ok.injEq]
    constructor
    · rintro rfl
      exact ⟨fun hchecks => by_contra fun hfits => h ⟨hchecks, hfits⟩, rfl⟩
    · rintro ⟨-, rfl⟩
      rfl

/-- The time of the engagement in UTC, as it is cast. -/
def Mock.SettlePolicy.engaged (policy : Mock.SettlePolicy) (expiresAt : Uint256) : Int64 :=
  Int64.ofBitVec (BitVec.ofNat 64 expiresAt.toNat - policy.tauLock)

theorem settleDate_eq_ok {overflowChecks : Bool} :
    settleDate overflowChecks policy expiresAt recordDate = .ok () ↔
      (policy.tauLock.toNat ≤ expiresAt.toNat ∧ expiresAt.toNat < 2 ^ 64) ∧
        (overflowChecks = true → Checked.Fits 64
          ((policy.engaged expiresAt).toInt + policy.utcOffsetSecs.toInt)) ∧
        ∃ day, day_number recordDate = .ok day ∧
          (policy.engaged expiresAt + policy.utcOffsetSecs).toInt / SECS_PER_DAY ≤ day := by
  simp only [settleDate, bind_eq_ok, ensure_eq_ok, mapError_eq_ok, addI64_eq_ok, exists_const_iff,
    BitVec.toNat_ofNat]
  constructor
  · rintro ⟨-, h64, -, htau, _, ⟨hfits, rfl⟩, hday⟩
    rw [Nat.mod_eq_of_lt h64] at htau
    exact ⟨⟨htau, h64⟩, hfits, hday⟩
  · rintro ⟨⟨htau, h64⟩, hfits, hday⟩
    rw [Nat.mod_eq_of_lt h64]
    exact ⟨⟨⟨⟩⟩, h64, ⟨⟨⟩⟩, htau, _, ⟨hfits, rfl⟩, hday⟩

theorem toInt_engaged (htau : policy.tauLock.toNat ≤ expiresAt.toNat)
    (h64 : expiresAt.toNat < 2 ^ 64) : (policy.engaged expiresAt).toInt =
      (expiresAt.toNat - policy.tauLock.toNat : ℤ).bmod (2 ^ 64) := by
  have hengaged : (BitVec.ofNat 64 expiresAt.toNat - policy.tauLock).toNat =
      expiresAt.toNat - policy.tauLock.toNat := by
    rw [BitVec.toNat_sub_of_le]
    · rw [BitVec.toNat_ofNat, Nat.mod_eq_of_lt h64]
    · rw [BitVec.le_def, BitVec.toNat_ofNat, Nat.mod_eq_of_lt h64]
      exact htau
  rw [Mock.SettlePolicy.engaged, Int64.toInt_ofBitVec, BitVec.toInt_eq_toNat_bmod, hengaged,
    Nat.cast_sub htau]

/-- The local time that the mock notary computes is the one that is meant, wrapped. -/
theorem toInt_localTime (htau : policy.tauLock.toNat ≤ expiresAt.toNat)
    (h64 : expiresAt.toNat < 2 ^ 64) :
    (policy.engaged expiresAt + policy.utcOffsetSecs).toInt =
      (policy.time expiresAt).bmod (2 ^ 64) := by
  rw [Int64.toInt_add, toInt_engaged htau h64, Int.bmod_add_bmod]
  rfl

/-- The rule of the circuit, without an encoding of dates. -/
theorem datedAfter_iff (hlen : (utf8 recordDate).length = 10) :
    DatedAfter lib policy expiresAt (utf8 recordDate) ↔ ∃ d : Date, d.year ≤ 9999 ∧
      utf8 recordDate = dateText d ∧ ∃ E, statementDay policy.tauLock policy.utcOffsetSecs expiresAt =
        .ok E ∧ E ≤ d.ymd := by
  have hval {d : Date} (hy : d.year < 10000) : ((d.ymd : ℕ) : F).val = d.ymd :=
    ZMod.val_natCast_of_lt (lt_trans (Date.ymd_lt hy) (by decide))
  unfold DatedAfter
  simp only [calendarDate_iff (holds_signals _) hlen]
  constructor
  · rintro ⟨E, _, hE, ⟨d, hy, hd, rfl⟩, hle⟩
    rw [hval hy] at hle
    exact ⟨d, by omega, hd, E, hE, hle⟩
  · rintro ⟨d, hy, hd, E, hE, hle⟩
    refine ⟨E, _, hE, ⟨d, by omega, hd, rfl⟩, ?_⟩
    rwa [hval (by omega)]

/-- As long as the time is an `i64`, encoded dates compare as counts of days. -/
theorem datedAfter_iff_days (hoffset : -50400 ≤ policy.utcOffsetSecs.toInt)
    (hlen : (utf8 recordDate).length = 10)
    (htau : policy.tauLock.toNat ≤ expiresAt.toNat) (h64 : expiresAt.toNat < 2 ^ 64) :
    DatedAfter lib policy expiresAt (utf8 recordDate) ↔
      expiresAt.toNat < policy.tauLock.toNat + 2 ^ 63 ∧
        ∃ day, day_number recordDate = .ok day ∧ policy.time expiresAt / SECS_PER_DAY ≤ day := by
  have hlow : -50400 ≤ policy.time expiresAt := by
    unfold Mock.SettlePolicy.time statementTime
    omega
  rw [datedAfter_iff hlen]
  simp only [statementDay_eq_ok, day_number_eq_ok]
  constructor
  · rintro ⟨d, hy, hd, E, ⟨⟨-, -, d', hy', hday', rfl⟩, hnear⟩, hle⟩
    refine ⟨hnear, _, ⟨d, hy, hd, rfl⟩, ?_⟩
    have hnot := Date.unixDay_lt_iff.not.mpr (not_lt.mpr hle)
    rw [hday'] at hnot
    exact not_lt.mp hnot
  · rintro ⟨hnear, day, ⟨d, hy, hd, hday⟩, hle⟩
    -- the day is within the years of four digits, since the date is not before it
    have hrange := exists_spells_iff.mp ⟨_, d, hy, hday.symm, rfl⟩
    unfold SECS_PER_DAY at hle
    have hdays : -719528 ≤ policy.time expiresAt / 86400 ∧
        policy.time expiresAt / 86400 < 2932897 := by omega
    obtain ⟨E, hE⟩ := exists_spells_iff.mpr hdays
    refine ⟨d, hy, hd, E, ⟨⟨htau, h64, hE⟩, hnear⟩, ?_⟩
    obtain ⟨d', -, hday', rfl⟩ := hE
    refine not_lt.mp (Date.unixDay_lt_iff.not.mp ?_)
    rw [hday', ← hday]
    exact not_lt.mpr hle

theorem bmod_time_of_le (hoffset : policy.utcOffsetSecs.toInt ≤ 50400)
    (h64 : expiresAt.toNat < 2 ^ 64) (hwrap : 2 ^ 63 ≤ policy.time expiresAt) :
    (policy.time expiresAt).bmod (2 ^ 64) = policy.time expiresAt - 2 ^ 64 := by
  unfold Mock.SettlePolicy.time statementTime at *
  rw [Int.bmod_def]
  split_ifs <;> omega

/-- The sum of the casts overflows exactly if one of the time in UTC and the local time, and not the
other, is past the integers of 64 bits. -/
theorem fits_localTime_iff
    (hoffset : -50400 ≤ policy.utcOffsetSecs.toInt ∧ policy.utcOffsetSecs.toInt ≤ 50400)
    (htau : policy.tauLock.toNat ≤ expiresAt.toNat) (h64 : expiresAt.toNat < 2 ^ 64) :
    Checked.Fits 64 ((policy.engaged expiresAt).toInt + policy.utcOffsetSecs.toInt) ↔
      (policy.tauLock.toNat + 2 ^ 63 ≤ expiresAt.toNat ↔ 2 ^ 63 ≤ policy.time expiresAt) := by
  rw [toInt_engaged htau h64, Int.bmod_def]
  unfold Checked.Fits Mock.SettlePolicy.time statementTime
  split_ifs <;> omega

/-- No date of four digits is after the year 9999. -/
theorem time_lt_of_le_day {day : ℤ} (hday : day_number recordDate = .ok day)
    (hle : policy.time expiresAt / SECS_PER_DAY ≤ day) : policy.time expiresAt < 253402300800 := by
  obtain ⟨d, hy, -, hd⟩ := day_number_eq_ok.mp hday
  have hrange := exists_spells_iff.mp ⟨_, d, hy, hd.symm, rfl⟩
  unfold SECS_PER_DAY at hle
  omega

/-- Unless the time wraps to one before the record, the mock notary's rule is that of the circuit. -/
theorem settleDate_iff_datedAfter {overflowChecks : Bool}
    (hoffset : -50400 ≤ policy.utcOffsetSecs.toInt ∧ policy.utcOffsetSecs.toInt ≤ 50400)
    (hlen : (utf8 recordDate).length = 10)
    (hwraps : ¬ WrapsBefore overflowChecks policy expiresAt recordDate) :
    settleDate overflowChecks policy expiresAt recordDate = .ok () ↔
      DatedAfter lib policy expiresAt (utf8 recordDate) := by
  by_cases hin : policy.tauLock.toNat ≤ expiresAt.toNat ∧ expiresAt.toNat < 2 ^ 64
  swap
  · -- both refuse
    refine iff_of_false (fun h => hin (settleDate_eq_ok.mp h).1) ?_
    rintro ⟨E, -, hE, -⟩
    have h := ((statementDay_eq_ok _ _ _).mp hE).1
    exact hin ⟨h.1, h.2.1⟩
  obtain ⟨htau, h64⟩ := hin
  rw [settleDate_eq_ok, datedAfter_iff_days hoffset.1 hlen htau h64, toInt_localTime htau h64,
    fits_localTime_iff hoffset htau h64]
  by_cases hwrap : 2 ^ 63 ≤ policy.time expiresAt
  · -- the rule of the circuit has no day, and no record is after the wrapped one
    refine iff_of_false ?_ ?_
    · rintro ⟨-, hchecks, day, hday, hle⟩
      rw [bmod_time_of_le hoffset.2 h64 hwrap] at hle
      obtain ⟨d, hy, hd, hunix⟩ := day_number_eq_ok.mp hday
      exact hwraps ⟨htau, h64, hwrap, fun h => (hchecks h).mpr hwrap, d, hy, hd, hunix ▸ hle⟩
    · rintro ⟨-, day, hday, hle⟩
      have hlt := time_lt_of_le_day hday hle
      omega
  · -- nothing wraps
    have hbmod : (policy.time expiresAt).bmod (2 ^ 64) = policy.time expiresAt := by
      unfold Mock.SettlePolicy.time statementTime at *
      rw [Int.bmod_def]
      split_ifs <;> omega
    rw [hbmod]
    simp only [htau, h64, hwrap, iff_false, true_and]
    constructor
    · rintro ⟨-, day, hday, hle⟩
      have hlt := time_lt_of_le_day hday hle
      unfold Mock.SettlePolicy.time statementTime at hlt
      exact ⟨by omega, day, hday, hle⟩
    · rintro ⟨hengaged, hday⟩
      exact ⟨fun _ => by omega, hday⟩

/-- A record after the wrapped time is accepted, and the rule of the circuit has no day for it. -/
theorem WrapsBefore.disagree (lib : Circomlib sha256 poseidon) {overflowChecks : Bool}
    (h : WrapsBefore overflowChecks policy expiresAt recordDate)
    (hoffset : -50400 ≤ policy.utcOffsetSecs.toInt ∧ policy.utcOffsetSecs.toInt ≤ 50400)
    (hlen : (utf8 recordDate).length = 10) :
    settleDate overflowChecks policy expiresAt recordDate = .ok () ∧
      ¬ DatedAfter lib policy expiresAt (utf8 recordDate) := by
  obtain ⟨htau, h64, hwrap, hchecks, d, hy, hd, hle⟩ := h
  rw [settleDate_eq_ok, datedAfter_iff_days hoffset.1 hlen htau h64, toInt_localTime htau h64,
    fits_localTime_iff hoffset htau h64, bmod_time_of_le hoffset.2 h64 hwrap]
  refine ⟨⟨⟨htau, h64⟩, fun h => iff_of_true (hchecks h) hwrap, _,
    day_number_eq_ok.mpr ⟨d, hy, hd, rfl⟩, hle⟩, ?_⟩
  rintro ⟨-, day, hday, hle⟩
  have hlt := time_lt_of_le_day hday hle
  omega

/-- **What the mock notary signs** is under a new nonce the digest of the statement that was asked
for, and its record is dated by the rule of the circuit, if no time wraps to one before it. -/
theorem MockNotary.signSettle_dated (lib : Circomlib sha256 poseidon) {v : MockNotary}
    {keccak256 : Bytes → Bytes32} {overflowChecks : Bool} {store store' : NonceStore}
    {writes : Writes} {clock : Uint64} {request : Mock.SettleRequest} {record : SettlementRecord}
    {opening : CommitmentOpening} {x : Settle} {sigma : Bytes}
    (h : v.signSettle keccak256 poseidon overflowChecks store writes clock request record opening =
      (.ok (x, sigma), store'))
    (hoffset : ∀ policy, v.policies request.policyId = some (.settle policy) →
      -50400 ≤ policy.utcOffsetSecs.toInt ∧ policy.utcOffsetSecs.toInt ≤ 50400) :
    x = statement request clock ∧ v.key (digest keccak256 (.settle x) v.domain) = some sigma ∧
      ⟨wordBytes x.eta, length_wordBytes x.eta⟩ ∉ store.seen ∧
      ∃ policy, v.policies x.policyId = some (.settle policy) ∧
        (DatedAfter lib policy x.expiresAt (utf8 record.recordDate) ∨
          WrapsBefore overflowChecks policy x.expiresAt record.recordDate) := by
  obtain ⟨rfl, hkey, hnonce, policy, hpolicy, hdate⟩ := signSettle_eq_ok h
  refine ⟨rfl, hkey, hnonce, policy, hpolicy, ?_⟩
  obtain ⟨-, -, day, hday, -⟩ := settleDate_eq_ok.mp hdate
  obtain ⟨d, -, hd, -⟩ := day_number_eq_ok.mp hday
  have hlen : (utf8 record.recordDate).length = 10 := by simp [hd, dateText]
  by_cases hwraps : WrapsBefore overflowChecks policy request.expiresAt record.recordDate
  · exact .inr hwraps
  · exact .inl ((settleDate_iff_datedAfter (hoffset policy hpolicy) hlen hwraps).mp hdate)

/-- The mock notary's rule on dates is that of the circuit exactly if no time wraps to one before a
record. -/
theorem mockDate_agrees_iff (lib : Circomlib sha256 poseidon) (overflowChecks : Bool)
    (policy : Mock.SettlePolicy) (expiresAt : Uint256) (recordDate : String)
    (hoffset : -50400 ≤ policy.utcOffsetSecs.toInt ∧ policy.utcOffsetSecs.toInt ≤ 50400)
    (hlen : (utf8 recordDate).length = 10) :
    (settleDate overflowChecks policy expiresAt recordDate = .ok () ↔
        DatedAfter lib policy expiresAt (utf8 recordDate)) ↔
      ¬ WrapsBefore overflowChecks policy expiresAt recordDate := by
  refine ⟨fun hagree hwraps => ?_, settleDate_iff_datedAfter hoffset hlen⟩
  obtain ⟨hok, hnot⟩ := hwraps.disagree lib hoffset hlen
  exact hnot (hagree.mp hok)

end

open Vectors in
/-- The rules agree on a leap day that is the engagement day. -/
theorem mockDate_agrees_leapDay :
    (settleDate true ⟨0, 0⟩ 1835395200 "2028-02-29" = .ok () ↔
        DatedAfter notationCircomlib ⟨0, 0⟩ 1835395200 (utf8 "2028-02-29")) ∧
      settleDate true ⟨0, 0⟩ 1835395200 "2028-02-29" = .ok () := by
  refine ⟨(mockDate_agrees_iff notationCircomlib true ⟨0, 0⟩ 1835395200 "2028-02-29"
    (by decide +kernel) (by decide +kernel)).mpr fun h => ?_, by decide +kernel⟩
  exact absurd h.2.2.1 (by decide +kernel)

open Vectors in
/-- The mock notary accepts a record for an engagement at the least time that is no `i64`, for which
the policy verifier finds no engagement day. -/
theorem mockDate_disagrees :
    ¬ (settleDate true ⟨0, 0⟩ (2 ^ 63) "2028-02-29" = .ok () ↔
      DatedAfter notationCircomlib ⟨0, 0⟩ (2 ^ 63) (utf8 "2028-02-29")) := by
  intro h
  obtain ⟨E, -, hE, -⟩ := h.mp (by decide +kernel)
  have hday : statementDay 0 0 (2 ^ 63) = .error .timeOutOfRange := by decide +kernel
  rw [hday] at hE
  cases hE

end Pprev
