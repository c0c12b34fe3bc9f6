import Pprev.Baseline.Binding

/-!
# The times of an attestation

The policy verifier's `check_times` beside the time condition of
`IntegratedVerifierBase._connection`. Each of them widens or saturates one of its two sums and
leaves the other to the width of the type.
-/

namespace Pprev

open Evm Slice

/-! ## The connection info -/

/-- The little-endian bytes of a number. -/
def littleEndian : ℕ → ℕ → Bytes
  | 0, _ => []
  | len + 1, n => UInt8.ofNat n :: littleEndian len (n / 256)

theorem le_cons (x : UInt8) (b : Bytes) : le (x :: b) = le b * 256 + x.toNat := rfl

theorem le_lt (b : Bytes) : le b < 256 ^ b.length := by
  induction b with
  | nil => exact Nat.one_pos
  | cons x b ih =>
    have hx := x.toNat_lt
    rw [le_cons, List.length_cons, pow_succ]
    omega

/-- `_le` reads what little-endian writing wrote. -/
theorem littleEndian_le (b : Bytes) : littleEndian b.length (le b) = b := by
  induction b with
  | nil => rfl
  | cons x b ih =>
    have hx := x.toNat_lt
    have hlow : UInt8.ofNat (le (x :: b)) = x := by
      apply UInt8.toNat.inj
      rw [UInt8.toNat_ofNat', le_cons]
      omega
    have hhigh : le (x :: b) / 256 = le b := by
      rw [le_cons]
      omega
    rw [List.length_cons, littleEndian, hlow, hhigh, ih]

/-- The connection info of a TLS 1.2 connection: the time of its handshake, and the lengths of what
was sent and received. -/
structure ConnectionInfo where
  time : Uint64
  sent : BitVec 32
  received : BitVec 32

/-- The version of the connection is the first variant of its type. -/
def ConnectionInfo.bcs (info : ConnectionInfo) : Bytes :=
  littleEndian 8 info.time.toNat ++ [0] ++ littleEndian 4 info.sent.toNat ++
    littleEndian 4 info.received.toNat

/-- Every connection info of the right length and version is read back by `_le`. -/
theorem exists_connectionInfo {c : Bytes} (hlen : c.length = CONNECTION_INFO_LENGTH)
    (hversion : c.getD 8 0 = 0) :
    ∃ info : ConnectionInfo, info.bcs = c ∧ le (slice c 0 8) = info.time.toNat ∧
      le (slice c 13 4) = info.received.toNat := by
  have hlen' : c.length = 17 := hlen
  have hpart : ∀ start len, start + len ≤ 17 →
      littleEndian len (le (slice c start len)) = slice c start len ∧
      le (slice c start len) < 256 ^ len := fun start len h => by
    have hl : (slice c start len).length = len := length_slice (by omega)
    have h₁ := littleEndian_le (slice c start len)
    have h₂ := le_lt (slice c start len)
    rw [hl] at h₁ h₂
    exact ⟨h₁, h₂⟩
  obtain ⟨htime, htime'⟩ := hpart 0 8 (by omega)
  obtain ⟨hsent, hsent'⟩ := hpart 9 4 (by omega)
  obtain ⟨hreceived, hreceived'⟩ := hpart 13 4 (by omega)
  have htime' : le (slice c 0 8) < 2 ^ 64 := htime'
  have hsent' : le (slice c 9 4) < 2 ^ 32 := hsent'
  have hreceived' : le (slice c 13 4) < 2 ^ 32 := hreceived'
  refine ⟨⟨BitVec.ofNat 64 (le (slice c 0 8)), BitVec.ofNat 32 (le (slice c 9 4)),
    BitVec.ofNat 32 (le (slice c 13 4))⟩, ?_, ?_, ?_⟩
  · rw [ConnectionInfo.bcs, BitVec.toNat_ofNat, BitVec.toNat_ofNat, BitVec.toNat_ofNat,
      Nat.mod_eq_of_lt htime', Nat.mod_eq_of_lt hsent', Nat.mod_eq_of_lt hreceived', htime, hsent,
      hreceived]
    match c, hlen' with
    | [x₀, x₁, x₂, x₃, x₄, x₅, x₆, x₇, x₈, x₉, x₁₀, x₁₁, x₁₂, x₁₃, x₁₄, x₁₅, x₁₆], _ =>
      obtain rfl : x₈ = 0 := hversion
      rfl
  · rw [BitVec.toNat_ofNat, Nat.mod_eq_of_lt htime']
  · rw [BitVec.toNat_ofNat, Nat.mod_eq_of_lt hreceived']

/-! ## The contract -/

/-- The time condition of `_connection`. -/
def BaseVerifier.timeCondition (v : BaseVerifier) (time : ℕ) (tAtt : Uint64) :
    Except BaselineError Unit := do
  ensure (¬tAtt.toNat + TLSN_CLOCK_TOLERANCE < time) .BadTime
  ensure (time + v.MAX_SESSION_SECS.toNat < 2 ^ 64) .Panic
  ensure (¬tAtt.toNat > time + v.MAX_SESSION_SECS.toNat) .BadTime

theorem BaseVerifier.connection_eq (v : BaseVerifier) (b : Block) (c : Bytes) (tAtt : Uint64) :
    v.connection b c tAtt = (do
      ensure (c.length = CONNECTION_INFO_LENGTH ∧ c.getD 8 0 = 0) .BadConnectionInfo
      ensure (le (slice c 13 4) = v.RECEIVED_LENGTH.toNat) .BadConnectionInfo
      v.timeCondition (le (slice c 0 8)) tAtt
      ensure (¬(tAtt.toNat > b.timestamp ∨ b.timestamp - tAtt.toNat > v.DELTA.toNat)) .NotFresh) := by
  simp only [connection, timeCondition, bind_assoc]

/-! ## The policy verifier -/

/-- What a sum that is too large does: it panics in a debug build and wraps in a release build. -/
inductive Build where
  | debug
  | release

inductive TimesError where
  | precedes
  | follows
  /-- an operation overflows -/
  | overflow
  deriving DecidableEq

/-- The sum of two `u64`. -/
def Build.add (build : Build) (x y : Uint64) : Except TimesError Uint64 :=
  match build with
  | .debug => if x.toNat + y.toNat < 2 ^ 64 then .ok (x + y) else .error .overflow
  | .release => .ok (x + y)

def saturatingSub (x y : Uint64) : Uint64 := if y ≤ x then x - y else 0

def checkTimes (build : Build) (tAtt connectionTime maxSessionSecs : Uint64) :
    Except TimesError Unit := do
  let latest ← build.add tAtt (BitVec.ofNat 64 TLSN_CLOCK_TOLERANCE)
  ensure (latest ≥ connectionTime) .precedes
  let gap := saturatingSub tAtt connectionTime
  ensure (gap ≤ maxSessionSecs) .follows

/-! ## Agreement -/

/-- Neither side overflows, and both accept exactly the times at most the tolerance before and at
most the session bound after the connection. -/
structure TimesAgree (v : BaseVerifier) (tAtt time : Uint64) : Prop where
  contract : v.timeCondition time.toNat tAtt ≠ .error .Panic
  notary : ∀ build, checkTimes build tAtt time v.MAX_SESSION_SECS ≠ .error .overflow
  agree : ∀ build, v.timeCondition time.toNat tAtt = .ok () ↔
    checkTimes build tAtt time v.MAX_SESSION_SECS = .ok ()
  meaning : v.timeCondition time.toNat tAtt = .ok () ↔
    (time.toNat : ℤ) - TLSN_CLOCK_TOLERANCE ≤ tAtt.toNat ∧
      (tAtt.toNat : ℤ) ≤ time.toNat + v.MAX_SESSION_SECS.toNat

variable {v : BaseVerifier} {tAtt time : Uint64}

theorem timeCondition_eq_ok : v.timeCondition time.toNat tAtt = .ok () ↔
    time.toNat ≤ tAtt.toNat + 5 ∧ time.toNat + v.MAX_SESSION_SECS.toNat < 2 ^ 64 ∧
      tAtt.toNat ≤ time.toNat + v.MAX_SESSION_SECS.toNat := by
  simp only [BaseVerifier.timeCondition, bind_eq_ok, ensure_eq_ok, exists_and_left, exists_const,
    not_lt]
  exact Iff.rfl

/-- The second sum of the contract is only computed when the first comparison passes. -/
theorem timeCondition_eq_panic : v.timeCondition time.toNat tAtt = .error .Panic ↔
    time.toNat ≤ tAtt.toNat + 5 ∧ 2 ^ 64 ≤ time.toNat + v.MAX_SESSION_SECS.toNat := by
  have hfirst : tAtt.toNat + TLSN_CLOCK_TOLERANCE < time.toNat ↔ tAtt.toNat + 5 < time.toNat :=
    Iff.rfl
  rw [BaseVerifier.timeCondition, ensure_bind, ensure_bind, ensure]
  split_ifs with h₁ h₂ h₃
  · exact iff_of_false (by simp) fun h => absurd (hfirst.mp h₁) (by omega)
  · exact iff_of_false (by simp) fun h => absurd h₂ (by omega)
  · exact iff_of_false (by simp) fun h => absurd h₂ (by omega)
  · exact iff_of_true rfl ⟨by have := mt hfirst.mpr h₁; omega, by omega⟩

theorem toNat_tolerance : (BitVec.ofNat 64 TLSN_CLOCK_TOLERANCE).toNat = 5 := rfl

theorem toNat_saturatingSub (x y : Uint64) : (saturatingSub x y).toNat = x.toNat - y.toNat := by
  unfold saturatingSub
  split_ifs with h
  · rw [BitVec.toNat_sub_of_le h]
  · have : x.toNat < y.toNat := BitVec.not_le.mp h
    rw [Nat.sub_eq_zero_of_le this.le]
    rfl

theorem Build.add_eq {build : Build} {x y : Uint64} (h : x.toNat + y.toNat < 2 ^ 64) :
    build.add x y = .ok (x + y) := by
  cases build with
  | debug => exact if_pos h
  | release => rfl

/-- Without an overflow the two builds check the same. -/
theorem checkTimes_eq {build : Build} (h : tAtt.toNat + 5 < 2 ^ 64) {secs : Uint64} :
    checkTimes build tAtt time secs =
      if time.toNat ≤ tAtt.toNat + 5 then
        if tAtt.toNat ≤ time.toNat + secs.toNat then .ok () else .error .follows
      else .error .precedes := by
  have hsum : (tAtt + BitVec.ofNat 64 TLSN_CLOCK_TOLERANCE).toNat = tAtt.toNat + 5 := by
    rw [BitVec.toNat_add_of_lt (by rw [toNat_tolerance]; exact h), toNat_tolerance]
  have hlatest : tAtt + BitVec.ofNat 64 TLSN_CLOCK_TOLERANCE ≥ time ↔
      time.toNat ≤ tAtt.toNat + 5 := by
    rw [ge_iff_le, BitVec.le_def, hsum]
  have hgap : saturatingSub tAtt time ≤ secs ↔ tAtt.toNat ≤ time.toNat + secs.toNat := by
    rw [BitVec.le_def, toNat_saturatingSub]
    omega
  rw [checkTimes, Build.add_eq (by rw [toNat_tolerance]; exact h)]
  show (ensure _ _ >>= fun _ => ensure _ _) = _
  rw [ensure_bind, ensure]
  simp only [hlatest, hgap]

/-- A debug build panics when the sum is too large. -/
theorem checkTimes_overflow (h : 2 ^ 64 ≤ tAtt.toNat + 5) {secs : Uint64} :
    checkTimes .debug tAtt time secs = .error .overflow := by
  have hadd : Build.add .debug tAtt (BitVec.ofNat 64 TLSN_CLOCK_TOLERANCE) = .error .overflow :=
    if_neg (by rw [toNat_tolerance]; omega)
  rw [checkTimes, hadd]
  rfl

/-- **Attestation times.** The time and the received length of every connection info are read as
they were written, and the two time conditions agree on them, without an overflow, exactly when
neither sum that is computed at the width of the type leaves it. -/
theorem times_agree_iff (v : BaseVerifier) {c : Bytes} (hlen : c.length = CONNECTION_INFO_LENGTH)
    (hversion : c.getD 8 0 = 0) (tAtt : Uint64) :
    ∃ info : ConnectionInfo, info.bcs = c ∧ le (slice c 0 8) = info.time.toNat ∧
      le (slice c 13 4) = info.received.toNat ∧
      (TimesAgree v tAtt info.time ↔ tAtt.toNat + 5 < 2 ^ 64 ∧
        (tAtt.toNat + 5 < info.time.toNat ∨
          info.time.toNat + v.MAX_SESSION_SECS.toNat < 2 ^ 64)) := by
  obtain ⟨info, hbcs, htime, hreceived⟩ := exists_connectionInfo hlen hversion
  refine ⟨info, hbcs, htime, hreceived, fun h => ⟨?_, ?_⟩, fun ⟨hadd, hsum⟩ => ?_⟩
  · by_contra hover
    exact h.notary .debug (checkTimes_overflow (by omega))
  · by_contra hover
    exact h.contract (timeCondition_eq_panic.mpr (by omega))
  · have hok : ∀ build, checkTimes build tAtt info.time v.MAX_SESSION_SECS = .ok () ↔
        info.time.toNat ≤ tAtt.toNat + 5 ∧
          tAtt.toNat ≤ info.time.toNat + v.MAX_SESSION_SECS.toNat := fun build => by
      rw [checkTimes_eq hadd]
      split_ifs <;> simp_all
    refine ⟨fun hpanic => ?_, fun build => ?_, fun build => ?_, ?_⟩
    · have := timeCondition_eq_panic.mp hpanic
      omega
    · rw [checkTimes_eq hadd]
      split_ifs <;> simp
    · rw [hok, timeCondition_eq_ok]
      omega
    · rw [timeCondition_eq_ok, show (TLSN_CLOCK_TOLERANCE : ℤ) = 5 from rfl]
      omega

/-! ## Both ends of the range -/

namespace Vectors

/-- A handshake 121 seconds before the last second of the type. -/
def lateConnection : ConnectionInfo := ⟨0xffffffffffffff87, 158, 170⟩

def lastSecond : Uint64 := 0xffffffffffffffff

end Vectors

open Vectors in
/-- At the last second the contract accepts what the policy verifier panics on or rejects, and six
seconds earlier the policy verifier accepts what the contract panics on. -/
theorem times_disagree : lateConnection.bcs.length = CONNECTION_INFO_LENGTH ∧
    lateConnection.bcs.getD 8 0 = 0 ∧
    sessionVerifier.timeCondition (le (slice lateConnection.bcs 0 8)) lastSecond = .ok () ∧
    checkTimes .debug lastSecond lateConnection.time sessionVerifier.MAX_SESSION_SECS =
      .error .overflow ∧
    checkTimes .release lastSecond lateConnection.time sessionVerifier.MAX_SESSION_SECS =
      .error .precedes ∧
    ¬ TimesAgree sessionVerifier lastSecond lateConnection.time ∧
    sessionVerifier.timeCondition (lastSecond - 6).toNat (lastSecond - 6) = .error .Panic ∧
    checkTimes .debug (lastSecond - 6) (lastSecond - 6) sessionVerifier.MAX_SESSION_SECS =
      .ok () := by
  have hpanic : checkTimes .debug lastSecond lateConnection.time
      sessionVerifier.MAX_SESSION_SECS = .error .overflow := by decide +kernel
  exact ⟨by decide +kernel, by decide +kernel, by decide +kernel, hpanic, by decide +kernel,
    fun h => h.notary .debug hpanic, by decide +kernel, by decide +kernel⟩

open Vectors in
theorem times_agree_iff_session : TimesAgree sessionVerifier 1792589242 1792589242 := by
  have hlen : sessionAttestation.connectionInfo.length = CONNECTION_INFO_LENGTH := by
    decide +kernel
  obtain ⟨info, -, htime, -, hiff⟩ :=
    times_agree_iff sessionVerifier hlen (by decide +kernel) 1792589242
  have hval : le (slice sessionAttestation.connectionInfo 0 8) = (1792589242 : Uint64).toNat := by
    decide +kernel
  have hinfo : info.time = 1792589242 := BitVec.eq_of_toNat_eq (htime.symm.trans hval)
  rw [hinfo] at hiff
  exact hiff.mpr ⟨by decide, .inr (by decide +kernel)⟩

end Pprev
