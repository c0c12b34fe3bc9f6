import Pprev.Baseline.EngagementDay
import Pprev.Notary.Nonces
import Pprev.Notary.Presentation
import Pprev.Offchain.Statement

/-!
# The policy verifier

The modules `register.rs` and `phases.rs`, over a given check of presentations, Groth16 keys and a
signing key; the writes of the record of nonces succeed. Three paths of requests share this record.
The verifier is behind a mutex, so that the requests of all connections come one after another.
-/

namespace Pprev

open Evm

/-! ## Policies and requests -/

structure RegisterPolicy (Proof : Type) where
  layout : Layout
  verifier : Groth16Verifier Proof

structure ApplyPolicy (Proof : Type) where
  layout : RecordLayout
  verifier : Groth16Verifier Proof

structure SettlePolicy (Proof : Type) where
  layout : RecordLayout
  verifier : Groth16Verifier Proof
  /-- Offset of the registry's time zone from UTC. -/
  utcOffsetSecs : Int64

structure RegisterRequest (Presentation Proof : Type) where
  presentation : Presentation
  /-- The property identifier as the registry writes it. -/
  propertyId : String
  statement : Register
  proof : Proof

structure ApplyRequest (Presentation Proof : Type) where
  presentation : Presentation
  statement : Apply
  proof : Proof

structure SettleRequest (Presentation Proof : Type) where
  presentation : Presentation
  notationId : String
  statement : Settle
  proof : Proof

inductive Phase where
  | register
  | apply
  | settle
  deriving DecidableEq

/-- Why a request is refused. -/
inductive Refusal (ε : Type) where
  /-- not a policy of this phase of this notary -/
  | policy (phase : Phase) (policyId : Bytes32)
  /-- the notary has no tau_lock for Settle -/
  | tauLock
  /-- the nonce has already been signed -/
  | signed (eta : Bytes32)
  /-- txData.propertyId is not the property of the notarised request -/
  | property
  /-- not a record identifier -/
  | subject (subject : String)
  | calendar (e : CalendarError)
  | layout (e : LayoutError)
  | record (e : RecordLayoutError)
  | presentation (e : PresentationError ε)
  /-- tAtt is not the attested time -/
  | tAtt (tAtt attested : Uint64)
  /-- the layout has another number of hidden fields -/
  | hidden (phase : Phase)
  | input (e : PublicInputError)
  | groth16 (e : Groth16Error)
  /-- the proof does not verify for this statement and attestation -/
  | proof (phase : Phase)
  | nonce (e : RecordError)
  /-- the statement key does not sign the digest -/
  | key

/-- What the notary holds, the record of nonces apart. -/
structure PolicyVerifier (VerifyingKey Proof : Type) where
  policies : Bytes32 → Option (RegisterPolicy Proof)
  applyPolicies : Bytes32 → Option (ApplyPolicy Proof)
  settlePolicies : Bytes32 → Option (SettlePolicy Proof)
  tauLock : Option Uint64
  attestationKey : VerifyingKey
  rootCerts : List Bytes
  maxSessionSecs : Uint64
  /-- The signature of the statement key on a digest. -/
  key : Bytes32 → Option Bytes
  domain : Domain

/-- The value, or the error for the lack of it. -/
def context {ε α : Type} (value : Option α) (e : ε) : Except ε α :=
  match value with
  | some a => .ok a
  | none => .error e

theorem context_eq_ok {ε α : Type} {value : Option α} {e : ε} {a : α} :
    context value e = .ok a ↔ value = some a := by
  cases value <;> simp [context]

/-- A request target segment of letters, digits and '-'. -/
def IsSubject (subject : String) : Prop :=
  utf8 subject ≠ [] ∧ (utf8 subject).length ≤ 64 ∧
    (utf8 subject).all fun b => isAsciiAlphanumeric b || b == 45

instance (subject : String) : Decidable (IsSubject subject) := by unfold IsSubject; infer_instance

def checkSubject {ε : Type} (subject : String) : Except (Refusal ε) Unit :=
  ensure (IsSubject subject) (.subject subject)

/-- A nonce as the record has it. -/
def nonceOf (eta : Bytes32) : Nonce := ⟨wordBytes eta, length_wordBytes eta⟩

namespace PolicyVerifier

section

variable {Presentation VerifyingKey Proof ε : Type} (keccak256 : Bytes → Bytes32)
  (checkShape : Presentation → ShapeExpectation VerifyingKey → Except ε AttestedShape)
  (v : PolicyVerifier VerifyingKey Proof)

def ensureUnsigned (store : NonceStore) (eta : Bytes32) : Except (Refusal ε) Unit :=
  ensure (store.contains (nonceOf eta) = false) (.signed eta)

/-- The public inputs of the proof of a registration. -/
def registerInputs (x : Register) (attested : Attested) : Except PublicInputError (List String) := do
  let digest := Offchain.digest keccak256 x.value v.domain.value
  let pub ← attested.phiRPublic x.txData.propertyId digest
  .ok pub.inputs

/-- The public inputs of the proof of an application. -/
def applyInputs (x : Apply) (attested : AttestedShape) :
    Except (Refusal ε) (List String) := do
  match attested.hiddenHashes with
  | [accountHash, incomeHash] =>
    let digest := Offchain.digest keccak256 x.value v.domain.value
    let pub ← (PhiAPublic.new accountHash incomeHash x.cB x.txData.amount digest).mapError .input
    .ok pub.inputs
  | _ => .error (.hidden .apply)

/-- The public inputs of the proof of a settlement, which does not read the account. -/
def settleInputs (x : Settle) (attested : AttestedShape) (day : ℕ) :
    Except (Refusal ε) (List String) := do
  match attested.hiddenHashes with
  | [_, propertyHash, tenantHash, dateHash] =>
    let digest := Offchain.digest keccak256 x.value v.domain.value
    let pub ← (PhiSPublic.new propertyHash tenantHash dateHash x.txData.propertyId x.cB day
      digest).mapError .input
    .ok pub.inputs
  | _ => .error (.hidden .settle)

/-- The checks of `sign_register`, which find the digest to sign. -/
def checkRegister (store : NonceStore) (request : RegisterRequest Presentation Proof) :
    Except (Refusal ε) Bytes32 := do
  let x := request.statement
  let policy ← context (v.policies x.policyId) (.policy .register x.policyId)
  ensureUnsigned store x.eta
  let word ← (policy.layout.propertyIdWord request.propertyId).mapError .layout
  ensure (word = wordBytes x.txData.propertyId) .property
  let attested ← (checkPresentation checkShape request.presentation {
    layout := policy.layout
    attestationKey := v.attestationKey
    rootCerts := v.rootCerts
    propertyId := request.propertyId
    maxSessionSecs := v.maxSessionSecs }).mapError .presentation
  ensure (x.tAtt = attested.tAtt) (.tAtt x.tAtt attested.tAtt)
  let inputs ← (v.registerInputs keccak256 x attested).mapError .input
  let valid ← (policy.verifier.verify request.proof inputs).mapError .groth16
  ensure (valid = true) (.proof .register)
  .ok (Offchain.digest keccak256 x.value v.domain.value)

/-- The checks of `sign_apply`. -/
def checkApply (store : NonceStore) (request : ApplyRequest Presentation Proof) :
    Except (Refusal ε) Bytes32 := do
  let x := request.statement
  let policy ← context (v.applyPolicies x.policyId) (.policy .apply x.policyId)
  ensureUnsigned store x.eta
  let shape ← (policy.layout.shape "").mapError .record
  let attested ← (checkShape request.presentation {
    shape := shape
    attestationKey := v.attestationKey
    rootCerts := v.rootCerts
    maxSessionSecs := v.maxSessionSecs }).mapError fun e => .presentation (.shape e)
  ensure (x.tAtt = attested.tAtt) (.tAtt x.tAtt attested.tAtt)
  let inputs ← v.applyInputs keccak256 x attested
  let valid ← (policy.verifier.verify request.proof inputs).mapError .groth16
  ensure (valid = true) (.proof .apply)
  .ok (Offchain.digest keccak256 x.value v.domain.value)

/-- The checks of `sign_settle`. -/
def checkSettle (store : NonceStore) (request : SettleRequest Presentation Proof) :
    Except (Refusal ε) Bytes32 := do
  let x := request.statement
  let policy ← context (v.settlePolicies x.policyId) (.policy .settle x.policyId)
  let tauLock ← context v.tauLock .tauLock
  ensureUnsigned store x.eta
  checkSubject request.notationId
  let day ← (statementDay tauLock policy.utcOffsetSecs x.expiresAt).mapError .calendar
  let shape ← (policy.layout.shape request.notationId).mapError .record
  let attested ← (checkShape request.presentation {
    shape := shape
    attestationKey := v.attestationKey
    rootCerts := v.rootCerts
    maxSessionSecs := v.maxSessionSecs }).mapError fun e => .presentation (.shape e)
  ensure (x.tAtt = attested.tAtt) (.tAtt x.tAtt attested.tAtt)
  let inputs ← v.settleInputs keccak256 x attested day
  let valid ← (policy.verifier.verify request.proof inputs).mapError .groth16
  ensure (valid = true) (.proof .settle)
  .ok (Offchain.digest keccak256 x.value v.domain.value)

/-- Records the nonce and signs the digest. -/
def recordAndSign (store : NonceStore) (eta digest : Bytes32) :
    Except (Refusal ε) Bytes × NonceStore :=
  match store.record (nonceOf eta) .done with
  | (.error e, store) => (.error (.nonce e), store)
  | (.ok (), store) => (context (v.key digest) .key, store)

/-- The answer to a request, whose checks find the digest to sign, and the record after it. -/
def answer (store : NonceStore) (eta : Bytes32) (checked : Except (Refusal ε) Bytes32) :
    Except (Refusal ε) Bytes × NonceStore :=
  match checked with
  | .error e => (.error e, store)
  | .ok digest => v.recordAndSign store eta digest

def signRegister (store : NonceStore) (request : RegisterRequest Presentation Proof) :
    Except (Refusal ε) Bytes × NonceStore :=
  v.answer store request.statement.eta (v.checkRegister keccak256 checkShape store request)

def signApply (store : NonceStore) (request : ApplyRequest Presentation Proof) :
    Except (Refusal ε) Bytes × NonceStore :=
  v.answer store request.statement.eta (v.checkApply keccak256 checkShape store request)

def signSettle (store : NonceStore) (request : SettleRequest Presentation Proof) :
    Except (Refusal ε) Bytes × NonceStore :=
  v.answer store request.statement.eta (v.checkSettle keccak256 checkShape store request)

/-! ## Which requests pass -/

/-- What is expected of a presentation of a response shape. -/
def expectation (shape : ResponseShape) : ShapeExpectation VerifyingKey :=
  ⟨shape, v.attestationKey, v.rootCerts, v.maxSessionSecs⟩

/-- A registration that passes every check: the proof is of the attested commitments, of the
property of the statement, and of its digest. -/
def PassesRegister (store : NonceStore) (request : RegisterRequest Presentation Proof) : Prop :=
  let x := request.statement
  ∃ policy shape account owners property,
    v.policies x.policyId = some policy ∧ nonceOf x.eta ∉ store.seen ∧
    policy.layout.propertyIdWord request.propertyId = .ok (wordBytes x.txData.propertyId) ∧
    policy.layout.shape request.propertyId = .ok shape ∧
    checkShape request.presentation (v.expectation shape) =
      .ok ⟨x.tAtt, [account, owners, property]⟩ ∧
    policy.verifier.verify request.proof (limbTexts account ++ limbTexts owners ++
      limbTexts property ++ limbTexts x.txData.propertyId ++
      [bindValue (digest keccak256 (.register x) v.domain)]) = .ok true

/-- An application that passes every check. -/
def PassesApply (store : NonceStore) (request : ApplyRequest Presentation Proof) : Prop :=
  let x := request.statement
  ∃ policy shape account income,
    v.applyPolicies x.policyId = some policy ∧ nonceOf x.eta ∉ store.seen ∧
    policy.layout.shape "" = .ok shape ∧
    checkShape request.presentation (v.expectation shape) = .ok ⟨x.tAtt, [account, income]⟩ ∧
    x.txData.amount.toNat < 2 ^ PHI_A_AMOUNT_BITS ∧ x.cB.toNat < BN254_R ∧
    policy.verifier.verify request.proof (limbTexts account ++ limbTexts income ++
      [toString x.cB.toNat, toString x.txData.amount.toNat,
        bindValue (digest keccak256 (.apply x) v.domain)]) = .ok true

/-- A settlement that passes every check; the engagement day is that of `expiresAt`. -/
def PassesSettle (store : NonceStore) (request : SettleRequest Presentation Proof) : Prop :=
  let x := request.statement
  ∃ policy tauLock day shape account property tenant date,
    v.settlePolicies x.policyId = some policy ∧ v.tauLock = some tauLock ∧
    nonceOf x.eta ∉ store.seen ∧
    IsSubject request.notationId ∧
    statementDay tauLock policy.utcOffsetSecs x.expiresAt = .ok day ∧
    policy.layout.shape request.notationId = .ok shape ∧
    checkShape request.presentation (v.expectation shape) =
      .ok ⟨x.tAtt, [account, property, tenant, date]⟩ ∧
    day < 2 ^ 27 ∧ x.cB.toNat < BN254_R ∧
    policy.verifier.verify request.proof (limbTexts property ++ limbTexts tenant ++ limbTexts date ++
      limbTexts x.txData.propertyId ++ [toString x.cB.toNat, toString day,
        bindValue (digest keccak256 (.settle x) v.domain)]) = .ok true

/-! ## The checks find what passes -/

variable {keccak256 checkShape v} {store : NonceStore}

theorem ensureUnsigned_eq_ok {eta : Bytes32} {u : Unit} :
    ensureUnsigned (ε := ε) store eta = .ok u ↔ nonceOf eta ∉ store.seen := by
  rw [ensureUnsigned, ensure_eq_ok, NonceStore.contains, decide_eq_false_iff_not]

theorem registerInputs_eq (x : Register) (tAtt : Uint64) (account owners property : Bytes32) :
    v.registerInputs keccak256 x
        ⟨tAtt, wordBytes account, wordBytes owners, wordBytes property⟩ =
      .ok (limbTexts account ++ limbTexts owners ++ limbTexts property ++
        limbTexts x.txData.propertyId ++ [bindValue (digest keccak256 (.register x) v.domain)]) := by
  rw [← Offchain.digest_value]
  simp only [registerInputs, Attested.phiRPublic_eq, bind, Except.bind]
  simp [PhiRPublic.inputs, Statement.value]

theorem applyInputs_eq_ok {x : Apply} {attested : AttestedShape} {inputs : List String} :
    v.applyInputs (ε := ε) keccak256 x attested = .ok inputs ↔ ∃ account income,
      attested.hiddenHashes = [account, income] ∧ x.txData.amount.toNat < 2 ^ PHI_A_AMOUNT_BITS ∧
        x.cB.toNat < BN254_R ∧ inputs = limbTexts account ++ limbTexts income ++
          [toString x.cB.toNat, toString x.txData.amount.toNat,
            bindValue (digest keccak256 (.apply x) v.domain)] := by
  rw [← Offchain.digest_value]
  unfold applyInputs
  constructor
  · intro h
    split at h
    · rename_i account income hhashes
      simp only [bind_eq_ok, mapError_eq_ok, PhiAPublic.new_eq_ok, Except.ok.injEq] at h
      obtain ⟨_, ⟨hamount, hcB, rfl⟩, rfl⟩ := h
      exact ⟨account, income, hhashes, hamount, hcB, by simp [PhiAPublic.inputs, Statement.value]⟩
    · cases h
  · rintro ⟨account, income, hhashes, hamount, hcB, rfl⟩
    simp only [hhashes, bind_eq_ok, mapError_eq_ok, PhiAPublic.new_eq_ok, Except.ok.injEq]
    exact ⟨_, ⟨hamount, hcB, rfl⟩, by simp [PhiAPublic.inputs, Statement.value]⟩

theorem settleInputs_eq_ok {x : Settle} {attested : AttestedShape} {day : ℕ}
    {inputs : List String} :
    v.settleInputs (ε := ε) keccak256 x attested day = .ok inputs ↔
      ∃ account property tenant date,
      attested.hiddenHashes = [account, property, tenant, date] ∧ day < 2 ^ 27 ∧
        x.cB.toNat < BN254_R ∧ inputs = limbTexts property ++ limbTexts tenant ++ limbTexts date ++
          limbTexts x.txData.propertyId ++ [toString x.cB.toNat, toString day,
            bindValue (digest keccak256 (.settle x) v.domain)] := by
  rw [← Offchain.digest_value]
  unfold settleInputs
  constructor
  · intro h
    split at h
    · rename_i account property tenant date hhashes
      simp only [bind_eq_ok, mapError_eq_ok, PhiSPublic.new_eq_ok, Except.ok.injEq] at h
      obtain ⟨_, ⟨hday, hcB, rfl⟩, rfl⟩ := h
      exact ⟨account, property, tenant, date, hhashes, hday, hcB,
        by simp [PhiSPublic.inputs, Statement.value]⟩
    · cases h
  · rintro ⟨account, property, tenant, date, hhashes, hday, hcB, rfl⟩
    simp only [hhashes, bind_eq_ok, mapError_eq_ok, PhiSPublic.new_eq_ok, Except.ok.injEq]
    exact ⟨_, ⟨hday, hcB, rfl⟩, by simp [PhiSPublic.inputs, Statement.value]⟩

theorem checkRegister_eq_ok {request : RegisterRequest Presentation Proof} {out : Bytes32} :
    v.checkRegister keccak256 checkShape store request = .ok out ↔
      v.PassesRegister keccak256 checkShape store request ∧
        out = digest keccak256 (.register request.statement) v.domain := by
  rw [← Offchain.digest_value]
  simp only [checkRegister, PassesRegister, bind_eq_ok, ensure_eq_ok, mapError_eq_ok,
    context_eq_ok, ensureUnsigned_eq_ok, checkPresentation_eq_ok, exists_const, Except.ok.injEq]
  constructor
  · rintro ⟨policy, hpolicy, hfresh, word, hword, rfl, ⟨tAtt, _, _, _⟩,
      ⟨shape, a, o, p, hshape, hcheck, hattested⟩, htime, inputs, hinputs, _, hverify, rfl, rfl⟩
    obtain rfl : request.statement.tAtt = tAtt := htime
    rw [hattested, registerInputs_eq, Except.ok.injEq] at hinputs
    subst hinputs
    exact ⟨⟨policy, shape, a, o, p, hpolicy, hfresh, hword, hshape, hcheck, hverify⟩, rfl⟩
  · rintro ⟨⟨policy, shape, a, o, p, hpolicy, hfresh, hword, hshape, hcheck, hverify⟩, rfl⟩
    exact ⟨policy, hpolicy, hfresh, _, hword, rfl,
      ⟨request.statement.tAtt, wordBytes a, wordBytes o, wordBytes p⟩,
      ⟨shape, a, o, p, hshape, hcheck, rfl⟩, rfl, _, registerInputs_eq _ _ _ _ _, true, hverify, rfl,
      rfl⟩

theorem checkApply_eq_ok {request : ApplyRequest Presentation Proof} {out : Bytes32} :
    v.checkApply keccak256 checkShape store request = .ok out ↔
      v.PassesApply keccak256 checkShape store request ∧
        out = digest keccak256 (.apply request.statement) v.domain := by
  rw [← Offchain.digest_value]
  simp only [checkApply, PassesApply, bind_eq_ok, ensure_eq_ok, mapError_eq_ok, context_eq_ok,
    ensureUnsigned_eq_ok, applyInputs_eq_ok, exists_const, Except.ok.injEq]
  constructor
  · rintro ⟨policy, hpolicy, hfresh, shape, hshape, ⟨tAtt, _⟩, hcheck, htime, _,
      ⟨account, income, rfl, hamount, hcB, rfl⟩, _, hverify, rfl, rfl⟩
    obtain rfl : request.statement.tAtt = tAtt := htime
    exact ⟨⟨policy, shape, account, income, hpolicy, hfresh, hshape, hcheck, hamount, hcB, hverify⟩,
      rfl⟩
  · rintro ⟨⟨policy, shape, account, income, hpolicy, hfresh, hshape, hcheck, hamount, hcB,
      hverify⟩, rfl⟩
    exact ⟨policy, hpolicy, hfresh, shape, hshape, _, hcheck, rfl, _,
      ⟨account, income, rfl, hamount, hcB, rfl⟩, true, hverify, rfl, rfl⟩

theorem checkSettle_eq_ok {request : SettleRequest Presentation Proof} {out : Bytes32} :
    v.checkSettle keccak256 checkShape store request = .ok out ↔
      v.PassesSettle keccak256 checkShape store request ∧
        out = digest keccak256 (.settle request.statement) v.domain := by
  rw [← Offchain.digest_value]
  simp only [checkSettle, PassesSettle, checkSubject, bind_eq_ok, ensure_eq_ok, mapError_eq_ok,
    context_eq_ok, ensureUnsigned_eq_ok, settleInputs_eq_ok, exists_const, Except.ok.injEq]
  constructor
  · rintro ⟨policy, hpolicy, tauLock, htau, hfresh, hsubject, day, hday, shape, hshape, ⟨tAtt, _⟩,
      hcheck, htime, _, ⟨account, property, tenant, date, rfl, h27, hcB, rfl⟩, _, hverify, rfl, rfl⟩
    obtain rfl : request.statement.tAtt = tAtt := htime
    exact ⟨⟨policy, tauLock, day, shape, account, property, tenant, date, hpolicy, htau, hfresh,
      hsubject, hday, hshape, hcheck, h27, hcB, hverify⟩, rfl⟩
  · rintro ⟨⟨policy, tauLock, day, shape, account, property, tenant, date, hpolicy, htau, hfresh,
      hsubject, hday, hshape, hcheck, h27, hcB, hverify⟩, rfl⟩
    exact ⟨policy, hpolicy, tauLock, htau, hfresh, hsubject, day, hday, shape, hshape, _, hcheck,
      rfl, _, ⟨account, property, tenant, date, rfl, h27, hcB, rfl⟩, true, hverify, rfl, rfl⟩

end

end PolicyVerifier

/-! ## Serving requests -/

/-- A request on any connection. -/
inductive Request (Presentation Proof : Type) where
  | register (request : RegisterRequest Presentation Proof)
  | apply (request : ApplyRequest Presentation Proof)
  | settle (request : SettleRequest Presentation Proof)

def Request.statement {Presentation Proof : Type} : Request Presentation Proof → Statement
  | register request => .register request.statement
  | apply request => .apply request.statement
  | settle request => .settle request.statement

/-- A request with its answer, and the record before and after it. -/
structure Served (Presentation Proof ε : Type) where
  before : NonceStore
  request : Request Presentation Proof
  result : Except (Refusal ε) Bytes
  after : NonceStore

/-- The record with a nonce more, in memory and in the file. -/
def NonceStore.add (store : NonceStore) (eta : Nonce) : NonceStore :=
  ⟨⟨store.file.content ++ nonceLine eta, []⟩, insert eta store.seen⟩

namespace PolicyVerifier

section

variable {Presentation VerifyingKey Proof ε : Type} (keccak256 : Bytes → Bytes32)
  (checkShape : Presentation → ShapeExpectation VerifyingKey → Except ε AttestedShape)
  (v : PolicyVerifier VerifyingKey Proof)

def sign (store : NonceStore) : Request Presentation Proof →
    Except (Refusal ε) Bytes × NonceStore
  | .register request => v.signRegister keccak256 checkShape store request
  | .apply request => v.signApply keccak256 checkShape store request
  | .settle request => v.signSettle keccak256 checkShape store request

/-- The request passes every check of its phase. -/
def Passes (store : NonceStore) : Request Presentation Proof → Prop
  | .register request => v.PassesRegister keccak256 checkShape store request
  | .apply request => v.PassesApply keccak256 checkShape store request
  | .settle request => v.PassesSettle keccak256 checkShape store request

/-- Answers requests in the order in which they take the mutex. -/
def serve (store : NonceStore) :
    List (Request Presentation Proof) → List (Served Presentation Proof ε)
  | [] => []
  | request :: requests =>
    let (result, after) := v.sign keccak256 checkShape store request
    ⟨store, request, result, after⟩ :: serve after requests

end

section

variable {Presentation VerifyingKey Proof ε : Type} {keccak256 : Bytes → Bytes32}
  {checkShape : Presentation → ShapeExpectation VerifyingKey → Except ε AttestedShape}
  {v : PolicyVerifier VerifyingKey Proof} {store : NonceStore}

/-- What passes has a nonce that is not recorded. -/
theorem Passes.fresh {request : Request Presentation Proof}
    (h : v.Passes keccak256 checkShape store request) :
    nonceOf request.statement.eta ∉ store.seen := by
  cases request with
  | register request =>
    obtain ⟨_, _, _, _, _, _, hfresh, _⟩ := h
    exact hfresh
  | apply request =>
    obtain ⟨_, _, _, _, _, hfresh, _⟩ := h
    exact hfresh
  | settle request =>
    obtain ⟨_, _, _, _, _, _, _, _, _, _, hfresh, _⟩ := h
    exact hfresh

/-- An answer either records the nonce of a request that passes, and is the signature of its digest,
or it is a refusal and leaves the record as it is. -/
theorem answer_cases {eta : Bytes32} {checked : Except (Refusal ε) Bytes32} {passes : Prop}
    {expected : Bytes32} (hfresh : passes → nonceOf eta ∉ store.seen)
    (hchecked : ∀ out, checked = .ok out ↔ passes ∧ out = expected) :
    passes ∧ v.answer store eta checked =
        (context (v.key expected) .key, store.add (nonceOf eta)) ∨
      ¬ passes ∧ ∃ e, v.answer store eta checked = (.error e, store) := by
  cases checked with
  | error e =>
    refine .inr ⟨fun hp => ?_, e, rfl⟩
    cases (hchecked expected).mpr ⟨hp, rfl⟩
  | ok out =>
    obtain ⟨hp, rfl⟩ := (hchecked out).mp rfl
    refine .inl ⟨hp, ?_⟩
    have hrecord : store.record (nonceOf eta) .done = (.ok (), store.add (nonceOf eta)) :=
      NonceStore.record_eq_ok.mpr ⟨hfresh hp, rfl, rfl⟩
    simp only [answer, recordAndSign, hrecord]

theorem sign_cases (store : NonceStore) (request : Request Presentation Proof) :
    v.Passes keccak256 checkShape store request ∧ v.sign keccak256 checkShape store request =
        (context (v.key (digest keccak256 request.statement v.domain)) .key,
          store.add (nonceOf request.statement.eta)) ∨
      ¬ v.Passes keccak256 checkShape store request ∧
        ∃ e, v.sign keccak256 checkShape store request = (.error e, store) := by
  cases request with
  | register request => exact answer_cases Passes.fresh fun _ => checkRegister_eq_ok
  | apply request => exact answer_cases Passes.fresh fun _ => checkApply_eq_ok
  | settle request => exact answer_cases Passes.fresh fun _ => checkSettle_eq_ok

/-! ## Whole runs -/

/-- The nonces of the answers that are signatures. -/
def signedEtas (served : List (Served Presentation Proof ε)) : List Bytes32 :=
  served.filterMap fun a =>
    match a.result with
    | .ok _ => some a.request.statement.eta
    | .error _ => none

/-- What is signed from a record on is not in it, and is signed once. -/
theorem signedEtas_serve (requests : List (Request Presentation Proof)) :
    (signedEtas (v.serve keccak256 checkShape store requests)).Nodup ∧
      ∀ eta ∈ signedEtas (v.serve keccak256 checkShape store requests),
        nonceOf eta ∉ store.seen := by
  induction requests generalizing store with
  | nil => exact ⟨List.nodup_nil, by simp [serve, signedEtas]⟩
  | cons request requests ih =>
    rw [serve]
    obtain ⟨hp, hsign⟩ | ⟨-, e, hsign⟩ := sign_cases (v := v) store request
    · rw [hsign]
      obtain ⟨hnodup, hfresh⟩ := @ih (store.add (nonceOf request.statement.eta))
      have hlater : ∀ eta ∈ signedEtas (v.serve keccak256 checkShape
          (store.add (nonceOf request.statement.eta)) requests), nonceOf eta ∉ store.seen :=
        fun eta heta hseen => hfresh eta heta (Finset.mem_insert_of_mem hseen)
      cases v.key (digest keccak256 request.statement v.domain) with
      | none => exact ⟨hnodup, hlater⟩
      | some sigma =>
        refine ⟨List.nodup_cons.mpr ⟨fun hmem => ?_, hnodup⟩, fun eta heta => ?_⟩
        · exact hfresh _ hmem (Finset.mem_insert_self _ _)
        · rcases List.mem_cons.mp heta with rfl | hrest
          · exact hp.fresh
          · exact hlater eta hrest
    · rw [hsign]
      exact ih

/-- Every answer of a run is one of `sign` on the record before it. -/
theorem sign_of_mem_serve {requests : List (Request Presentation Proof)}
    {a : Served Presentation Proof ε} (h : a ∈ v.serve keccak256 checkShape store requests) :
    v.sign keccak256 checkShape a.before a.request = (a.result, a.after) := by
  induction requests generalizing store with
  | nil => cases h
  | cons request requests ih =>
    rw [serve] at h
    rcases List.mem_cons.mp h with rfl | hrest
    · rfl
    · exact ih hrest

end

end PolicyVerifier

open PolicyVerifier in
/-- **One signature per nonce.** Whatever the record at first and whatever the requests, each nonce
is signed once, over all phases; a signature is of a statement that passes every check of its phase,
and what does not pass leaves the record as it is, in memory and in the file. -/
theorem signed_once {Presentation VerifyingKey Proof ε : Type} (keccak256 : Bytes → Bytes32)
    (checkShape : Presentation → ShapeExpectation VerifyingKey → Except ε AttestedShape)
    (v : PolicyVerifier VerifyingKey Proof) (store : NonceStore)
    (requests : List (Request Presentation Proof)) :
    (signedEtas (v.serve keccak256 checkShape store requests)).Nodup ∧
    ∀ a ∈ v.serve keccak256 checkShape store requests,
      (∀ sigma, a.result = .ok sigma → v.Passes keccak256 checkShape a.before a.request ∧
        v.key (digest keccak256 a.request.statement v.domain) = some sigma) ∧
      (v.Passes keccak256 checkShape a.before a.request →
        a.after = a.before.add (nonceOf a.request.statement.eta)) ∧
      (¬ v.Passes keccak256 checkShape a.before a.request →
        (∃ e, a.result = .error e) ∧ a.after = a.before) := by
  refine ⟨(signedEtas_serve requests).1, fun a ha => ?_⟩
  have hsign := sign_of_mem_serve ha
  obtain ⟨hp, h⟩ | ⟨hp, e, h⟩ := sign_cases (v := v) a.before a.request
  · obtain ⟨hresult, hafter⟩ := Prod.mk.inj (hsign.symm.trans h)
    refine ⟨fun sigma hsigma => ⟨hp, ?_⟩, fun _ => hafter, fun hno => absurd hp hno⟩
    exact context_eq_ok.mp (hresult.symm.trans hsigma)
  · obtain ⟨hresult, hafter⟩ := Prod.mk.inj (hsign.symm.trans h)
    refine ⟨fun sigma hsigma => ?_, fun hyes => absurd hyes hp, fun _ => ⟨⟨e, hresult⟩, hafter⟩⟩
    cases hresult.symm.trans hsigma

end Pprev
