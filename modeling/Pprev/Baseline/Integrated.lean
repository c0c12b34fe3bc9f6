import Pprev.Baseline.Binding
import Pprev.Baseline.RequestLine
import Pprev.Notary.PolicyVerifier

/-!
# The integrated verifiers of the baseline

The contracts `IntegratedRegisterVerifier.sol`, `IntegratedApplyVerifier.sol` and
`IntegratedSettleVerifier.sol` over the exported Groth16 verifiers of the predicates. They find the
public inputs of a proof in a submission; for the same statement and commitments the policy verifier
finds the same.
-/

namespace Pprev

open Evm

/-! ## Public inputs as words -/

namespace BaseVerifier

/-- The order of the scalar field. -/
def R : Uint256 := 21888242871839275222246405745257275088548364400416034343698204186575808495617

/-- The two halves of a word, most significant first. -/
def wordLimbs (w : Bytes32) : List Uint256 := [w >>> 128, w &&& 0xffffffffffffffffffffffffffffffff]

/-- The digest of a struct hash in the domain of a verifier, which has the name and the version of
the escrow contract's. -/
def typedDataHash (keccak256 : Bytes → Bytes32) (chainid : Uint256) (this : Address)
    (structHash : Bytes32) : Bytes32 :=
  let domainSeparator := keccak256 (abiEncode [keccak256 (utf8 DOMAIN_TYPE),
    keccak256 (utf8 "PPREV"), keccak256 (utf8 "1"), chainid, wordOfAddress this])
  keccak256 ([0x19, 0x01] ++ wordBytes domainSeparator ++ wordBytes structHash)

end BaseVerifier

/-! ## Submissions -/

structure RegisterSubmission (Proof : Type) where
  att : Attestation
  cTx : Bytes32
  txData : TxData
  policyId : Bytes32
  submitter : Address
  eta : Bytes32
  proof : Proof

structure ApplySubmission (Proof : Type) where
  att : Attestation
  requestLine : Bytes
  txId : Uint256
  cTx : Bytes32
  txData : TxData
  cB : Bytes32
  policyId : Bytes32
  submitter : Address
  eta : Bytes32
  proof : Proof

structure SettleSubmission (Proof : Type) where
  att : Attestation
  notationId : Bytes
  engId : Uint256
  txId : Uint256
  cTx : Bytes32
  txData : TxData
  cB : Bytes32
  expiresAt : Uint256
  policyId : Bytes32
  submitter : Address
  eta : Bytes32
  proof : Proof

def AMOUNT_BITS : ℕ := 96

/-! ## The contracts -/

structure IntegratedRegisterVerifier (Proof : Type) where
  base : BaseVerifier
  /-- The exported verifier, of nine public inputs. -/
  PHI_R : Proof → List Uint256 → Bool

structure IntegratedApplyVerifier (Proof : Type) where
  base : BaseVerifier
  /-- The exported verifier, of seven public inputs. -/
  PHI_A : Proof → List Uint256 → Bool
  REQUEST_LINE_HASH : Bytes32

structure IntegratedSettleVerifier (Proof : Type) where
  base : BaseVerifier
  /-- The exported verifier, of eleven public inputs. -/
  PHI_S : Proof → List Uint256 → Bool
  TAU_LOCK : Uint64
  UTC_OFFSET_SECS : Int64

section

variable {Proof : Type}

def IntegratedRegisterVerifier.new (c : BaseConfig) (phiR : Proof → List Uint256 → Bool) :
    Except BaselineError (IntegratedRegisterVerifier Proof) := do
  let base ← BaseVerifier.new c
  ensure (c.prefixHashes.length = 5) .BadConfig
  .ok ⟨base, phiR⟩

def IntegratedApplyVerifier.new (c : BaseConfig) (phiA : Proof → List Uint256 → Bool)
    (requestLineHash : Bytes32) : Except BaselineError (IntegratedApplyVerifier Proof) := do
  let base ← BaseVerifier.new c
  ensure (c.prefixHashes.length = 4) .BadConfig
  .ok ⟨base, phiA, requestLineHash⟩

def IntegratedSettleVerifier.new (c : BaseConfig) (phiS : Proof → List Uint256 → Bool)
    (tauLock : Uint64) (utcOffsetSecs : Int64) :
    Except BaselineError (IntegratedSettleVerifier Proof) := do
  let base ← BaseVerifier.new c
  ensure (c.prefixHashes.length = 6) .BadConfig
  .ok ⟨base, phiS, tauLock, utcOffsetSecs⟩

/-- A request target segment: letters, digits and '-' only, 1 to 64 bytes. -/
def checkNotation (id : Bytes) : Except BaselineError Unit := do
  ensure (¬(id.length = 0 ∨ id.length > 64)) .BadNotation
  id.forM fun b => ensure
    (b ≥ 48 ∧ b ≤ 57 ∨ b ≥ 65 ∧ b ≤ 90 ∨ b ≥ 97 ∧ b ≤ 122 ∨ b = 45) .BadNotation

def EngagementDayError.inVerifier : EngagementDayError → BaselineError
  | BadPublicInput => .BadPublicInput
  | Panic => .Panic

variable (keccak256 sha256 : Bytes → Bytes32)
  (ecrecover : Bytes32 → UInt8 → Bytes32 → Bytes32 → Address) (b : Block) (chainid : Uint256)
  (this : Address)

namespace RegisterSubmission

open BaseVerifier (R wordLimbs typedDataHash)

def ROLE_ACCOUNT : ℕ := 2
def ROLE_OWNERS : ℕ := 3
def ROLE_PROPERTY : ℕ := 4

/-- The struct hash of the statement. -/
def structHash (s : RegisterSubmission Proof) : Bytes32 :=
  hashRegister keccak256 {
    cTx := s.cTx
    txDataHash := hashTxData keccak256 s.txData
    policyId := s.policyId
    submitter := s.submitter
    eta := s.eta
    tAtt := s.att.tAtt }

/-- The public inputs; the check of the attestation has counted the hashes. -/
def pub (s : RegisterSubmission Proof) : List Uint256 :=
  [s.att.hashes.getD ROLE_ACCOUNT 0, s.att.hashes.getD ROLE_OWNERS 0,
      s.att.hashes.getD ROLE_PROPERTY 0, s.txData.propertyId].flatMap wordLimbs ++
    [typedDataHash keccak256 chainid this (s.structHash keccak256) % R]

end RegisterSubmission

namespace ApplySubmission

open BaseVerifier (R wordLimbs typedDataHash)

def ROLE_ACCOUNT : ℕ := 2
def ROLE_INCOME : ℕ := 3

def structHash (s : ApplySubmission Proof) : Bytes32 :=
  hashApply keccak256 {
    txId := s.txId
    cTx := s.cTx
    txDataHash := hashTxData keccak256 s.txData
    cB := s.cB
    policyId := s.policyId
    submitter := s.submitter
    eta := s.eta
    tAtt := s.att.tAtt }

def pub (s : ApplySubmission Proof) : Except BaselineError (List Uint256) := do
  ensure (¬(s.cB ≥ R ∨ s.txData.amount >>> AMOUNT_BITS ≠ 0)) .BadPublicInput
  .ok ([s.att.hashes.getD ROLE_ACCOUNT 0, s.att.hashes.getD ROLE_INCOME 0].flatMap wordLimbs ++
    [s.cB, s.txData.amount, typedDataHash keccak256 chainid this (s.structHash keccak256) % R])

end ApplySubmission

namespace SettleSubmission

open BaseVerifier (R wordLimbs typedDataHash)

def ROLE_PROPERTY : ℕ := 3
def ROLE_TENANT : ℕ := 4
def ROLE_DATE : ℕ := 5

def structHash (s : SettleSubmission Proof) : Bytes32 :=
  hashSettle keccak256 {
    engId := s.engId
    txId := s.txId
    cTx := s.cTx
    txDataHash := hashTxData keccak256 s.txData
    cB := s.cB
    expiresAt := s.expiresAt
    policyId := s.policyId
    submitter := s.submitter
    eta := s.eta
    tAtt := s.att.tAtt }

def pub (v : IntegratedSettleVerifier Proof) (s : SettleSubmission Proof) :
    Except BaselineError (List Uint256) := do
  ensure (¬ s.cB ≥ R) .BadPublicInput
  let day ← (engagementDay v.TAU_LOCK v.UTC_OFFSET_SECS s.expiresAt).mapError (·.inVerifier)
  .ok ([s.att.hashes.getD ROLE_PROPERTY 0, s.att.hashes.getD ROLE_TENANT 0,
      s.att.hashes.getD ROLE_DATE 0, s.txData.propertyId].flatMap wordLimbs ++
    [s.cB, day, typedDataHash keccak256 chainid this (s.structHash keccak256) % R])

end SettleSubmission

def IntegratedRegisterVerifier.verify (v : IntegratedRegisterVerifier Proof)
    (s : RegisterSubmission Proof) : Except BaselineError Bool := do
  v.base.checkAttestation keccak256 sha256 ecrecover b s.att
    (registerRequestLine s.txData.propertyId) s.policyId
  ensure (v.PHI_R s.proof (s.pub keccak256 b.chainid this) = true) .BadProof
  .ok true

def IntegratedApplyVerifier.verify (v : IntegratedApplyVerifier Proof)
    (s : ApplySubmission Proof) : Except BaselineError Bool := do
  ensure (keccak256 s.requestLine = v.REQUEST_LINE_HASH) .BadRequestLine
  v.base.checkAttestation keccak256 sha256 ecrecover b s.att s.requestLine s.policyId
  let pub ← s.pub keccak256 b.chainid this
  ensure (v.PHI_A s.proof pub = true) .BadProof
  .ok true

def IntegratedSettleVerifier.verify (v : IntegratedSettleVerifier Proof)
    (s : SettleSubmission Proof) : Except BaselineError Bool := do
  checkNotation s.notationId
  v.base.checkAttestation keccak256 sha256 ecrecover b s.att
    (utf8 "GET /tenancy/" ++ s.notationId ++ utf8 " HTTP/1.1") s.policyId
  let pub ← s.pub keccak256 b.chainid this v
  ensure (v.PHI_S s.proof pub = true) .BadProof
  .ok true

end

/-! ## Words and texts -/

open BaseVerifier

theorem toNat_R : R.toNat = BN254_R := rfl

theorem toNat_wordLimbs (w : Bytes32) :
    (wordLimbs w).map BitVec.toNat = [w.toNat / 2 ^ 128, w.toNat % 2 ^ 128] := by
  have hmask : (0xffffffffffffffffffffffffffffffff : Uint256).toNat = 2 ^ 128 - 1 := rfl
  simp only [wordLimbs, List.map_cons, List.map_nil, BitVec.toNat_ushiftRight, BitVec.toNat_and,
    hmask, Nat.and_two_pow_sub_one_eq_mod, Nat.shiftRight_eq_div_pow]

theorem wordLimbs_injective : Function.Injective wordLimbs := by
  intro w w' h
  have hnat := congrArg (List.map BitVec.toNat) h
  rw [toNat_wordLimbs, toNat_wordLimbs] at hnat
  obtain ⟨hhi, hlo⟩ := List.cons_eq_cons.mp hnat
  obtain ⟨hlo, -⟩ := List.cons_eq_cons.mp hlo
  refine BitVec.eq_of_toNat_eq ?_
  rw [← Nat.div_add_mod w.toNat (2 ^ 128), hhi, hlo, Nat.div_add_mod]

/-- The texts of words. -/
def texts (words : List Uint256) : List String := words.map fun w => toString w.toNat

theorem texts_wordLimbs (w : Bytes32) : texts (wordLimbs w) = limbTexts w := by
  have h := congrArg (List.map toString) (toNat_wordLimbs w)
  rw [List.map_map] at h
  rw [limbTexts, limbs_wordBytes]
  exact h

theorem texts_flatMap_wordLimbs (ws : List Bytes32) :
    texts (ws.flatMap wordLimbs) = ws.flatMap limbTexts := by
  rw [texts, List.map_flatMap]
  exact congrArg (List.flatMap · ws) (funext texts_wordLimbs)

theorem bindValue_eq (digest : Bytes32) : bindValue digest = toString (digest % R).toNat := by
  rw [bindValue, packed_wordBytes, BitVec.toNat_umod, toNat_R]

/-- The texts are those of the words, entry by entry, and the decoder of the Groth16 verifier reads
each as the element of the scalar field that the word is. -/
structure SameInputs (inputs : List String) (pub : List Uint256) : Prop where
  same : inputs = texts pub
  below : ∀ w ∈ pub, w.toNat < BN254_R
  read : ∃ elems, inputs.mapM (field BN254_R) = .ok elems ∧
    elems.map Fin.val = pub.map BitVec.toNat

theorem SameInputs.of_below {pub : List Uint256} (h : ∀ w ∈ pub, w.toNat < BN254_R) :
    SameInputs (texts pub) pub := by
  refine ⟨rfl, h, pub.pmap (fun w hw => ⟨w.toNat, hw⟩) h, ?_, ?_⟩
  · have htexts : texts pub = (pub.map BitVec.toNat).map toString := by
      rw [texts, List.map_map]
      rfl
    rw [htexts, mapM_field (by decide), List.map_pmap, List.pmap_eq_map]
  · rw [List.map_pmap, List.pmap_eq_map]

theorem lt_of_mem_wordLimbs {ws : List Bytes32} : ∀ w ∈ ws.flatMap wordLimbs, w.toNat < BN254_R := by
  intro w hw
  obtain ⟨x, -, hx⟩ := List.mem_flatMap.mp hw
  have hmem : w.toNat ∈ (wordLimbs x).map BitVec.toNat := List.mem_map_of_mem hx
  have hlt : w.toNat < 2 ^ 128 := by
    rw [toNat_wordLimbs] at hmem
    have hx := x.isLt
    simp only [List.mem_cons, List.not_mem_nil, or_false] at hmem
    omega
  exact hlt.trans (by decide)

theorem digest_lt (digest : Bytes32) : (digest % R).toNat < BN254_R := by
  rw [BitVec.toNat_umod, toNat_R]
  exact Nat.mod_lt _ (by decide)

/-- Public inputs that are the limbs of words and numbers below the field order. -/
theorem SameInputs.of_words (words : List Bytes32) {numbers : List Uint256}
    (h : ∀ w ∈ numbers, w.toNat < BN254_R) :
    SameInputs (words.flatMap limbTexts ++ texts numbers)
      (words.flatMap wordLimbs ++ numbers) := by
  have hall : ∀ w ∈ words.flatMap wordLimbs ++ numbers, w.toNat < BN254_R :=
    List.forall_mem_append.mpr ⟨lt_of_mem_wordLimbs, h⟩
  have hsame := SameInputs.of_below hall
  rwa [texts, List.map_append, ← texts, ← texts, texts_flatMap_wordLimbs] at hsame

/-- Words of equally many entries are determined by their limbs. -/
theorem flatMap_wordLimbs_inj : ∀ {ws ws' : List Bytes32}, ws.length = ws'.length →
    ws.flatMap wordLimbs = ws'.flatMap wordLimbs → ws = ws'
  | [], [], _, _ => rfl
  | _ :: _, [], hlen, _ => by cases hlen
  | [], _ :: _, hlen, _ => by cases hlen
  | w :: ws, w' :: ws', hlen, h => by
    rw [List.flatMap_cons, List.flatMap_cons] at h
    obtain ⟨hw, hws⟩ := List.append_inj h (by simp only [wordLimbs, List.length_cons])
    rw [wordLimbs_injective hw, flatMap_wordLimbs_inj (Nat.succ.inj hlen) hws]

/-! ## The same public inputs -/

/-- The commitments of the hidden fields, whose roles come after those of the structure and of the
request line, in the order of the response shape. -/
def Attestation.Attests (a : Attestation) (hidden : List Bytes32) : Prop :=
  ∃ structure_ request, a.hashes = structure_ :: request :: hidden

section

variable {Proof : Type}

/-- The statement of a submission. -/
def RegisterSubmission.statement (s : RegisterSubmission Proof) : Register :=
  ⟨s.cTx, s.txData, s.policyId, s.submitter, s.eta, s.att.tAtt⟩

def ApplySubmission.statement (s : ApplySubmission Proof) : Apply :=
  ⟨s.txId, s.cTx, s.txData, s.cB, s.policyId, s.submitter, s.eta, s.att.tAtt⟩

def SettleSubmission.statement (s : SettleSubmission Proof) : Settle :=
  ⟨s.engId, s.txId, s.cTx, s.txData, s.cB, s.expiresAt, s.policyId, s.submitter, s.eta, s.att.tAtt⟩

variable {VerifyingKey ε : Type} {keccak256 : Bytes → Bytes32}
  {v : PolicyVerifier VerifyingKey Proof}

/-- The digest of a submission is that of its statement. -/
theorem RegisterSubmission.digest_eq (s : RegisterSubmission Proof) (domain : Domain) :
    typedDataHash keccak256 domain.chainId domain.verifyingContract (s.structHash keccak256) =
      digest keccak256 (.register s.statement) domain := rfl

theorem ApplySubmission.digest_eq (s : ApplySubmission Proof) (domain : Domain) :
    typedDataHash keccak256 domain.chainId domain.verifyingContract (s.structHash keccak256) =
      digest keccak256 (.apply s.statement) domain := rfl

theorem SettleSubmission.digest_eq (s : SettleSubmission Proof) (domain : Domain) :
    typedDataHash keccak256 domain.chainId domain.verifyingContract (s.structHash keccak256) =
      digest keccak256 (.settle s.statement) domain := rfl

theorem RegisterSubmission.pub_eq {s : RegisterSubmission Proof} {chainid : Uint256}
    {this : Address} {account owners property : Bytes32}
    (h : s.att.Attests [account, owners, property]) :
    s.pub keccak256 chainid this =
      [account, owners, property, s.txData.propertyId].flatMap wordLimbs ++
        [typedDataHash keccak256 chainid this (s.structHash keccak256) % R] := by
  obtain ⟨_, _, hhashes⟩ := h
  rw [pub, hhashes]
  rfl

theorem register_inputs {s : RegisterSubmission Proof} {account owners property : Bytes32}
    (h : s.att.Attests [account, owners, property]) :
    ∃ attested inputs,
      Attested.ofShape (ε := ε) ⟨s.att.tAtt, [account, owners, property]⟩ = .ok attested ∧
      v.registerInputs keccak256 s.statement attested = .ok inputs ∧
      SameInputs inputs (s.pub keccak256 v.domain.chainId v.domain.verifyingContract) := by
  refine ⟨_, _, rfl, PolicyVerifier.registerInputs_eq _ _ _ _ _, ?_⟩
  have hsame := SameInputs.of_words [account, owners, property, s.txData.propertyId]
    (List.forall_mem_singleton.mpr (digest_lt (digest keccak256 (.register s.statement) v.domain)))
  rw [RegisterSubmission.pub_eq h, s.digest_eq, bindValue_eq]
  simpa only [RegisterSubmission.statement, texts, List.flatMap_cons, List.flatMap_nil,
    List.append_nil, List.append_assoc, List.map_cons, List.map_nil] using hsame

theorem amount_shift_eq_zero {amount : Uint256} :
    amount >>> AMOUNT_BITS = 0 ↔ amount.toNat < 2 ^ PHI_A_AMOUNT_BITS := by
  have hzero : (0 : Uint256).toNat = 0 := rfl
  rw [← BitVec.toNat_inj, BitVec.toNat_ushiftRight, Nat.shiftRight_eq_div_pow, hzero,
    Nat.div_eq_zero_iff, AMOUNT_BITS, PHI_A_AMOUNT_BITS]
  exact or_iff_right (by decide)

/-- The contract takes exactly the numbers that the policy verifier takes. -/
theorem ApplySubmission.pub_eq_ok {s : ApplySubmission Proof} {chainid : Uint256} {this : Address}
    {account income : Bytes32} (h : s.att.Attests [account, income]) {pub : List Uint256} :
    s.pub keccak256 chainid this = .ok pub ↔
      (s.cB.toNat < BN254_R ∧ s.txData.amount.toNat < 2 ^ PHI_A_AMOUNT_BITS) ∧
        pub = [account, income].flatMap wordLimbs ++ [s.cB, s.txData.amount,
          typedDataHash keccak256 chainid this (s.structHash keccak256) % R] := by
  obtain ⟨_, _, hhashes⟩ := h
  simp only [ApplySubmission.pub, hhashes, bind_eq_ok, ensure_eq_ok, exists_const, Except.ok.injEq,
    not_or, not_not, ge_iff_le, BitVec.not_le, amount_shift_eq_zero, BitVec.lt_def, toNat_R]
  exact and_congr_right fun _ => eq_comm

theorem apply_inputs {s : ApplySubmission Proof} {account income : Bytes32}
    (h : s.att.Attests [account, income])
    (hcB : s.cB.toNat < BN254_R) (hamount : s.txData.amount.toNat < 2 ^ PHI_A_AMOUNT_BITS) :
    ∃ inputs pub,
      v.applyInputs (ε := ε) keccak256 s.statement ⟨s.att.tAtt, [account, income]⟩ = .ok inputs ∧
      s.pub keccak256 v.domain.chainId v.domain.verifyingContract = .ok pub ∧
      SameInputs inputs pub := by
  refine ⟨_, _, PolicyVerifier.applyInputs_eq_ok.mpr ⟨_, _, rfl, hamount, hcB, rfl⟩,
    (ApplySubmission.pub_eq_ok h).mpr ⟨⟨hcB, hamount⟩, rfl⟩, ?_⟩
  have hnumbers : ∀ w ∈ [s.cB, s.txData.amount,
      digest keccak256 (.apply s.statement) v.domain % R], w.toNat < BN254_R := by
    simp only [List.forall_mem_cons]
    exact ⟨hcB, hamount.trans (by decide), digest_lt _, by simp⟩
  have hsame := SameInputs.of_words [account, income] hnumbers
  rw [s.digest_eq, bindValue_eq]
  simpa only [ApplySubmission.statement, texts, List.flatMap_cons, List.flatMap_nil,
    List.append_nil, List.append_assoc, List.map_cons, List.map_nil] using hsame

/-- Both sides refuse `c_B` or the amount as out of range. -/
theorem apply_refused {s : ApplySubmission Proof} (account income : Bytes32) (chainid : Uint256)
    (this : Address)
    (h : BN254_R ≤ s.cB.toNat ∨ 2 ^ PHI_A_AMOUNT_BITS ≤ s.txData.amount.toNat) :
    s.pub keccak256 chainid this = .error .BadPublicInput ∧
      ∃ e, (e = .cB ∨ e = .amount) ∧ v.applyInputs (ε := ε) keccak256 s.statement
        ⟨s.att.tAtt, [account, income]⟩ = .error (.input e) := by
  constructor
  · rw [ApplySubmission.pub, ensure, if_neg]
    · rfl
    · rw [not_not, Ne, amount_shift_eq_zero, not_lt, ge_iff_le, BitVec.le_def, toNat_R]
      exact h
  · simp only [PolicyVerifier.applyInputs, PhiAPublic.new, fieldElement, packed_wordBytes]
    by_cases hamount : s.statement.txData.amount.toNat < 2 ^ PHI_A_AMOUNT_BITS
    · have hcB : ¬ s.statement.cB.toNat < BN254_R :=
        not_lt.mpr (h.resolve_right (not_le.mpr hamount))
      exact ⟨.cB, .inl rfl, by simp only [ensure, if_pos hamount, if_neg hcB]; rfl⟩
    · exact ⟨.amount, .inr rfl, by simp only [ensure, if_neg hamount]; rfl⟩

theorem SettleSubmission.pub_eq_ok {s : SettleSubmission Proof}
    {w : IntegratedSettleVerifier Proof} {chainid : Uint256} {this : Address}
    {account property tenant date : Bytes32} (h : s.att.Attests [account, property, tenant, date])
    {pub : List Uint256} :
    s.pub keccak256 chainid this w = .ok pub ↔ ∃ day,
      (s.cB.toNat < BN254_R ∧ engagementDay w.TAU_LOCK w.UTC_OFFSET_SECS s.expiresAt = .ok day) ∧
        pub = [property, tenant, date, s.txData.propertyId].flatMap wordLimbs ++ [s.cB, day,
          typedDataHash keccak256 chainid this (s.structHash keccak256) % R] := by
  obtain ⟨_, _, hhashes⟩ := h
  simp only [SettleSubmission.pub, hhashes, bind_eq_ok, ensure_eq_ok, exists_const, mapError_eq_ok,
    Except.ok.injEq, ge_iff_le, BitVec.not_le, BitVec.lt_def, toNat_R]
  constructor
  · rintro ⟨hcB, day, hday, rfl⟩
    exact ⟨day, ⟨hcB, hday⟩, rfl⟩
  · rintro ⟨day, ⟨hcB, hday⟩, rfl⟩
    exact ⟨hcB, day, hday, rfl⟩

/-- An engagement day has at most eight digits. -/
theorem engagementDay_lt {tau_lock : Uint64} {utc_offset_secs : Int64} {expiresAt day : Uint256}
    (h : engagementDay tau_lock utc_offset_secs expiresAt = .ok day) : day.toNat < 2 ^ 27 := by
  obtain ⟨-, -, d, hyear, -, hymd⟩ := (engagementDay_eq_ok _ _ _).mp h
  have hlt := Gregorian.Date.ymd_lt (Nat.lt_succ_of_le hyear)
  omega

theorem settle_inputs {s : SettleSubmission Proof} {w : IntegratedSettleVerifier Proof}
    {account property tenant date : Bytes32} (h : s.att.Attests [account, property, tenant, date])
    {day : Uint256} (hday : engagementDay w.TAU_LOCK w.UTC_OFFSET_SECS s.expiresAt = .ok day)
    (hcB : s.cB.toNat < BN254_R) :
    ∃ inputs pub,
      v.settleInputs (ε := ε) keccak256 s.statement
        ⟨s.att.tAtt, [account, property, tenant, date]⟩ day.toNat = .ok inputs ∧
      s.pub keccak256 v.domain.chainId v.domain.verifyingContract w = .ok pub ∧
      SameInputs inputs pub := by
  have h27 := engagementDay_lt hday
  refine ⟨_, _, PolicyVerifier.settleInputs_eq_ok.mpr ⟨_, _, _, _, rfl, h27, hcB, rfl⟩,
    (SettleSubmission.pub_eq_ok h).mpr ⟨day, ⟨hcB, hday⟩, rfl⟩, ?_⟩
  have hnumbers : ∀ x ∈ [s.cB, day, digest keccak256 (.settle s.statement) v.domain % R],
      x.toNat < BN254_R := by
    simp only [List.forall_mem_cons]
    exact ⟨hcB, h27.trans (by decide), digest_lt _, by simp⟩
  have hsame := SameInputs.of_words [property, tenant, date, s.txData.propertyId] hnumbers
  rw [s.digest_eq, bindValue_eq]
  simpa only [SettleSubmission.statement, texts, List.flatMap_cons, List.flatMap_nil,
    List.append_nil, List.append_assoc, List.map_cons, List.map_nil] using hsame

theorem settle_refused {s : SettleSubmission Proof} (w : IntegratedSettleVerifier Proof)
    (account property tenant date : Bytes32) (chainid : Uint256) (this : Address) {day : Uint256}
    (hday : engagementDay w.TAU_LOCK w.UTC_OFFSET_SECS s.expiresAt = .ok day)
    (h : BN254_R ≤ s.cB.toNat) :
    s.pub keccak256 chainid this w = .error .BadPublicInput ∧
      v.settleInputs (ε := ε) keccak256 s.statement
        ⟨s.att.tAtt, [account, property, tenant, date]⟩ day.toNat = .error (.input .cB) := by
  have h27 := engagementDay_lt hday
  constructor
  · rw [SettleSubmission.pub, ensure, if_neg]
    · rfl
    · rw [not_not, ge_iff_le, BitVec.le_def, toNat_R]
      exact h
  · have hcB : ¬ s.statement.cB.toNat < BN254_R := not_lt.mpr h
    simp only [PolicyVerifier.settleInputs, PhiSPublic.new, fieldElement, packed_wordBytes, ensure,
      if_pos h27, if_neg hcB]
    rfl

/-- The limbs of as many words determine them, and what follows. -/
theorem pub_inj {ws ws' : List Bytes32} {ns ns' : List Uint256}
    (h : ws.flatMap wordLimbs ++ ns = ws'.flatMap wordLimbs ++ ns')
    (hlen : ws.length = ws'.length) : ws = ws' ∧ ns = ns' := by
  have hlimbs : ∀ us : List Bytes32, (us.flatMap wordLimbs).length = us.length * 2 := fun us => by
    rw [List.length_flatMap]
    simp [wordLimbs]
  obtain ⟨hfront, hback⟩ := List.append_inj h (by rw [hlimbs, hlimbs, hlen])
  exact ⟨flatMap_wordLimbs_inj hlen hfront, hback⟩

/-! ## What the contracts accept -/

variable {sha256 : Bytes → Bytes32} {ecrecover : Bytes32 → UInt8 → Bytes32 → Bytes32 → Address}
  {b : Block} {this : Address}

/-- What is accepted attests a commitment for every role of the layout. -/
theorem attests_of_check {config : BaseConfig} {base : BaseVerifier} {a : Attestation}
    {requestLine : Bytes} {policyId : Bytes32} (hnew : BaseVerifier.new config = .ok base)
    (h : base.checkAttestation keccak256 sha256 ecrecover b a requestLine policyId = .ok ()) :
    ∃ hidden, a.Attests hidden ∧ hidden.length + 2 = config.prefixHashes.length := by
  have hhashes := (accepted_of_check h).hashes
  rw [← (prefixHash_new hnew).1] at hhashes
  simp only [BaseVerifier.new, bind_eq_ok, ensure_eq_ok, exists_const] at hnew
  have hthree : ¬ config.prefixHashes.length < 3 := (not_or.mp hnew.1).1
  obtain ⟨structure_, rest, hrest⟩ :=
    List.length_pos_iff_exists_cons.mp (show 0 < a.hashes.length by omega)
  rw [hrest, List.length_cons] at hhashes
  obtain ⟨request, hidden, rfl⟩ :=
    List.length_pos_iff_exists_cons.mp (show 0 < rest.length by omega)
  exact ⟨hidden, ⟨structure_, request, hrest⟩, hhashes⟩

/-- The contract accepts a proof only of the public inputs that the policy verifier finds. -/
theorem IntegratedRegisterVerifier.accepted {config : BaseConfig}
    {phiR : Proof → List Uint256 → Bool} {c : IntegratedRegisterVerifier Proof}
    {s : RegisterSubmission Proof} (hnew : IntegratedRegisterVerifier.new config phiR = .ok c)
    (h : c.verify keccak256 sha256 ecrecover b this s = .ok true)
    (hdomain : v.domain = ⟨b.chainid, this⟩) :
    ∃ account owners property attested inputs, s.att.Attests [account, owners, property] ∧
      Attested.ofShape (ε := ε) ⟨s.att.tAtt, [account, owners, property]⟩ = .ok attested ∧
      v.registerInputs keccak256 s.statement attested = .ok inputs ∧
      SameInputs inputs (s.pub keccak256 b.chainid this) ∧
      phiR s.proof (s.pub keccak256 b.chainid this) = true := by
  simp only [IntegratedRegisterVerifier.new, bind_eq_ok, ensure_eq_ok, exists_const,
    Except.ok.injEq] at hnew
  obtain ⟨base, hbase, hfive, rfl⟩ := hnew
  simp only [IntegratedRegisterVerifier.verify, bind_eq_ok, ensure_eq_ok, exists_const] at h
  obtain ⟨_, hcheck, hproof, -⟩ := h
  obtain ⟨hidden, hattests, hlen⟩ := attests_of_check hbase hcheck
  obtain ⟨account, owners, property, rfl⟩ :=
    List.length_eq_three.mp (show hidden.length = 3 by omega)
  obtain ⟨attested, inputs, hattested, hinputs, hsame⟩ : ∃ attested inputs, _ ∧
      v.registerInputs keccak256 s.statement attested = .ok inputs ∧ _ :=
    register_inputs (ε := ε) (v := v) hattests
  rw [hdomain] at hsame
  exact ⟨account, owners, property, attested, inputs, hattests, hattested, hinputs, hsame, hproof⟩

theorem IntegratedApplyVerifier.accepted {config : BaseConfig} {phiA : Proof → List Uint256 → Bool}
    {requestLineHash : Bytes32} {c : IntegratedApplyVerifier Proof} {s : ApplySubmission Proof}
    (hnew : IntegratedApplyVerifier.new config phiA requestLineHash = .ok c)
    (h : c.verify keccak256 sha256 ecrecover b this s = .ok true)
    (hdomain : v.domain = ⟨b.chainid, this⟩) :
    ∃ account income inputs pub, s.att.Attests [account, income] ∧
      v.applyInputs (ε := ε) keccak256 s.statement ⟨s.att.tAtt, [account, income]⟩ = .ok inputs ∧
      SameInputs inputs pub ∧ phiA s.proof pub = true := by
  simp only [IntegratedApplyVerifier.new, bind_eq_ok, ensure_eq_ok, exists_const,
    Except.ok.injEq] at hnew
  obtain ⟨base, hbase, hfour, rfl⟩ := hnew
  simp only [IntegratedApplyVerifier.verify, bind_eq_ok, ensure_eq_ok, exists_const] at h
  obtain ⟨-, _, hcheck, pub, hpub, hproof, -⟩ := h
  obtain ⟨hidden, hattests, hlen⟩ := attests_of_check hbase hcheck
  obtain ⟨account, income, rfl⟩ := List.length_eq_two.mp (show hidden.length = 2 by omega)
  obtain ⟨hcB, hamount⟩ := ((ApplySubmission.pub_eq_ok hattests).mp hpub).1
  obtain ⟨inputs, pub', hinputs, hpub', hsame⟩ := apply_inputs (ε := ε) (v := v) hattests hcB hamount
  rw [hdomain, hpub] at hpub'
  obtain rfl := Except.ok.inj hpub'
  exact ⟨account, income, inputs, pub, hattests, hinputs, hsame, hproof⟩

theorem IntegratedSettleVerifier.accepted {config : BaseConfig}
    {phiS : Proof → List Uint256 → Bool} {tauLock : Uint64} {utcOffsetSecs : Int64}
    {c : IntegratedSettleVerifier Proof} {s : SettleSubmission Proof}
    (hnew : IntegratedSettleVerifier.new config phiS tauLock utcOffsetSecs = .ok c)
    (h : c.verify keccak256 sha256 ecrecover b this s = .ok true)
    (hdomain : v.domain = ⟨b.chainid, this⟩) :
    ∃ account property tenant date day inputs pub,
      s.att.Attests [account, property, tenant, date] ∧
      engagementDay tauLock utcOffsetSecs s.expiresAt = .ok day ∧
      v.settleInputs (ε := ε) keccak256 s.statement
        ⟨s.att.tAtt, [account, property, tenant, date]⟩ day.toNat = .ok inputs ∧
      SameInputs inputs pub ∧ phiS s.proof pub = true := by
  simp only [IntegratedSettleVerifier.new, bind_eq_ok, ensure_eq_ok, exists_const,
    Except.ok.injEq] at hnew
  obtain ⟨base, hbase, hsix, rfl⟩ := hnew
  simp only [IntegratedSettleVerifier.verify, bind_eq_ok, ensure_eq_ok, exists_const] at h
  obtain ⟨_, -, _, hcheck, pub, hpub, hproof, -⟩ := h
  obtain ⟨hidden, hattests, hlen⟩ := attests_of_check hbase hcheck
  obtain ⟨account, property, tenant, date, rfl⟩ :=
    List.length_eq_four.mp (show hidden.length = 4 by omega)
  obtain ⟨day, ⟨hcB, hday⟩, -⟩ := (SettleSubmission.pub_eq_ok hattests).mp hpub
  obtain ⟨inputs, pub', hinputs, hpub', hsame⟩ :=
    settle_inputs (ε := ε) (v := v) hattests hday hcB
  rw [hdomain, hpub] at hpub'
  obtain rfl := Except.ok.inj hpub'
  exact ⟨account, property, tenant, date, day, inputs, pub, hattests, hday, hinputs, hsame, hproof⟩

end

/-- **The same public inputs.** For the same statement, commitments, chain and contract, and the
same engagement day, the vector that the contract builds is the one that the policy verifier builds,
entry by entry; the same numbers are refused; no entry is refused by the decoder; and the vector
determines all that it is built from but the statement, whose digest is reduced. The policy verifier
hashes the statement as typed data, and `Offchain.digest_value` makes that the contract's digest. -/
theorem same_public_inputs {VerifyingKey Proof ε : Type} (keccak256 : Bytes → Bytes32)
    (v : PolicyVerifier VerifyingKey Proof) :
    (∀ (s : RegisterSubmission Proof) (account owners property : Bytes32),
      s.att.Attests [account, owners, property] →
      (∃ attested inputs,
        Attested.ofShape (ε := ε) ⟨s.att.tAtt, [account, owners, property]⟩ = .ok attested ∧
        v.registerInputs keccak256 s.statement attested = .ok inputs ∧
        SameInputs inputs (s.pub keccak256 v.domain.chainId v.domain.verifyingContract)) ∧
      ∀ (s' : RegisterSubmission Proof) (account' owners' property' : Bytes32)
        (chainid chainid' : Uint256) (this this' : Address),
        s'.att.Attests [account', owners', property'] →
        s.pub keccak256 chainid this = s'.pub keccak256 chainid' this' →
        account = account' ∧ owners = owners' ∧ property = property' ∧
          s.txData.propertyId = s'.txData.propertyId) ∧
    (∀ (s : ApplySubmission Proof) (account income : Bytes32), s.att.Attests [account, income] →
      (s.cB.toNat < BN254_R ∧ s.txData.amount.toNat < 2 ^ PHI_A_AMOUNT_BITS → ∃ inputs pub,
        v.applyInputs (ε := ε) keccak256 s.statement ⟨s.att.tAtt, [account, income]⟩ = .ok inputs ∧
        s.pub keccak256 v.domain.chainId v.domain.verifyingContract = .ok pub ∧
        SameInputs inputs pub) ∧
      (¬ (s.cB.toNat < BN254_R ∧ s.txData.amount.toNat < 2 ^ PHI_A_AMOUNT_BITS) →
        s.pub keccak256 v.domain.chainId v.domain.verifyingContract = .error .BadPublicInput ∧
        ∃ e, (e = .cB ∨ e = .amount) ∧ v.applyInputs (ε := ε) keccak256 s.statement
          ⟨s.att.tAtt, [account, income]⟩ = .error (.input e)) ∧
      ∀ (s' : ApplySubmission Proof) (account' income' : Bytes32) (chainid chainid' : Uint256)
        (this this' : Address) (pub : List Uint256), s'.att.Attests [account', income'] →
        s.pub keccak256 chainid this = .ok pub → s'.pub keccak256 chainid' this' = .ok pub →
        account = account' ∧ income = income' ∧ s.cB = s'.cB ∧
          s.txData.amount = s'.txData.amount) ∧
    ∀ (w : IntegratedSettleVerifier Proof) (s : SettleSubmission Proof)
      (account property tenant date : Bytes32) (day : Uint256),
      s.att.Attests [account, property, tenant, date] →
      engagementDay w.TAU_LOCK w.UTC_OFFSET_SECS s.expiresAt = .ok day →
      (s.cB.toNat < BN254_R → ∃ inputs pub,
        v.settleInputs (ε := ε) keccak256 s.statement
          ⟨s.att.tAtt, [account, property, tenant, date]⟩ day.toNat = .ok inputs ∧
        s.pub keccak256 v.domain.chainId v.domain.verifyingContract w = .ok pub ∧
        SameInputs inputs pub) ∧
      (¬ s.cB.toNat < BN254_R →
        s.pub keccak256 v.domain.chainId v.domain.verifyingContract w = .error .BadPublicInput ∧
        v.settleInputs (ε := ε) keccak256 s.statement
          ⟨s.att.tAtt, [account, property, tenant, date]⟩ day.toNat = .error (.input .cB)) ∧
      ∀ (w' : IntegratedSettleVerifier Proof) (s' : SettleSubmission Proof)
        (account' property' tenant' date' : Bytes32) (day' : Uint256) (chainid chainid' : Uint256)
        (this this' : Address) (pub : List Uint256),
        s'.att.Attests [account', property', tenant', date'] →
        engagementDay w'.TAU_LOCK w'.UTC_OFFSET_SECS s'.expiresAt = .ok day' →
        s.pub keccak256 chainid this w = .ok pub → s'.pub keccak256 chainid' this' w' = .ok pub →
        property = property' ∧ tenant = tenant' ∧ date = date' ∧
          s.txData.propertyId = s'.txData.propertyId ∧ s.cB = s'.cB ∧ day = day' := by
  refine ⟨fun s account owners property h => ⟨register_inputs h, ?_⟩,
    fun s account income h => ⟨fun ⟨hcB, hamount⟩ => apply_inputs h hcB hamount, fun hout => ?_, ?_⟩,
    fun w s account property tenant date day h hday => ⟨settle_inputs h hday, fun hout => ?_, ?_⟩⟩
  · intro s' account' owners' property' chainid chainid' this this' h' hpub
    rw [RegisterSubmission.pub_eq h, RegisterSubmission.pub_eq h'] at hpub
    have hwords := (pub_inj hpub rfl).1
    simpa using hwords
  · exact apply_refused _ _ _ _ ((not_and_or.mp hout).imp not_lt.mp not_lt.mp)
  · intro s' account' income' chainid chainid' this this' pub h' hpub hpub'
    obtain ⟨-, rfl⟩ := (ApplySubmission.pub_eq_ok h).mp hpub
    obtain ⟨-, hpub⟩ := (ApplySubmission.pub_eq_ok h').mp hpub'
    obtain ⟨hwords, hnumbers⟩ := pub_inj hpub rfl
    simp only [List.cons.injEq, and_true] at hwords hnumbers
    exact ⟨hwords.1, hwords.2, hnumbers.1, hnumbers.2.1⟩
  · exact settle_refused _ _ _ _ _ _ _ hday (not_lt.mp hout)
  · intro w' s' account' property' tenant' date' day' chainid chainid' this this' pub h' hday' hpub
      hpub'
    obtain ⟨_, ⟨-, hd⟩, rfl⟩ := (SettleSubmission.pub_eq_ok h).mp hpub
    obtain rfl := Except.ok.inj (hd.symm.trans hday)
    obtain ⟨_, ⟨-, hd'⟩, hpub⟩ := (SettleSubmission.pub_eq_ok h').mp hpub'
    obtain rfl := Except.ok.inj (hd'.symm.trans hday')
    obtain ⟨hwords, hnumbers⟩ := pub_inj hpub rfl
    simp only [List.cons.injEq, and_true] at hwords hnumbers
    exact ⟨hwords.1, hwords.2.1, hwords.2.2.1, hwords.2.2.2, hnumbers.1, hnumbers.2.1⟩

/-! ## An application -/

namespace Vectors

/-- The submission of `test/baseline/fixtures/apply.json`; its proof is not used here. -/
def sessionSubmission : ApplySubmission Unit where
  att := sessionAttestation
  requestLine := utf8 "GET /income HTTP/1.1"
  txId := 1
  cTx := 0xbf714a2fcaf1318f63d9eedc807fcbdc1c86396311947ca853a13ea4c88339e4
  txData := { txData with settlementShare := 0 }
  cB := 0x123c8c30858a34028cc53401e1dc7d76d14740fe456d698f2ce523274ee608d0
  policyId := policyIdA
  submitter := 0x2222222222222222222222222222222222222222
  eta := 0x4343434343434343434343434343434343434343434343434343434343434343
  proof := ()

def baseline : Address := 0xe1e1e1e1e1e1e1e1e1e1e1e1e1e1e1e1e1e1e1e1

/-- The Keccak-256 hashes of what is hashed for its digest. -/
def submissionHashes : List (Bytes × Bytes32) :=
  let domainType := 0x8b73c3c69bb8fe3d512ecc4cf759cc79239f7b179b0ffacaa9a75d522b39400f
  let name := 0xcce789c69610ab3deed37840c8cdf5148c59877fefb682cbb9681fd4edcf4d6e
  let version := 0xc89efdaa54c0f20c7adf612882df0950f5a951637e0307cdcb4c672f298b8bc6
  let txDataType := 0x1138988aacb569d0c151069ec315f2294ab4a06fed8a2beb6573f4a86fc707a6
  let applyType := 0xac971b5a279b5956a0fea8edda0301ed8b2457fcf48cc5ae877a77fcca6d9352
  let separator := 0x06641b4ae6aa28b4d8dc21c2921079c6073b62e07bd3b9ee0038c7b48d80c6ec
  let txDataHash := 0x628e71859301ecd5b6e25d32b99e7be6c5048215637ff5215fd738025b98edfb
  let structHash := 0xce999cc0bc4447b3531712cca7ceae83f485178f46a2552bbf67a500e5e95331
  let s := sessionSubmission
  [(utf8 DOMAIN_TYPE, domainType), (utf8 "PPREV", name), (utf8 "1", version),
    (utf8 TX_DATA_TYPE, txDataType), (utf8 APPLY_TYPE, applyType),
    (abiEncode [domainType, name, version, chainid, wordOfAddress baseline], separator),
    (abiEncode (txDataType :: s.txData.words), txDataHash),
    (abiEncode [applyType, s.txId, s.cTx, txDataHash, s.cB, s.policyId, wordOfAddress s.submitter,
      s.eta, wordOfUint64 s.att.tAtt], structHash),
    (typedDataInput separator structHash,
      0xcb1778427eadfde95597bc123a79de850d24cb48d549997452da64dbf0f36061)]

def submissionKeccak (x : Bytes) : Bytes32 := (submissionHashes.lookup x).getD 0

/-- A policy verifier for the contract, without policies. -/
def baselinePolicyVerifier : PolicyVerifier Unit Unit where
  policies _ := none
  applyPolicies _ := none
  settlePolicies _ := none
  tauLock := none
  attestationKey := ()
  rootCerts := []
  maxSessionSecs := 120
  key _ := none
  domain := ⟨chainid, baseline⟩

/-- The public inputs of the fixture. -/
def sessionInputs : List String :=
  ["182967957371764361060368286641825484104", "251595828939337440596193208004949446973",
    "210615654206627607307716608353207688843", "149942043335943898326483700155741867370",
    "8248609651014877028585654441997760523263151551565522986780110445589815494864",
    "1000000000000000000",
    "4308004259794898532307292781755850030178870327370383161401185271914249281629"]

end Vectors

open Vectors in
/-- Both sides build the public inputs of the fixture. -/
theorem same_public_inputs_income :
    baselinePolicyVerifier.applyInputs (ε := Unit) submissionKeccak sessionSubmission.statement
        ⟨sessionAttestation.tAtt, sessionAttestation.hashes.drop 2⟩ = .ok sessionInputs ∧
      ∃ pub, sessionSubmission.pub submissionKeccak chainid baseline = .ok pub ∧
        SameInputs sessionInputs pub := by
  have hsession : sessionSubmission.att.Attests (sessionAttestation.hashes.drop 2) := ⟨_, _, rfl⟩
  obtain ⟨inputs, pub, hinputs, hpub, hsame⟩ :=
    ((same_public_inputs (ε := Unit) submissionKeccak baselinePolicyVerifier).2.1 sessionSubmission
      _ _ hsession).1 (by decide +kernel)
  have hfixture : baselinePolicyVerifier.applyInputs (ε := Unit) submissionKeccak
      sessionSubmission.statement ⟨sessionAttestation.tAtt, sessionAttestation.hashes.drop 2⟩ =
        .ok sessionInputs :=
    PolicyVerifier.applyInputs_eq_ok.mpr ⟨_, _, rfl, by decide +kernel, by decide +kernel,
      by decide +kernel⟩
  obtain rfl := Except.ok.inj (hfixture.symm.trans hinputs)
  exact ⟨hfixture, pub, hpub, hsame⟩

end Pprev
