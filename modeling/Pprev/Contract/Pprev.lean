import Pprev.Contract.Encoding
import Pprev.Evm.Machine

/-!
# The escrow contract

The contract `PPREV.sol` as code of the machine, function by function. The constants of the
constructor are a `Deployment`. The notary verifier is foreign code that can only read: what it
answers in a call is part of the message.
-/

namespace Pprev

open Evm Function

/-- The two values a call reads from its block. -/
structure Block where
  timestamp : ℕ
  chainid : Uint256

inductive Call where
  | registerPolicy (policyIdR policyIdA policyIdS : Bytes32)
      (reqEscrow minCollateral maxCollateral : Uint256)
  | setNotaryVerifier (verifier : Address)
  | register (cTx : Bytes32) (txData : TxData) (policyIdR r : Bytes32) (sigmaR : Bytes)
      (etaR : Bytes32) (tAttR : Uint64)
  | applyFor (txId : Uint256) (txData : TxData) (r cB : Bytes32) (sigmaA : Bytes) (etaA : Bytes32)
      (tAttA : Uint64)
  | settle (engId : Uint256) (txData : TxData) (r : Bytes32) (sigmaS : Bytes) (etaS : Bytes32)
      (tAttS : Uint64)
  | engage (txId appId : Uint256)
  | expire (engId : Uint256)
  | reclaim (appId : Uint256)
  | cancel (txId : Uint256)
  | withdraw
  deriving DecidableEq

/-- A message; `verify` is what the account of a notary verifier answers to a digest and a
signature during the call, nothing when the query reverts. -/
structure Msg where
  sender : Address
  value : Uint256
  verify : Address → Bytes32 → Bytes → Option Bool
  call : Call

def BPS : Uint256 := 10000

/-- The immutable values of a deployed contract, which passed the checks of the constructor. -/
structure Deployment (keccak256 : Bytes → Bytes32) where
  this : Address
  OPERATOR : Address
  DELTA : Uint256
  TAU_LOCK : Uint256
  MAX_EXPIRATIONS : Uint256
  RHO : Uint256
  CACHED_CHAIN_ID : Uint256
  CACHED_DOMAIN_SEPARATOR : Bytes32
  valid : ¬ (OPERATOR = 0 ∨ DELTA = 0 ∨ TAU_LOCK = 0 ∨ MAX_EXPIRATIONS = 0 ∨ RHO = 0 ∨ BPS ≤ RHO)
  separator : CACHED_DOMAIN_SEPARATOR = buildDomainSeparator keccak256 CACHED_CHAIN_ID this

/-- The storage the constructor leaves. -/
def State.initial (verifier : Address) : State where
  notaryVerifier := verifier
  policyRegistry := fun _ => default
  listings := fun _ => default
  txState := fun _ => .none
  registered := fun _ => false
  consumed := fun _ => false
  applications := fun _ => default
  pendingApp := fun _ _ => 0
  engagements := fun _ => default
  credit := fun _ => 0
  nextTxId := 1
  nextAppId := 1
  nextEngId := 1
  logs := [.notaryVerifierSet verifier]

def constructor (keccak256 : Bytes → Bytes32) (b : Block) (this operator verifier : Address)
    (delta tauLock maxExpirations rho : Uint256) : Except Err (Deployment keccak256 × State) :=
  if h : (operator = 0 ∨ delta = 0 ∨ tauLock = 0 ∨ maxExpirations = 0 ∨ rho = 0 ∨ BPS ≤ rho) ∨
      verifier = 0 then
    .error .invalidParameters
  else
    .ok ({
      this := this
      OPERATOR := operator
      DELTA := delta
      TAU_LOCK := tauLock
      MAX_EXPIRATIONS := maxExpirations
      RHO := rho
      CACHED_CHAIN_ID := b.chainid
      CACHED_DOMAIN_SEPARATOR := buildDomainSeparator keccak256 b.chainid this
      valid := fun hbad => h (.inl hbad)
      separator := rfl }, State.initial verifier)

open Tx

section

variable {keccak256 : Bytes → Bytes32} (d : Deployment keccak256)

/-! ## Internal functions -/

/-- Open to applications. -/
def State.isOpen (s : State) (txId : Uint256) : Bool :=
  (s.txState txId = .active || s.txState txId = .expired) &&
    (s.listings txId).expirations < d.MAX_EXPIRATIONS

def domainSeparator (b : Block) : Bytes32 :=
  if b.chainid = d.CACHED_CHAIN_ID then d.CACHED_DOMAIN_SEPARATOR
  else buildDomainSeparator keccak256 b.chainid d.this

def hashTypedData (b : Block) (structHash : Bytes32) : Bytes32 :=
  typedData keccak256 (domainSeparator d b) structHash

def verifyNotarySignature (b : Block) (m : Msg) (structHash : Bytes32) (sigma : Bytes) :
    Tx State Err Unit := do
  let s ← get
  let ok ← checked .verifierFailed (m.verify s.notaryVerifier (hashTypedData d b structHash) sigma)
  revertIf (ok = false) .invalidNotarySignature

def requireUnconsumed (eta : Bytes32) : Tx State Err Unit := do
  let s ← get
  revertIf (s.consumed eta = true) (.nonceConsumed eta)

def requireFresh (b : Block) (tAtt : Uint64) : Tx State Err Unit := do
  revertIf (b.timestamp < tAtt.toNat) (.attestationFromFuture tAtt)
  revertIf (d.DELTA.toNat < b.timestamp - tAtt.toNat) (.attestationExpired tAtt)

/-- The effect of an undelivered payout. -/
def State.credited (s : State) (dst : Address) (amount credit : Uint256) : State :=
  { s with
    credit := update s.credit dst credit
    logs := .payoutCredited dst amount :: s.logs }

/-- The payout rule: a transfer that fails is credited to its recipient. -/
def pay (dst : Address) (amount : Uint256) : Tx State Err Unit :=
  if amount = 0 then pure () else do
    let ok ← call dst amount
    if ok then pure () else do
      let s ← get
      let credit ← checked .panic (checkedAdd (s.credit dst) amount)
      set (s.credited dst amount credit)

/-! ## Administrative operations -/

/-- The new policy bundle of `registerPolicy`. -/
def State.addPolicy (s : State) (policyIdR policyIdA policyIdS : Bytes32)
    (reqEscrow minCollateral maxCollateral : Uint256) : State :=
  { s with
    policyRegistry := update s.policyRegistry policyIdR
      ⟨true, policyIdA, policyIdS, reqEscrow, minCollateral, maxCollateral⟩
    logs := .policyRegistered policyIdR policyIdA policyIdS reqEscrow minCollateral maxCollateral ::
      s.logs }

def registerPolicy (m : Msg) (policyIdR policyIdA policyIdS : Bytes32)
    (reqEscrow minCollateral maxCollateral : Uint256) : Tx State Err Unit := do
  let s ← get
  revertIf (m.sender ≠ d.OPERATOR) .notOperator
  revertIf (policyIdR = 0 ∨ policyIdA = 0 ∨ policyIdS = 0 ∨ policyIdR = policyIdA ∨
    policyIdR = policyIdS ∨ policyIdA = policyIdS ∨ maxCollateral < minCollateral)
    .invalidParameters
  revertIf ((s.policyRegistry policyIdR).exists_ = true) (.policyExists policyIdR)
  set (s.addPolicy policyIdR policyIdA policyIdS reqEscrow minCollateral maxCollateral)

/-- The effects of `setNotaryVerifier`. -/
def State.withVerifier (s : State) (verifier : Address) : State :=
  { s with
    notaryVerifier := verifier
    logs := .notaryVerifierSet verifier :: s.logs }

def setNotaryVerifier (m : Msg) (verifier : Address) : Tx State Err Unit := do
  let s ← get
  revertIf (m.sender ≠ d.OPERATOR) .notOperator
  revertIf (verifier = 0) .invalidParameters
  set (s.withVerifier verifier)

/-! ## Attested algorithms -/

/-- The statement `register` has the notary's signature checked on. -/
def registerStatement (keccak256 : Bytes → Bytes32) (m : Msg) (cTx : Bytes32) (txData : TxData)
    (policyIdR etaR : Bytes32) (tAttR : Uint64) : RegisterStatement where
  cTx := cTx
  txDataHash := hashTxData keccak256 txData
  policyId := policyIdR
  submitter := m.sender
  eta := etaR
  tAtt := tAttR

/-- The new listing of `register`. -/
def State.addListing (s : State) (m : Msg) (cTx : Bytes32) (txData : TxData)
    (policyIdR r etaR : Bytes32) (nextTxId : Uint256) : State :=
  { s with
    nextTxId := nextTxId
    listings := update s.listings s.nextTxId
      { s.listings s.nextTxId with
        cTx := cTx
        policyIdR := policyIdR
        owner := m.sender
        collateral := m.value }
    txState := update s.txState s.nextTxId .active
    registered := update s.registered cTx true
    consumed := update s.consumed etaR true
    logs := .registered s.nextTxId m.sender cTx policyIdR txData r m.value :: s.logs }

def register (b : Block) (m : Msg) (cTx : Bytes32) (txData : TxData) (policyIdR r : Bytes32)
    (sigmaR : Bytes) (etaR : Bytes32) (tAttR : Uint64) : Tx State Err Uint256 := do
  let s ← get
  let p := s.policyRegistry policyIdR
  -- R(a)
  revertIf (p.exists_ = false) (.unknownPolicy policyIdR)
  -- R(b)
  revertIf (commitment keccak256 txData policyIdR r ≠ cTx) .commitmentMismatch
  -- R(c)
  let xR := registerStatement keccak256 m cTx txData policyIdR etaR tAttR
  verifyNotarySignature d b m (hashRegister keccak256 xR) sigmaR
  -- R(d)
  requireUnconsumed etaR
  -- R(e)
  requireFresh d b tAttR
  -- R(f)
  revertIf (s.registered cTx = true) (.commitmentRegistered cTx)
  -- R(g)
  revertIf (m.value < p.minCollateral ∨ p.maxCollateral < m.value) (.collateralOutOfBounds m.value)
  -- R(h)
  revertIf (BPS < txData.settlementShare) (.settlementShareTooHigh txData.settlementShare)
  let nextTxId ← checked .panic (checkedAdd s.nextTxId 1)
  set (s.addListing m cTx txData policyIdR r etaR nextTxId)
  return s.nextTxId

/-- The statement `applyFor` has the notary's signature checked on. -/
def State.applyStatement (s : State) (keccak256 : Bytes → Bytes32) (m : Msg) (txId : Uint256)
    (txData : TxData) (cB etaA : Bytes32) (tAttA : Uint64) : ApplyStatement where
  txId := txId
  cTx := (s.listings txId).cTx
  txDataHash := hashTxData keccak256 txData
  cB := cB
  policyId := (s.policyRegistry (s.listings txId).policyIdR).policyIdA
  submitter := m.sender
  eta := etaA
  tAtt := tAttA

/-- The new application of `applyFor`. -/
def State.addApplication (s : State) (m : Msg) (txId : Uint256) (cB etaA : Bytes32)
    (nextAppId : Uint256) : State :=
  { s with
    nextAppId := nextAppId
    applications := update s.applications s.nextAppId ⟨txId, m.sender, .pending, m.value, cB⟩
    pendingApp := update s.pendingApp txId (update (s.pendingApp txId) m.sender s.nextAppId)
    consumed := update s.consumed etaA true
    logs := .applied s.nextAppId txId m.sender cB m.value :: s.logs }

def applyFor (b : Block) (m : Msg) (txId : Uint256) (txData : TxData) (r cB : Bytes32)
    (sigmaA : Bytes) (etaA : Bytes32) (tAttA : Uint64) : Tx State Err Uint256 := do
  let s ← get
  let l := s.listings txId
  -- A(a)
  revertIf (s.isOpen d txId = false) (.listingNotOpen txId)
  -- A(b)
  revertIf (m.sender = l.owner) .ownerCannotApply
  -- A(c)
  revertIf (commitment keccak256 txData l.policyIdR r ≠ l.cTx) .commitmentMismatch
  let p := s.policyRegistry l.policyIdR
  -- A(d)
  let xA := s.applyStatement keccak256 m txId txData cB etaA tAttA
  verifyNotarySignature d b m (hashApply keccak256 xA) sigmaA
  -- A(e)
  requireUnconsumed etaA
  -- A(f)
  requireFresh d b tAttA
  -- A(g)
  let pending := s.pendingApp txId m.sender
  revertIf (pending ≠ 0) (.pendingApplicationExists pending)
  -- A(h)
  revertIf (m.value < p.reqEscrow) (.insufficientDeposit m.value)
  let nextAppId ← checked .panic (checkedAdd s.nextAppId 1)
  set (s.addApplication m txId cB etaA nextAppId)
  return s.nextAppId

/-- The statement `settle` has the notary's signature checked on. -/
def State.settleStatement (s : State) (keccak256 : Bytes → Bytes32) (m : Msg) (engId : Uint256)
    (txData : TxData) (etaS : Bytes32) (tAttS : Uint64) : SettleStatement where
  engId := engId
  txId := s.listingOf engId
  cTx := (s.listings (s.listingOf engId)).cTx
  txDataHash := hashTxData keccak256 txData
  cB := (s.applications (s.engagements engId).appId).cB
  expiresAt := (s.engagements engId).expiresAt
  policyId := (s.policyRegistry (s.listings (s.listingOf engId)).policyIdR).policyIdS
  submitter := m.sender
  eta := etaS
  tAtt := tAttS

/-- The effects of `settle` before its payouts. -/
def State.settled (s : State) (engId : Uint256) (etaS : Bytes32)
    (toOwner toCounterparty : Uint256) : State :=
  { s with
    consumed := update s.consumed etaS true
    engagements := update s.engagements engId { s.engagements engId with status := .settled }
    txState := update s.txState (s.listingOf engId) .settled
    listings := update s.listings (s.listingOf engId)
      { s.listings (s.listingOf engId) with collateral := 0 }
    logs := .settled engId (s.listingOf engId) toOwner toCounterparty :: s.logs }

def settle (b : Block) (m : Msg) (engId : Uint256) (txData : TxData) (r : Bytes32) (sigmaS : Bytes)
    (etaS : Bytes32) (tAttS : Uint64) : Tx State Err Unit := do
  let s ← get
  let e := s.engagements engId
  -- S(a)
  revertIf (e.status = .none) (.unknownEngagement engId)
  let a := s.applications e.appId
  let txId := a.txId
  let l := s.listings txId
  -- S(b)
  revertIf (m.sender ≠ l.owner) .notListingOwner
  -- S(c)
  revertIf (s.txState txId ≠ .locked) (.notLocked txId)
  -- S(d)
  revertIf (commitment keccak256 txData l.policyIdR r ≠ l.cTx) .commitmentMismatch
  -- S(e)
  let xS := s.settleStatement keccak256 m engId txData etaS tAttS
  verifyNotarySignature d b m (hashSettle keccak256 xS) sigmaS
  -- S(f)
  requireUnconsumed etaS
  -- S(g)
  requireFresh d b tAttS
  -- S(h)
  revertIf (e.expiresAt.toNat < b.timestamp) .lockWindowElapsed
  let product ← checked .panic (checkedMul a.deposit txData.settlementShare)
  let ownerShare := product / BPS
  let toOwner ← checked .panic (checkedAdd ownerShare l.collateral)
  let toCounterparty ← checked .panic (checkedSub a.deposit ownerShare)
  set (s.settled engId etaS toOwner toCounterparty)
  pay l.owner toOwner
  -- the depositor is read again, after the owner has been in control
  let s' ← get
  pay (s'.applications e.appId).depositor toCounterparty

/-! ## Pure on-chain algorithms -/

/-- The new engagement of `engage`. -/
def State.addEngagement (s : State) (txId appId expiresAt nextEngId : Uint256) : State :=
  { s with
    nextEngId := nextEngId
    engagements := update s.engagements s.nextEngId ⟨appId, expiresAt, .open⟩
    applications := update s.applications appId { s.applications appId with status := .engaged }
    pendingApp := update s.pendingApp txId
      (update (s.pendingApp txId) (s.applications appId).depositor 0)
    txState := update s.txState txId .locked
    logs := .engaged s.nextEngId txId appId expiresAt :: s.logs }

def engage (b : Block) (m : Msg) (txId appId : Uint256) : Tx State Err Uint256 := do
  let s ← get
  let l := s.listings txId
  -- (i)
  revertIf (m.sender ≠ l.owner) .notListingOwner
  -- (ii)
  let a := s.applications appId
  revertIf (a.status ≠ .pending) (.applicationNotPending appId)
  revertIf (a.txId ≠ txId) .applicationTxMismatch
  -- (iii)
  revertIf (s.isOpen d txId = false) (.listingNotOpen txId)
  let nextEngId ← checked .panic (checkedAdd s.nextEngId 1)
  revertIf (2 ^ 256 ≤ b.timestamp + d.TAU_LOCK.toNat) .panic
  let expiresAt := BitVec.ofNat 256 (b.timestamp + d.TAU_LOCK.toNat)
  set (s.addEngagement txId appId expiresAt nextEngId)
  return s.nextEngId

/-- The effects of `expire` before its payouts. -/
def State.expired (s : State) (engId surviving compensation expirations : Uint256)
    (exhausted : Bool) : State :=
  let txId := s.listingOf engId
  { s with
    engagements := update s.engagements engId { s.engagements engId with status := .expired }
    txState := update s.txState txId (if exhausted then .cancelled else .expired)
    listings := update s.listings txId
      { s.listings txId with
        expirations := expirations
        collateral := if exhausted then 0 else surviving }
    logs := .expired engId txId compensation expirations exhausted
      (if exhausted then surviving else 0) :: s.logs }

def expire (b : Block) (engId : Uint256) : Tx State Err Unit := do
  let s ← get
  let e := s.engagements engId
  -- E(a)
  revertIf (e.status ≠ .open) (.engagementNotOpen engId)
  let a := s.applications e.appId
  let txId := a.txId
  -- E(b)
  revertIf (s.txState txId ≠ .locked) (.notLocked txId)
  -- E(c)
  revertIf (b.timestamp ≤ e.expiresAt.toNat) .lockWindowNotElapsed
  let l := s.listings txId
  let remaining := l.collateral
  let product ← checked .panic (checkedMul remaining d.RHO)
  let surviving := product / BPS
  let expirations ← checked .panic (checkedAdd l.expirations 1)
  let exhausted := expirations = d.MAX_EXPIRATIONS
  let compensation ← checked .panic (checkedSub remaining surviving)
  set (s.expired engId surviving compensation expirations exhausted)
  let toDepositor ← checked .panic (checkedAdd a.deposit compensation)
  pay a.depositor toDepositor
  if exhausted then do
    -- the owner is read again, after the depositor has been in control
    let s' ← get
    pay (s'.listings txId).owner surviving
  else pure ()

/-- The effects of `reclaim` before its payout. -/
def State.reclaimed (s : State) (m : Msg) (appId : Uint256) : State :=
  let a := s.applications appId
  { s with
    applications := update s.applications appId { a with status := .reclaimed }
    pendingApp := update s.pendingApp a.txId (update (s.pendingApp a.txId) m.sender 0)
    logs := .reclaimed appId a.txId a.deposit :: s.logs }

def reclaim (m : Msg) (appId : Uint256) : Tx State Err Unit := do
  let s ← get
  let a := s.applications appId
  revertIf (m.sender ≠ a.depositor) .notDepositor
  revertIf (a.status ≠ .pending) (.applicationNotPending appId)
  set (s.reclaimed m appId)
  pay m.sender a.deposit

/-- The effects of `cancel` before its payout. -/
def State.cancelled (s : State) (txId : Uint256) : State :=
  let l := s.listings txId
  { s with
    txState := update s.txState txId .cancelled
    listings := update s.listings txId { l with collateral := 0 }
    logs := .cancelled txId l.collateral :: s.logs }

def cancel (m : Msg) (txId : Uint256) : Tx State Err Unit := do
  let s ← get
  let l := s.listings txId
  revertIf (m.sender ≠ l.owner) .notListingOwner
  revertIf (s.txState txId ≠ .active ∧ s.txState txId ≠ .expired) (.listingNotOpen txId)
  set (s.cancelled txId)
  pay m.sender l.collateral

/-! ## Auxiliary -/

/-- The effects of `withdraw` before its transfer. -/
def State.withdrawn (s : State) (m : Msg) : State :=
  { s with
    credit := update s.credit m.sender 0
    logs := .withdrawn m.sender (s.credit m.sender) :: s.logs }

def withdraw (m : Msg) : Tx State Err Unit := do
  let s ← get
  let amount := s.credit m.sender
  revertIf (amount = 0) .nothingToWithdraw
  set (s.withdrawn m)
  let ok ← call m.sender amount
  revertIf (ok = false) .withdrawFailed

/-! ## Dispatch -/

/-- Functions that are not payable reject ether. -/
def nonPayable (m : Msg) (body : Tx State Err Unit) : Tx State Err Uint256 := do
  revertIf (m.value ≠ 0) .nonPayable
  body
  return 0

/-- A call; the result is the identifier that was assigned, 0 when the function returns none. -/
def run (b : Block) (m : Msg) : Tx State Err Uint256 :=
  match m.call with
  | .registerPolicy policyIdR policyIdA policyIdS reqEscrow minCollateral maxCollateral =>
      nonPayable m
        (registerPolicy d m policyIdR policyIdA policyIdS reqEscrow minCollateral maxCollateral)
  | .setNotaryVerifier verifier => nonPayable m (setNotaryVerifier d m verifier)
  | .register cTx txData policyIdR r sigmaR etaR tAttR =>
      register d b m cTx txData policyIdR r sigmaR etaR tAttR
  | .applyFor txId txData r cB sigmaA etaA tAttA =>
      applyFor d b m txId txData r cB sigmaA etaA tAttA
  | .settle engId txData r sigmaS etaS tAttS =>
      nonPayable m (settle d b m engId txData r sigmaS etaS tAttS)
  | .engage txId appId => do
      revertIf (m.value ≠ 0) .nonPayable
      engage d b m txId appId
  | .expire engId => nonPayable m (expire d b engId)
  | .reclaim appId => nonPayable m (reclaim m appId)
  | .cancel txId => nonPayable m (cancel m txId)
  | .withdraw => nonPayable m (withdraw m)

/-- The contract as code of the machine; block timestamps do not decrease. -/
def code : Code Block Msg State Err Uint256 where
  value m := m.value.toNat
  next b b' := b.timestamp ≤ b'.timestamp
  run := run d

end

end Pprev
