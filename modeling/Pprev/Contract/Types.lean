import Pprev.Evm.Word

/-!
# Records, events and errors of the escrow contract

The declarations of `PPREVTypes.sol`. A mapping of the contract is a total function whose absent
entries are the default value of their type.
-/

namespace Pprev

open Evm

/-- Values of the transaction-state map; `none` marks an identifier that was not assigned. -/
inductive TxState where
  | none
  | active
  | locked
  | settled
  | expired
  | cancelled
  deriving DecidableEq, Inhabited

inductive AppStatus where
  | none
  | pending
  | engaged
  | reclaimed
  deriving DecidableEq, Inhabited

inductive EngStatus where
  | none
  | open
  | settled
  | expired
  deriving DecidableEq, Inhabited

/-- Public transaction parameters; `settlementShare` is in basis points of the deposit. -/
structure TxData where
  propertyId : Bytes32
  amount : Uint256
  settlementShare : Uint256
  deriving DecidableEq, Inhabited

/-- A policy bundle, keyed by `policyIdR`. -/
structure Policy where
  exists_ : Bool
  policyIdA : Bytes32
  policyIdS : Bytes32
  reqEscrow : Uint256
  minCollateral : Uint256
  maxCollateral : Uint256
  deriving DecidableEq, Inhabited

structure Listing where
  cTx : Bytes32
  policyIdR : Bytes32
  owner : Address
  collateral : Uint256
  expirations : Uint256
  deriving DecidableEq, Inhabited

structure Application where
  txId : Uint256
  depositor : Address
  status : AppStatus
  deposit : Uint256
  cB : Bytes32
  deriving DecidableEq, Inhabited

/-- An engagement; it reaches its listing only through its application. -/
structure Engagement where
  appId : Uint256
  expiresAt : Uint256
  status : EngStatus
  deriving DecidableEq, Inhabited

inductive Log where
  | policyRegistered (policyIdR policyIdA policyIdS : Bytes32)
      (reqEscrow minCollateral maxCollateral : Uint256)
  | notaryVerifierSet (verifier : Address)
  | registered (txId : Uint256) (owner : Address) (cTx policyIdR : Bytes32) (txData : TxData)
      (r : Bytes32) (collateral : Uint256)
  | applied (appId txId : Uint256) (applicant : Address) (cB : Bytes32) (deposit : Uint256)
  | engaged (engId txId appId expiresAt : Uint256)
  | settled (engId txId toOwner toCounterparty : Uint256)
  | expired (engId txId compensation expirations : Uint256) (exhausted : Bool)
      (returnedToOwner : Uint256)
  | reclaimed (appId txId deposit : Uint256)
  | cancelled (txId returnedToOwner : Uint256)
  | payoutCredited (recipient : Address) (amount : Uint256)
  | withdrawn (recipient : Address) (amount : Uint256)
  deriving DecidableEq

/-- Why a call reverts: the errors of the contract, ether sent to a function that is not payable,
an overflow (`panic`), and a notary verifier that itself reverts. -/
inductive Err where
  | notOperator
  | invalidParameters
  | policyExists (policyIdR : Bytes32)
  | unknownPolicy (policyIdR : Bytes32)
  | commitmentMismatch
  | invalidNotarySignature
  | nonceConsumed (eta : Bytes32)
  | attestationFromFuture (tAtt : Uint64)
  | attestationExpired (tAtt : Uint64)
  | commitmentRegistered (cTx : Bytes32)
  | collateralOutOfBounds (collateral : Uint256)
  | settlementShareTooHigh (settlementShare : Uint256)
  | listingNotOpen (txId : Uint256)
  | ownerCannotApply
  | pendingApplicationExists (appId : Uint256)
  | insufficientDeposit (deposit : Uint256)
  | notListingOwner
  | applicationNotPending (appId : Uint256)
  | applicationTxMismatch
  | unknownEngagement (engId : Uint256)
  | notLocked (txId : Uint256)
  | lockWindowElapsed
  | engagementNotOpen (engId : Uint256)
  | lockWindowNotElapsed
  | notDepositor
  | nothingToWithdraw
  | withdrawFailed
  | nonPayable
  | panic
  | verifierFailed
  deriving DecidableEq

/-- The storage of the contract, and the events emitted so far, latest first. -/
structure State where
  notaryVerifier : Address
  policyRegistry : Bytes32 → Policy
  listings : Uint256 → Listing
  txState : Uint256 → TxState
  registered : Bytes32 → Bool
  consumed : Bytes32 → Bool
  applications : Uint256 → Application
  pendingApp : Uint256 → Address → Uint256
  engagements : Uint256 → Engagement
  credit : Address → Uint256
  nextTxId : Uint256
  nextAppId : Uint256
  nextEngId : Uint256
  logs : List Log

namespace State

/-- The listing of an engagement. -/
def listingOf (s : State) (engId : Uint256) : Uint256 :=
  (s.applications (s.engagements engId).appId).txId

end State

end Pprev
