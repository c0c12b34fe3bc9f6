import Pprev.Circuit.Bytes
import Pprev.Contract.Pprev
import Pprev.Data.Merkle
import Pprev.Offchain.Layout

/-!
# The attestation check of the baseline

The contract `IntegratedVerifierBase.sol` over the hash functions Keccak-256 and SHA-256 and the
precompile `ecrecover`: the check of an attestation against the signed header, and the Merkle root,
which it computes in place.
-/

namespace Pprev

open Evm Slice

/-- A value of the type `bytes16`. -/
abbrev Bytes16 := {b : Bytes // b.length = 16}

/-- The number of big-endian bytes, as a word. -/
def wordOfBytes (b : Bytes) : Bytes32 := BitVec.ofNat 256 (packed b)

/-- `bytes8` of a `uint64`. -/
def uint64Bytes (x : Uint64) : Bytes :=
  (List.range 8).map fun i => UInt8.ofBitVec (x.extractLsb' (8 * (7 - i)) 8)

/-- The big-endian bytes of a number. -/
def bytesOf (len value : ℕ) : Bytes :=
  (List.range len).map fun i => UInt8.ofNat (value / 256 ^ (len - 1 - i))

/-! ## Constants -/

def DOMAIN_VERIFYING_KEY : Bytes := bytesOf 16 0xaec37d45b99c4e4b637706b1e978a3eb
def DOMAIN_CONNECTION_INFO : Bytes := bytesOf 16 0x6e317487904af460f6bba793610c9961
def DOMAIN_SERVER_EPHEMERAL_KEY : Bytes := bytesOf 16 0x23302af3213e5b0a44d3f7ba9cf33e93
def DOMAIN_CERT_COMMITMENT : Bytes := bytesOf 16 0xd0f7107feb7eec1e5793d2e8a2b696f0
def DOMAIN_EXTENSION : Bytes := bytesOf 16 0x67ed567f312ca482b9f365cc271baa42
def DOMAIN_TRANSCRIPT_COMMITMENT : Bytes := bytesOf 16 0xbd0ab9ac6ea93ebda2500e8769e63a9e

def HEADER_LENGTH : ℕ := 54
def HASH_ALG_KECCAK256 : UInt8 := 3
def CONNECTION_INFO_LENGTH : ℕ := 17
def MAX_COMMITMENTS : ℕ := 6
def ROLE_STRUCTURE : ℕ := 0
def ROLE_REQUEST : ℕ := 1
def TLSN_CLOCK_TOLERANCE : ℕ := 5

/-- Half of the order of the signature's curve. -/
def MAX_S : ℕ := 0x7FFFFFFFFFFFFFFFFFFFFFFFFFFFFFFF5D576E7357A4501DDFE92F46681B20A0

/-! ## Configuration -/

inductive BaselineError where
  | BadConfig
  | BadHeader
  | BadSignature
  | BadIdentity
  | UnknownPolicy
  | BadVerifyingKey
  | BadConnectionInfo
  | BadTime
  | NotFresh
  | BadRoles
  | BadPrefix (role : ℕ)
  | BadRequestLine
  | BadStructure
  | BadRoot
  | BadProof
  | BadPublicInput
  | BadNotation
  /-- an operation overflows -/
  | Panic
  deriving DecidableEq

structure BaseConfig where
  notary : Address
  identityAttestor : Address
  policyId : Bytes32
  verifyingKeyHash : Bytes32
  serverNameHash : Bytes32
  structureHash : Bytes32
  /-- The hash of each role's commitment prefix, in role order. -/
  prefixHashes : List Bytes32
  receivedLength : BitVec 32
  delta : Uint64
  maxSessionSecs : Uint64

/-- The immutables. -/
structure BaseVerifier where
  NOTARY : Address
  IDENTITY_ATTESTOR : Address
  POLICY_ID : Bytes32
  VERIFYING_KEY_HASH : Bytes32
  SERVER_NAME_HASH : Bytes32
  STRUCTURE_HASH : Bytes32
  COMMITMENTS : ℕ
  PREFIX_HASH_0 : Bytes32
  PREFIX_HASH_1 : Bytes32
  PREFIX_HASH_2 : Bytes32
  PREFIX_HASH_3 : Bytes32
  PREFIX_HASH_4 : Bytes32
  PREFIX_HASH_5 : Bytes32
  RECEIVED_LENGTH : BitVec 32
  DELTA : Uint64
  MAX_SESSION_SECS : Uint64

/-- The constructor. -/
def BaseVerifier.new (c : BaseConfig) : Except BaselineError BaseVerifier := do
  let n := c.prefixHashes.length
  ensure (¬(n < 3 ∨ n > MAX_COMMITMENTS)) .BadConfig
  .ok {
    NOTARY := c.notary
    IDENTITY_ATTESTOR := c.identityAttestor
    POLICY_ID := c.policyId
    VERIFYING_KEY_HASH := c.verifyingKeyHash
    SERVER_NAME_HASH := c.serverNameHash
    STRUCTURE_HASH := c.structureHash
    COMMITMENTS := n
    PREFIX_HASH_0 := c.prefixHashes.getD 0 0
    PREFIX_HASH_1 := c.prefixHashes.getD 1 0
    PREFIX_HASH_2 := c.prefixHashes.getD 2 0
    PREFIX_HASH_3 := if n > 3 then c.prefixHashes.getD 3 0 else 0
    PREFIX_HASH_4 := if n > 4 then c.prefixHashes.getD 4 0 else 0
    PREFIX_HASH_5 := if n > 5 then c.prefixHashes.getD 5 0 else 0
    RECEIVED_LENGTH := c.receivedLength
    DELTA := c.delta
    MAX_SESSION_SECS := c.maxSessionSecs }

/-- An attestation and the openings of its revealed commitments. -/
structure Attestation where
  header : Bytes
  signature : Bytes
  verifyingKey : Bytes
  connectionInfo : Bytes
  serverEphemeralKey : Bytes
  certCommitment : Bytes
  tAtt : Uint64
  /-- The prefix of each role's commitment. -/
  prefixes : List Bytes
  /-- The hash of each role's commitment. -/
  hashes : List Bytes32
  /-- Role of each transcript-commitment field, in field-id order. -/
  roleOfField : List UInt8
  requestBlinder : Bytes16
  structure_ : Bytes
  structureBlinder : Bytes16
  identitySignature : Bytes

/-! ## The check -/

/-- The Merkle root that a header carries. -/
def headerRoot (h : Bytes) : Except BaselineError Bytes32 := do
  ensure (h.length = HEADER_LENGTH) .BadHeader
  ensure (slice h 16 4 = [0, 0, 0, 0] ∧ h.getD 20 0 = HASH_ALG_KECCAK256 ∧ h.getD 21 0 = 32)
    .BadHeader
  .ok (wordOfBytes (slice h 22 32))

def recover (ecrecover : Bytes32 → UInt8 → Bytes32 → Bytes32 → Address) (digest : Bytes32)
    (sig : Bytes) : Except BaselineError Address := do
  ensure (sig.length = 65) .BadSignature
  let v := sig.getD 64 0
  let v := if v < 27 then v + 27 else v
  let r := wordOfBytes (slice sig 0 32)
  let s := wordOfBytes (slice sig 32 32)
  ensure (s.toNat ≤ MAX_S) .BadSignature
  let a := ecrecover digest v r s
  ensure (a ≠ 0) .BadSignature
  .ok a

/-- Little-endian unsigned integer of up to 32 bytes. -/
def le (b : Bytes) : ℕ := b.foldr (fun x v => v * 256 + x.toNat) 0

namespace BaseVerifier

variable (v : BaseVerifier)

def prefixHash (r : ℕ) : Bytes32 :=
  if r = 0 then v.PREFIX_HASH_0
  else if r = 1 then v.PREFIX_HASH_1
  else if r = 2 then v.PREFIX_HASH_2
  else if r = 3 then v.PREFIX_HASH_3
  else if r = 4 then v.PREFIX_HASH_4
  else v.PREFIX_HASH_5

def connection (b : Block) (c : Bytes) (tAtt : Uint64) : Except BaselineError Unit := do
  ensure (c.length = CONNECTION_INFO_LENGTH ∧ c.getD 8 0 = 0) .BadConnectionInfo
  let time := le (slice c 0 8)
  ensure (le (slice c 13 4) = v.RECEIVED_LENGTH.toNat) .BadConnectionInfo
  ensure (¬tAtt.toNat + TLSN_CLOCK_TOLERANCE < time) .BadTime
  ensure (time + v.MAX_SESSION_SECS.toNat < 2 ^ 64) .Panic
  ensure (¬tAtt.toNat > time + v.MAX_SESSION_SECS.toNat) .BadTime
  ensure (¬(tAtt.toNat > b.timestamp ∨ b.timestamp - tAtt.toNat > v.DELTA.toNat)) .NotFresh

/-- Adds the role of field `i` to the roles seen, as a bit. -/
def seeRole (roleOfField : List UInt8) (seen : Uint256) (i : ℕ) :
    Except BaselineError Uint256 := do
  let role := (roleOfField.getD i 0).toNat
  ensure (¬role ≥ v.COMMITMENTS) .BadRoles
  .ok (seen ||| (1 : Uint256) <<< role)

def seenRoles (roleOfField : List UInt8) : Except BaselineError Uint256 :=
  (List.range v.COMMITMENTS).foldlM (v.seeRole roleOfField) 0

end BaseVerifier

section

variable (keccak256 sha256 : Bytes → Bytes32)

def IDENTITY_TAG : Bytes32 := keccak256 (utf8 "PPREV.identity.v1")

/-- What the attestor of the server's identity signs. -/
def identityInput (v : BaseVerifier) (headerHash policyId : Bytes32) : Bytes :=
  abiEncode [IDENTITY_TAG keccak256, headerHash, wordOfAddress v.NOTARY, v.SERVER_NAME_HASH,
    policyId]

namespace Attestation

/-- What is hashed for the leaf of the commitment of a role. -/
def commitmentLeaf (a : Attestation) (r : ℕ) : Bytes :=
  DOMAIN_TRANSCRIPT_COMMITMENT ++ a.prefixes.getD r [] ++ [0x01, 0x20] ++
    wordBytes (a.hashes.getD r 0)

/-- What is hashed for the leaves, in field-id order. -/
def leafInputs (a : Attestation) (n : ℕ) : List Bytes :=
  [DOMAIN_VERIFYING_KEY ++ a.verifyingKey, DOMAIN_CONNECTION_INFO ++ a.connectionInfo,
    DOMAIN_SERVER_EPHEMERAL_KEY ++ a.serverEphemeralKey, DOMAIN_CERT_COMMITMENT ++ a.certCommitment,
    DOMAIN_EXTENSION ++ [0x0b] ++ utf8 "pprev.t_att" ++ [0x08] ++ uint64Bytes a.tAtt] ++
  (List.range n).map fun i => a.commitmentLeaf (a.roleOfField.getD i 0).toNat

def leaves (a : Attestation) (n : ℕ) : List Bytes32 := (a.leafInputs n).map keccak256

end Attestation

/-- What is hashed for an inner node. -/
def nodeInput (left right : Bytes32) : Bytes := wordBytes left ++ wordBytes right

def merkleNode (left right : Bytes32) : Bytes32 := keccak256 (nodeInput left right)

/-- Writes node `i` of the round over the first `n` nodes of the array. -/
def merkleWrite (n : ℕ) (layer : List Bytes32) (i : ℕ) : List Bytes32 :=
  layer.set i (if 2 * i + 1 < n
    then merkleNode keccak256 (layer.getD (2 * i) 0) (layer.getD (2 * i + 1) 0)
    else layer.getD (2 * i) 0)

def merkleRound (n : ℕ) (layer : List Bytes32) : List Bytes32 :=
  (List.range ((n + 1) / 2)).foldl (merkleWrite keccak256 n) layer

def merkleLoop (n : ℕ) (layer : List Bytes32) : Bytes32 :=
  if n > 1 then merkleLoop ((n + 1) / 2) (merkleRound keccak256 n layer) else layer.getD 0 0
termination_by n

def merkleRoot (layer : List Bytes32) : Bytes32 := merkleLoop keccak256 layer.length layer

/-- Checks the attestation for a policy with the revealed request line. -/
def BaseVerifier.checkAttestation (ecrecover : Bytes32 → UInt8 → Bytes32 → Bytes32 → Address)
    (v : BaseVerifier) (b : Block) (a : Attestation) (requestLine : Bytes) (policyId : Bytes32) :
    Except BaselineError Unit := do
  ensure (policyId = v.POLICY_ID) .UnknownPolicy
  let root ← headerRoot a.header
  let headerHash := keccak256 a.header
  ensure ((← recover ecrecover headerHash a.signature) = v.NOTARY) .BadSignature
  let identityDigest := keccak256 (identityInput keccak256 v headerHash policyId)
  ensure ((← recover ecrecover identityDigest a.identitySignature) = v.IDENTITY_ATTESTOR)
    .BadIdentity
  ensure (keccak256 a.verifyingKey = v.VERIFYING_KEY_HASH) .BadVerifyingKey
  v.connection b a.connectionInfo a.tAtt
  -- each role exactly once, each with the prefix of its layout
  let n := v.COMMITMENTS
  ensure (a.prefixes.length = n ∧ a.hashes.length = n ∧ a.roleOfField.length = n) .BadRoles
  ensure ((← v.seenRoles a.roleOfField) = (1 : Uint256) <<< n - 1) .BadRoles
  (List.range n).forM fun r =>
    ensure (keccak256 (a.prefixes.getD r []) = v.prefixHash r) (.BadPrefix r)
  ensure (sha256 (requestLine ++ a.requestBlinder) = a.hashes.getD ROLE_REQUEST 0) .BadRequestLine
  ensure (keccak256 a.structure_ = v.STRUCTURE_HASH ∧
    sha256 (a.structure_ ++ a.structureBlinder) = a.hashes.getD ROLE_STRUCTURE 0) .BadStructure
  ensure (merkleRoot keccak256 (a.leaves keccak256 n) = root) .BadRoot

end

end Pprev
