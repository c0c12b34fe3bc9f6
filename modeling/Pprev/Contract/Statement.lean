import Pprev.Contract.Encoding
import Mathlib.Data.Set.Function

/-!
# Phase statements

The statements of `statement.rs`, which the notary signs under the typed-data domain of one
deployment. Their digests are those the contract computes, and as long as nothing that is hashed
for them collides a digest determines the statement, its phase and its domain.
-/

namespace Pprev

open Evm

structure Register where
  cTx : Bytes32
  txData : TxData
  policyId : Bytes32
  submitter : Address
  eta : Bytes32
  tAtt : Uint64
  deriving DecidableEq

structure Apply where
  txId : Uint256
  cTx : Bytes32
  txData : TxData
  cB : Bytes32
  policyId : Bytes32
  submitter : Address
  eta : Bytes32
  tAtt : Uint64
  deriving DecidableEq

structure Settle where
  engId : Uint256
  txId : Uint256
  cTx : Bytes32
  txData : TxData
  cB : Bytes32
  expiresAt : Uint256
  policyId : Bytes32
  submitter : Address
  eta : Bytes32
  tAtt : Uint64
  deriving DecidableEq

/-- A statement of one of the three phases. -/
inductive Statement where
  | register (x : Register)
  | apply (x : Apply)
  | settle (x : Settle)
  deriving DecidableEq

/-- The domain of a deployment: name "PPREV" and version "1" are fixed. -/
structure Domain where
  chainId : Uint256
  verifyingContract : Address
  deriving DecidableEq

namespace Statement

def txData : Statement → TxData
  | register x => x.txData
  | apply x => x.txData
  | settle x => x.txData

def submitter : Statement → Address
  | register x => x.submitter
  | apply x => x.submitter
  | settle x => x.submitter

def eta : Statement → Bytes32
  | register x => x.eta
  | apply x => x.eta
  | settle x => x.eta

def tAtt : Statement → Uint64
  | register x => x.tAtt
  | apply x => x.tAtt
  | settle x => x.tAtt

end Statement

section

variable (keccak256 : Bytes → Bytes32)

/-- What is hashed in place of the transaction parameters. -/
def Register.typed (x : Register) : RegisterStatement :=
  ⟨x.cTx, hashTxData keccak256 x.txData, x.policyId, x.submitter, x.eta, x.tAtt⟩

def Apply.typed (x : Apply) : ApplyStatement :=
  ⟨x.txId, x.cTx, hashTxData keccak256 x.txData, x.cB, x.policyId, x.submitter, x.eta, x.tAtt⟩

def Settle.typed (x : Settle) : SettleStatement :=
  ⟨x.engId, x.txId, x.cTx, hashTxData keccak256 x.txData, x.cB, x.expiresAt, x.policyId,
    x.submitter, x.eta, x.tAtt⟩

/-- The words of a statement's struct hash. -/
def Statement.words : Statement → List Bytes32
  | .register x => REGISTER_TYPEHASH keccak256 :: (x.typed keccak256).words
  | .apply x => APPLY_TYPEHASH keccak256 :: (x.typed keccak256).words
  | .settle x => SETTLE_TYPEHASH keccak256 :: (x.typed keccak256).words

/-- `hashStruct` of a statement. -/
def Statement.hash (x : Statement) : Bytes32 := keccak256 (abiEncode (x.words keccak256))

def Domain.separator (domain : Domain) : Bytes32 :=
  buildDomainSeparator keccak256 domain.chainId domain.verifyingContract

/-- What the notary's signature is on. -/
def digest (x : Statement) (domain : Domain) : Bytes32 :=
  typedData keccak256 (domain.separator keccak256) (x.hash keccak256)

/-- Everything that is hashed for a digest, save the constant texts. -/
def digestInputs (x : Statement) (domain : Domain) : List Bytes :=
  [typedDataInput (domain.separator keccak256) (x.hash keccak256),
    abiEncode (domainWords keccak256 domain.chainId domain.verifyingContract),
    abiEncode (x.words keccak256),
    abiEncode (TX_DATA_TYPEHASH keccak256 :: x.txData.words)]

variable {keccak256}

/-- The phases hash different numbers of words. -/
theorem Statement.length_words (x : Statement) : (x.words keccak256).length =
    match x with
    | .register _ => 7
    | .apply _ => 9
    | .settle _ => 11 := by
  cases x <;> rfl

/-- The words of a statement determine it, once the hash of its parameters does. -/
theorem Statement.eq_of_words {x x' : Statement} (h : x.words keccak256 = x'.words keccak256)
    (htx : hashTxData keccak256 x.txData = hashTxData keccak256 x'.txData →
      x.txData = x'.txData) : x = x' := by
  have hlen := congrArg List.length h
  rw [length_words, length_words] at hlen
  cases x with
  | register x =>
    cases x' with
    | register x' =>
      have hx := RegisterStatement.words_injective (List.cons_eq_cons.mp h).2
      obtain ⟨cTx, txData, policyId, submitter, eta, tAtt⟩ := x
      obtain ⟨cTx', txData', policyId', submitter', eta', tAtt'⟩ := x'
      simp only [Register.typed, RegisterStatement.mk.injEq] at hx
      obtain ⟨rfl, hhash, rfl, rfl, rfl, rfl⟩ := hx
      obtain rfl : txData = txData' := htx hhash
      rfl
    | apply x' => simp at hlen
    | settle x' => simp at hlen
  | apply x =>
    cases x' with
    | register x' => simp at hlen
    | apply x' =>
      have hx := ApplyStatement.words_injective (List.cons_eq_cons.mp h).2
      obtain ⟨txId, cTx, txData, cB, policyId, submitter, eta, tAtt⟩ := x
      obtain ⟨txId', cTx', txData', cB', policyId', submitter', eta', tAtt'⟩ := x'
      simp only [Apply.typed, ApplyStatement.mk.injEq] at hx
      obtain ⟨rfl, rfl, hhash, rfl, rfl, rfl, rfl, rfl⟩ := hx
      obtain rfl : txData = txData' := htx hhash
      rfl
    | settle x' => simp at hlen
  | settle x =>
    cases x' with
    | register x' => simp at hlen
    | apply x' => simp at hlen
    | settle x' =>
      have hx := SettleStatement.words_injective (List.cons_eq_cons.mp h).2
      obtain ⟨engId, txId, cTx, txData, cB, expiresAt, policyId, submitter, eta, tAtt⟩ := x
      obtain ⟨engId', txId', cTx', txData', cB', expiresAt', policyId', submitter', eta', tAtt'⟩ := x'
      simp only [Settle.typed, SettleStatement.mk.injEq] at hx
      obtain ⟨rfl, rfl, rfl, hhash, rfl, rfl, rfl, rfl, rfl, rfl⟩ := hx
      obtain rfl : txData = txData' := htx hhash
      rfl

/-- A digest determines the statement and its domain as long as nothing hashed collides. -/
theorem digest_inj {S : Set Bytes} (hinj : Set.InjOn keccak256 S) {x x' : Statement}
    {domain domain' : Domain} (hx : ∀ z ∈ digestInputs keccak256 x domain, z ∈ S)
    (hx' : ∀ z ∈ digestInputs keccak256 x' domain', z ∈ S)
    (h : digest keccak256 x domain = digest keccak256 x' domain') : x = x' ∧ domain = domain' := by
  simp only [digestInputs, List.forall_mem_cons] at hx hx'
  obtain ⟨htyped, hdomain, hwords, htx, -⟩ := hx
  obtain ⟨htyped', hdomain', hwords', htx', -⟩ := hx'
  obtain ⟨hsep, hhash⟩ := typedDataInput_inj (hinj htyped htyped' h)
  have hw := abiEncode_injective (hinj hwords hwords' hhash)
  have hd := abiEncode_injective (hinj hdomain hdomain' hsep)
  refine ⟨Statement.eq_of_words hw fun heq => ?_, ?_⟩
  · exact TxData.words_injective (List.cons_eq_cons.mp (abiEncode_injective (hinj htx htx' heq))).2
  · obtain ⟨chainId, verifyingContract⟩ := domain
    obtain ⟨chainId', verifyingContract'⟩ := domain'
    simp only [domainWords, List.cons.injEq, true_and, and_true,
      wordOfAddress_injective.eq_iff] at hd
    rw [hd.1, hd.2]

end

end Pprev
