import Pprev.Contract.Types

/-!
# Commitments and typed-data hashes

The library `PPREVEncoding.sol` and the digest of `PPREV.sol` over a hash function `keccak256`.
Text is hashed as its UTF-8 bytes. Every member of a statement is one word, so `abi.encode` of a
type hash and a statement is the encoding of the words in order.
-/

namespace Pprev

open Evm

/-- The UTF-8 bytes of a text. -/
def utf8 (text : String) : Bytes := text.toUTF8.data.toList

/-! ## Type strings -/

def TX_DATA_TYPE : String := "TxData(bytes32 propertyId,uint256 amount,uint256 settlementShare)"

def REGISTER_TYPE : String :=
  "Register(bytes32 cTx,TxData txData,bytes32 policyId,address submitter,bytes32 eta,uint64 tAtt)" ++
  TX_DATA_TYPE

def APPLY_TYPE : String :=
  "Apply(uint256 txId,bytes32 cTx,TxData txData,bytes32 cB,bytes32 policyId,address submitter," ++
  "bytes32 eta,uint64 tAtt)" ++ TX_DATA_TYPE

def SETTLE_TYPE : String :=
  "Settle(uint256 engId,uint256 txId,bytes32 cTx,TxData txData,bytes32 cB,uint256 expiresAt," ++
  "bytes32 policyId,address submitter,bytes32 eta,uint64 tAtt)" ++ TX_DATA_TYPE

def DOMAIN_TYPE : String :=
  "EIP712Domain(string name,string version,uint256 chainId,address verifyingContract)"

/-! ## Statements -/

structure RegisterStatement where
  cTx : Bytes32
  txDataHash : Bytes32
  policyId : Bytes32
  submitter : Address
  eta : Bytes32
  tAtt : Uint64

structure ApplyStatement where
  txId : Uint256
  cTx : Bytes32
  txDataHash : Bytes32
  cB : Bytes32
  policyId : Bytes32
  submitter : Address
  eta : Bytes32
  tAtt : Uint64

structure SettleStatement where
  engId : Uint256
  txId : Uint256
  cTx : Bytes32
  txDataHash : Bytes32
  cB : Bytes32
  expiresAt : Uint256
  policyId : Bytes32
  submitter : Address
  eta : Bytes32
  tAtt : Uint64

/-- The words of `abi.encode(txData, ..)`. -/
def TxData.words (x : TxData) : List Bytes32 := [x.propertyId, x.amount, x.settlementShare]

def RegisterStatement.words (x : RegisterStatement) : List Bytes32 :=
  [x.cTx, x.txDataHash, x.policyId, wordOfAddress x.submitter, x.eta, wordOfUint64 x.tAtt]

def ApplyStatement.words (x : ApplyStatement) : List Bytes32 :=
  [x.txId, x.cTx, x.txDataHash, x.cB, x.policyId, wordOfAddress x.submitter, x.eta,
    wordOfUint64 x.tAtt]

def SettleStatement.words (x : SettleStatement) : List Bytes32 :=
  [x.engId, x.txId, x.cTx, x.txDataHash, x.cB, x.expiresAt, x.policyId, wordOfAddress x.submitter,
    x.eta, wordOfUint64 x.tAtt]

/-! ## Hashes -/

section

variable (keccak256 : Bytes → Bytes32)

def TX_DATA_TYPEHASH : Bytes32 := keccak256 (utf8 TX_DATA_TYPE)
def REGISTER_TYPEHASH : Bytes32 := keccak256 (utf8 REGISTER_TYPE)
def APPLY_TYPEHASH : Bytes32 := keccak256 (utf8 APPLY_TYPE)
def SETTLE_TYPEHASH : Bytes32 := keccak256 (utf8 SETTLE_TYPE)
def DOMAIN_TYPEHASH : Bytes32 := keccak256 (utf8 DOMAIN_TYPE)
def NAME_HASH : Bytes32 := keccak256 (utf8 "PPREV")
def VERSION_HASH : Bytes32 := keccak256 (utf8 "1")

/-- What `commitment` hashes. -/
def commitmentInput (txData : TxData) (policyIdR r : Bytes32) : Bytes :=
  abiEncode (txData.words ++ [policyIdR, r])

def commitment (txData : TxData) (policyIdR r : Bytes32) : Bytes32 :=
  keccak256 (commitmentInput txData policyIdR r)

def hashTxData (txData : TxData) : Bytes32 :=
  keccak256 (abiEncode (TX_DATA_TYPEHASH keccak256 :: txData.words))

def hashRegister (x : RegisterStatement) : Bytes32 :=
  keccak256 (abiEncode (REGISTER_TYPEHASH keccak256 :: x.words))

def hashApply (x : ApplyStatement) : Bytes32 :=
  keccak256 (abiEncode (APPLY_TYPEHASH keccak256 :: x.words))

def hashSettle (x : SettleStatement) : Bytes32 :=
  keccak256 (abiEncode (SETTLE_TYPEHASH keccak256 :: x.words))

/-- The words of the domain separator of a contract on a chain. -/
def domainWords (chainid : Uint256) (this : Address) : List Bytes32 :=
  [DOMAIN_TYPEHASH keccak256, NAME_HASH keccak256, VERSION_HASH keccak256, chainid,
    wordOfAddress this]

def buildDomainSeparator (chainid : Uint256) (this : Address) : Bytes32 :=
  keccak256 (abiEncode (domainWords keccak256 chainid this))

/-- What the digest of a struct hash under a domain separator hashes. -/
def typedDataInput (separator structHash : Bytes32) : Bytes :=
  [0x19, 0x01] ++ wordBytes separator ++ wordBytes structHash

def typedData (separator structHash : Bytes32) : Bytes32 :=
  keccak256 (typedDataInput separator structHash)

end

/-! ## Encodings are injective -/

theorem TxData.words_injective : Function.Injective TxData.words := by
  rintro ⟨p, a, sh⟩ ⟨p', a', sh'⟩ h
  simp only [TxData.words, List.cons.injEq, and_true] at h
  obtain ⟨rfl, rfl, rfl⟩ := h
  rfl

theorem commitmentInput_inj {txData txData' : TxData} {policyIdR policyIdR' r r' : Bytes32}
    (h : commitmentInput txData policyIdR r = commitmentInput txData' policyIdR' r') :
    txData = txData' ∧ policyIdR = policyIdR' ∧ r = r' := by
  obtain ⟨hx, hrest⟩ := List.append_inj (abiEncode_injective h) rfl
  simp only [List.cons.injEq, and_true] at hrest
  exact ⟨TxData.words_injective hx, hrest⟩

theorem typedDataInput_inj {sep sep' hash hash' : Bytes32}
    (h : typedDataInput sep hash = typedDataInput sep' hash') : sep = sep' ∧ hash = hash' := by
  obtain ⟨hsep, hhash⟩ := List.append_inj h (by simp)
  exact ⟨wordBytes_injective (List.append_cancel_left hsep), wordBytes_injective hhash⟩

theorem RegisterStatement.words_injective : Function.Injective RegisterStatement.words := by
  rintro ⟨⟩ ⟨⟩ h
  simp only [RegisterStatement.words, List.cons.injEq, and_true,
    wordOfAddress_injective.eq_iff, wordOfUint64_injective.eq_iff] at h
  obtain ⟨rfl, rfl, rfl, rfl, rfl, rfl⟩ := h
  rfl

theorem ApplyStatement.words_injective : Function.Injective ApplyStatement.words := by
  rintro ⟨⟩ ⟨⟩ h
  simp only [ApplyStatement.words, List.cons.injEq, and_true,
    wordOfAddress_injective.eq_iff, wordOfUint64_injective.eq_iff] at h
  obtain ⟨rfl, rfl, rfl, rfl, rfl, rfl, rfl, rfl⟩ := h
  rfl

theorem SettleStatement.words_injective : Function.Injective SettleStatement.words := by
  rintro ⟨⟩ ⟨⟩ h
  simp only [SettleStatement.words, List.cons.injEq, and_true,
    wordOfAddress_injective.eq_iff, wordOfUint64_injective.eq_iff] at h
  obtain ⟨rfl, rfl, rfl, rfl, rfl, rfl, rfl, rfl, rfl, rfl⟩ := h
  rfl

/-! ## The test vectors -/

namespace Vectors

/-- The statements of `test-vectors/eip712.json`. -/
def txData : TxData where
  propertyId := 0x54522d30362d43414e4b4159412d303030313233000000000000000000000000
  amount := 1000000000000000000
  settlementShare := 1000

def policyIdR : Bytes32 := 0xdaa0cc8bee0f7a38b19d419dc9c099dca2411eecb84dda8c97bb9d1c0df7ff13
def policyIdA : Bytes32 := 0xc7d242e17f56ef174eebde468e1693a3dba0c9abdabdd687b7fcf8724e571fa7
def policyIdS : Bytes32 := 0xb38cc709c7cd13f94c911939e95c29ae3a86a975244fc56bd65a31516419b108
def r : Bytes32 := 0x38ba3c81cafda7f4c54ae9b49607d0b2df09b332810594edff0dbeb5eda54cd6
def cTx : Bytes32 := 0xdeb126b9b4c63c4fd54d0b7b6a4ea3f0ab9036aa329074a534722ad7c06d6348
def cB : Bytes32 := 0xf07ae25c2fade097974332cb93fc00835dd4c0bb356e7b74fca5b836f5d68f2f
def txDataHash : Bytes32 := 0x1cab352a8048766f8553b4a8135869a5505c03f22f61ee188624df4ac30380e5
def owner : Address := 0x1111111111111111111111111111111111111111
def applicant : Address := 0x2222222222222222222222222222222222222222
def contract : Address := 0x5aAdFB43eF8dAF45DD80F4676345b7676f1D70e3
def chainid : Uint256 := 31337
def separator : Bytes32 := 0x87e912e6767ba3539f153c46c6bef4edb15d215ac5862e7641fb2cfef5f12d19

def register : RegisterStatement where
  cTx := cTx
  txDataHash := txDataHash
  policyId := policyIdR
  submitter := owner
  eta := 0xce4db77d2411e15a59eb0af7187c44cb88fc4f99a0a954d5a955073d6d95250d
  tAtt := 1760000000

def applyFor : ApplyStatement where
  txId := 1
  cTx := cTx
  txDataHash := txDataHash
  cB := cB
  policyId := policyIdA
  submitter := applicant
  eta := 0x52bd0495c0d7eae9f7e1888864c6967c9bb1d3c09f6f4d8f707a0ce855e814f7
  tAtt := 1760000100

def settle : SettleStatement where
  engId := 1
  txId := 1
  cTx := cTx
  txDataHash := txDataHash
  cB := cB
  expiresAt := 1761209700
  policyId := policyIdS
  submitter := owner
  eta := 0x93007cc624fac80697e9023647e8eed831ad52c6c691ff81936b18ab63b90b36
  tAtt := 1760500000

def registerDigest : Bytes32 := 0xb9cb90d431dfd432c52ae789635458de8acdec66e1817a1aa359bc979a151564
def applyDigest : Bytes32 := 0x489162ae1f53ef95be960122bec781108346c3b4e057a2b0881f9d4783079d47
def settleDigest : Bytes32 := 0x4e44b71fc69c20e6e9a572152f9ae1183e04701f0fa4d305d5ccdd1fbd6b9c20

/-- The Keccak-256 hashes of everything that is hashed for these statements. -/
def hashes : List (Bytes × Bytes32) :=
  let domainType := 0x8b73c3c69bb8fe3d512ecc4cf759cc79239f7b179b0ffacaa9a75d522b39400f
  let name := 0xcce789c69610ab3deed37840c8cdf5148c59877fefb682cbb9681fd4edcf4d6e
  let version := 0xc89efdaa54c0f20c7adf612882df0950f5a951637e0307cdcb4c672f298b8bc6
  let txDataType := 0x1138988aacb569d0c151069ec315f2294ab4a06fed8a2beb6573f4a86fc707a6
  let registerType := 0x2665c648b55a3cb6d00b3d35ae60ed3a663086222a9790e65a605c84e48c915f
  let applyType := 0xac971b5a279b5956a0fea8edda0301ed8b2457fcf48cc5ae877a77fcca6d9352
  let settleType := 0xc7f81a220b787573505743fb8e18492f46233b65162bfcc4ebd413b62766fc74
  let registerHash := 0x18ee533a68b872e89b3606b52920c6b3bb1633595fd3b339ad97dd348bf1d83d
  let applyHash := 0xf9cae931277873089623f09d77381e193fcf7a7c0ef0dfcb0d4b1a9b7f1192dc
  let settleHash := 0x22c360f49201ecd3195257352453c73f5eddabed494d782f8343b3c845d737dc
  [(utf8 DOMAIN_TYPE, domainType), (utf8 "PPREV", name), (utf8 "1", version),
    (abiEncode [domainType, name, version, chainid, wordOfAddress contract], separator),
    (utf8 TX_DATA_TYPE, txDataType), (utf8 REGISTER_TYPE, registerType),
    (utf8 APPLY_TYPE, applyType), (utf8 SETTLE_TYPE, settleType),
    (abiEncode (txDataType :: txData.words), txDataHash),
    (commitmentInput txData policyIdR r, cTx),
    (abiEncode (registerType :: register.words), registerHash),
    (abiEncode (applyType :: applyFor.words), applyHash),
    (abiEncode (settleType :: settle.words), settleHash),
    (typedDataInput separator registerHash, registerDigest),
    (typedDataInput separator applyHash, applyDigest),
    (typedDataInput separator settleHash, settleDigest)]

/-- Keccak-256 on the inputs of the test vectors. -/
def keccak (x : Bytes) : Bytes32 := (hashes.lookup x).getD 0

example : typedData keccak (buildDomainSeparator keccak chainid contract)
    (hashSettle keccak settle) = settleDigest := by decide +kernel

end Vectors

end Pprev
