import Pprev.Contract.Agreement
import Pprev.Evm.TypedData

/-!
# Encoding of the phase statements

The structs of `statement.rs` as typed data: the parameters stay a struct inside a statement, so
that their hash, the type strings and the words of the narrow members come from the encoding and
not from the contract. What is signed and committed to off the chain is what the contract hashes.
-/

namespace Pprev

open Evm

def TxData.members (x : TxData) : List (String × Value) :=
  [("propertyId", .atom (.bytes32 x.propertyId)),
    ("amount", .atom (.uint 256 x.amount)),
    ("settlementShare", .atom (.uint 256 x.settlementShare))]

def TxData.value (x : TxData) : Value := .struct "TxData" (.ofList x.members)

def Register.members (x : Register) : List (String × Value) :=
  [("cTx", .atom (.bytes32 x.cTx)),
    ("txData", x.txData.value),
    ("policyId", .atom (.bytes32 x.policyId)),
    ("submitter", .atom (.address x.submitter)),
    ("eta", .atom (.bytes32 x.eta)),
    ("tAtt", .atom (.uint 64 x.tAtt))]

def Apply.members (x : Apply) : List (String × Value) :=
  [("txId", .atom (.uint 256 x.txId)),
    ("cTx", .atom (.bytes32 x.cTx)),
    ("txData", x.txData.value),
    ("cB", .atom (.bytes32 x.cB)),
    ("policyId", .atom (.bytes32 x.policyId)),
    ("submitter", .atom (.address x.submitter)),
    ("eta", .atom (.bytes32 x.eta)),
    ("tAtt", .atom (.uint 64 x.tAtt))]

def Settle.members (x : Settle) : List (String × Value) :=
  [("engId", .atom (.uint 256 x.engId)),
    ("txId", .atom (.uint 256 x.txId)),
    ("cTx", .atom (.bytes32 x.cTx)),
    ("txData", x.txData.value),
    ("cB", .atom (.bytes32 x.cB)),
    ("expiresAt", .atom (.uint 256 x.expiresAt)),
    ("policyId", .atom (.bytes32 x.policyId)),
    ("submitter", .atom (.address x.submitter)),
    ("eta", .atom (.bytes32 x.eta)),
    ("tAtt", .atom (.uint 64 x.tAtt))]

def Register.value (x : Register) : Value := .struct "Register" (.ofList x.members)
def Apply.value (x : Apply) : Value := .struct "Apply" (.ofList x.members)
def Settle.value (x : Settle) : Value := .struct "Settle" (.ofList x.members)

def TxData.abi (x : TxData) : Abi :=
  .tuple [.atom (.bytes32 x.propertyId), .atom (.uint 256 x.amount),
    .atom (.uint 256 x.settlementShare)]

/-- A domain as typed data, whose names and types are those that every contract has. -/
def Domain.value (domain : Domain) : Value :=
  .struct "EIP712Domain" (.ofList
    [("name", .text "PPREV"),
      ("version", .text "1"),
      ("chainId", .atom (.uint 256 domain.chainId)),
      ("verifyingContract", .atom (.address domain.verifyingContract))])

namespace Offchain

/-- The number of a chain is a `u64` here, and a word of the domain. -/
def domain (chain_id : Uint64) (verifying_contract : Address) : Value :=
  Domain.value ⟨chain_id.setWidth 256, verifying_contract⟩

section

variable (keccak256 : Bytes → Bytes32)

def commitment (tx_data : TxData) (policy_id_r r : Bytes32) : Bytes32 :=
  keccak256 (abiEncode
    (Abi.tuple [tx_data.abi, .atom (.bytes32 policy_id_r), .atom (.bytes32 r)]).words)

def digest (statement domain : Value) : Bytes32 := signingHash keccak256 utf8 domain statement

end

end Offchain

/-! ## Type strings -/

/-- The type string of a struct that refers to no other. -/
theorem encodeType_of_structs {name : String} {members : List (String × Value)}
    (h : (members.flatMap fun x => x.2.structs) = []) :
    encodeType name (.ofList members) = declaration name (.ofList members) := by
  rw [encodeType, referenced, Members.structs_ofList, h]
  exact String.append_empty

theorem TxData.encodeType (x : TxData) :
    Evm.encodeType "TxData" (.ofList x.members) = TX_DATA_TYPE := by
  rw [encodeType_of_structs rfl, declaration, Members.declarations_ofList]
  simp only [members, List.map_cons, List.map_nil, Value.type, Atom.type]
  rfl

/-- The type string of a struct that refers to one other. -/
theorem encodeType_of_structs_singleton {name other text : String}
    {members : List (String × Value)}
    (h : (members.flatMap fun x => x.2.structs) = [(other, text)]) (hne : other ≠ name) :
    encodeType name (.ofList members) = declaration name (.ofList members) ++ text := by
  have hone : referenced name (.ofList members) = [(other, text)] := by
    rw [referenced, Members.structs_ofList, h]
    simp [hne]
  rw [encodeType, hone]
  exact congrArg _ (String.empty_append)

/-- The parameters are the only struct in a statement. -/
theorem TxData.structs_value (x : TxData) :
    x.value.structs = [("TxData", TX_DATA_TYPE)] := by
  have hdecl := x.encodeType
  rw [encodeType_of_structs rfl] at hdecl
  rw [value, Value.structs, Members.structs_ofList, hdecl]
  rfl

theorem Register.encodeType (x : Register) :
    Evm.encodeType "Register" (.ofList x.members) = REGISTER_TYPE := by
  have hstructs : (x.members.flatMap fun x => x.2.structs) = [("TxData", TX_DATA_TYPE)] := by
    simp [members, Value.structs, TxData.structs_value]
  rw [encodeType_of_structs_singleton hstructs (by decide), declaration,
    Members.declarations_ofList]
  simp only [members, List.map_cons, List.map_nil, Value.type, Atom.type, TxData.value]
  rfl

theorem Apply.encodeType (x : Apply) :
    Evm.encodeType "Apply" (.ofList x.members) = APPLY_TYPE := by
  have hstructs : (x.members.flatMap fun x => x.2.structs) = [("TxData", TX_DATA_TYPE)] := by
    simp [members, Value.structs, TxData.structs_value]
  rw [encodeType_of_structs_singleton hstructs (by decide), declaration,
    Members.declarations_ofList]
  simp only [members, List.map_cons, List.map_nil, Value.type, Atom.type, TxData.value]
  rfl

theorem Settle.encodeType (x : Settle) :
    Evm.encodeType "Settle" (.ofList x.members) = SETTLE_TYPE := by
  have hstructs : (x.members.flatMap fun x => x.2.structs) = [("TxData", TX_DATA_TYPE)] := by
    simp [members, Value.structs, TxData.structs_value]
  rw [encodeType_of_structs_singleton hstructs (by decide), declaration,
    Members.declarations_ofList]
  simp only [members, List.map_cons, List.map_nil, Value.type, Atom.type, TxData.value]
  rfl

/-! ## Struct hashes -/

section

variable {keccak256 : Bytes → Bytes32}

theorem TxData.encode_value (x : TxData) :
    x.value.encode keccak256 utf8 = hashTxData keccak256 x := by
  rw [value, Value.encode, x.encodeType, Members.encodeData_ofList]
  simp only [members, List.map_cons, List.map_nil, Value.encode, Atom.word, BitVec.setWidth_eq]
  rfl

/-- A statement with its parameters inside hashes to that of the contract, which has their hash. -/
theorem Register.encode_value (x : Register) :
    x.value.encode keccak256 utf8 = hashRegister keccak256 (x.typed keccak256) := by
  rw [value, Value.encode, x.encodeType, Members.encodeData_ofList]
  simp only [members, List.map_cons, List.map_nil, Value.encode, Atom.word, TxData.encode_value]
  rfl

theorem Apply.encode_value (x : Apply) :
    x.value.encode keccak256 utf8 = hashApply keccak256 (x.typed keccak256) := by
  rw [value, Value.encode, x.encodeType, Members.encodeData_ofList]
  simp only [members, List.map_cons, List.map_nil, Value.encode, Atom.word, TxData.encode_value,
    BitVec.setWidth_eq]
  rfl

theorem Settle.encode_value (x : Settle) :
    x.value.encode keccak256 utf8 = hashSettle keccak256 (x.typed keccak256) := by
  rw [value, Value.encode, x.encodeType, Members.encodeData_ofList]
  simp only [members, List.map_cons, List.map_nil, Value.encode, Atom.word, TxData.encode_value,
    BitVec.setWidth_eq]
  rfl

/-- The domain off the chain is that of the contract. -/
theorem Domain.encode_value (domain : Domain) :
    domain.value.encode keccak256 utf8 = domain.separator keccak256 := by
  have htype : ∀ xs : List (String × Value),
      (xs.map fun x => x.2.type ++ " " ++ x.1) = ["string name", "string version",
        "uint256 chainId", "address verifyingContract"] →
      declaration "EIP712Domain" (.ofList xs) = DOMAIN_TYPE := by
    intro xs h
    rw [declaration, Members.declarations_ofList, h]
    rfl
  rw [value, Value.encode, encodeType_of_structs rfl, htype, Members.encodeData_ofList]
  · simp only [List.map_cons, List.map_nil, Value.encode, Atom.word, BitVec.setWidth_eq]
    rfl
  · simp only [List.map_cons, List.map_nil, Value.type, Atom.type]
    rfl

theorem Offchain.commitment_eq (txData : TxData) (policyIdR r : Bytes32) :
    Offchain.commitment keccak256 txData policyIdR r =
      Pprev.commitment keccak256 txData policyIdR r := by
  simp only [Offchain.commitment, TxData.abi, Abi.words, Abi.wordsAll, Atom.word,
    BitVec.setWidth_eq]
  rfl

end

def Statement.value : Statement → Value
  | .register x => x.value
  | .apply x => x.value
  | .settle x => x.value

section

variable {keccak256 : Bytes → Bytes32}

theorem Statement.encode_value (x : Statement) :
    x.value.encode keccak256 utf8 = x.hash keccak256 := by
  cases x with
  | register x => exact x.encode_value
  | apply x => exact x.encode_value
  | settle x => exact x.encode_value

/-- What is signed off the chain for a statement is its digest. -/
theorem Offchain.digest_value (x : Statement) (domain : Domain) :
    Offchain.digest keccak256 x.value domain.value = Pprev.digest keccak256 x domain := by
  rw [Offchain.digest, signingHash, domain.encode_value, x.encode_value]
  rfl

/-- The contract hashes a struct hash under the domain of its address and of the chain. -/
theorem hashTypedData_eq (d : Deployment keccak256) {b : Block} {chain_id : Uint64}
    (hchain : b.chainid = wordOfUint64 chain_id) (x : Statement) :
    hashTypedData d b (x.hash keccak256) =
      Offchain.digest keccak256 x.value (Offchain.domain chain_id d.this) := by
  rw [hashTypedData, domainSeparator_eq, Offchain.domain, Offchain.digest_value, Deployment.domain,
    hchain]
  rfl

/-- **Encodings agree.** On every chain and for every contract the digest of a statement off the
chain is the one the contract computes from the struct with the hash of the same parameters, and
both sides compute the same commitment. The digest that the contract has verified for a statement
is the one that is signed for it. -/
theorem encodings_agree (d : Deployment keccak256) {b : Block} {chain_id : Uint64}
    (hchain : b.chainid = wordOfUint64 chain_id) :
    (∀ x : Register, Offchain.digest keccak256 x.value (Offchain.domain chain_id d.this) =
      hashTypedData d b (hashRegister keccak256 (x.typed keccak256))) ∧
    (∀ x : Apply, Offchain.digest keccak256 x.value (Offchain.domain chain_id d.this) =
      hashTypedData d b (hashApply keccak256 (x.typed keccak256))) ∧
    (∀ x : Settle, Offchain.digest keccak256 x.value (Offchain.domain chain_id d.this) =
      hashTypedData d b (hashSettle keccak256 (x.typed keccak256))) ∧
    (∀ (txData : TxData) (policyIdR r : Bytes32),
      Offchain.commitment keccak256 txData policyIdR r = commitment keccak256 txData policyIdR r) ∧
    ∀ (m : Msg) (s : State) (x : Statement) (sigma : Bytes),
      Verified d b m s (x.hash keccak256) sigma ↔ m.verify s.notaryVerifier
        (Offchain.digest keccak256 x.value (Offchain.domain chain_id d.this)) sigma =
          some true := by
  refine ⟨fun x => ?_, fun x => ?_, fun x => ?_, Offchain.commitment_eq, fun m s x sigma => ?_⟩
  · exact (hashTypedData_eq d hchain (.register x)).symm
  · exact (hashTypedData_eq d hchain (.apply x)).symm
  · exact (hashTypedData_eq d hchain (.settle x)).symm
  · rw [Verified, hashTypedData_eq d hchain]

end

namespace Vectors

/-- The statement of the last phase with its parameters. -/
def x_S : Settle :=
  ⟨1, 1, cTx, txData, cB, settle.expiresAt, policyIdS, owner, settle.eta, settle.tAtt⟩

theorem hashSettle_x_S :
    hashTypedData deployment (block 0) (hashSettle keccak Vectors.settle) = settleDigest ∧
    hashSettle keccak (x_S.typed keccak) = hashSettle keccak Vectors.settle := by
  decide +kernel

end Vectors

open Vectors in
theorem encodings_agree_vectors :
    hashTypedData deployment (block 0) (hashSettle keccak Vectors.settle) = settleDigest ∧
    Offchain.digest keccak x_S.value (Offchain.domain 31337 contract) = settleDigest := by
  obtain ⟨hcontract, htyped⟩ := hashSettle_x_S
  have hchain : (block 0).chainid = wordOfUint64 31337 := by decide
  refine ⟨hcontract, ((encodings_agree deployment hchain).2.2.1 x_S).trans ?_⟩
  rw [htyped, hcontract]

end Pprev
