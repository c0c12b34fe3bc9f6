import Mathlib.Data.List.Perm.Subperm
import Pprev.Baseline.Attestation

/-!
# What a header determines

The tree that the check computes in place is the tree of its leaves, layer by layer. As long as
nothing that is hashed collides, a header determines everything that the check accepts with it:
every leaf, by the tree; the role of every commitment, by its prefix; and what the hashes open to.
-/

namespace Pprev

open Evm Slice

/-! ## The tree -/

section

variable {keccak256 : Bytes → Bytes32}

/-- After `m` writes of a round, `m` nodes are of the layer above, and the others as before. -/
theorem getD_merkleWrites {n : ℕ} {layer : List Bytes32} (hn : n ≤ layer.length) {m : ℕ}
    (hm : m ≤ (n + 1) / 2) :
    ((List.range m).foldl (merkleWrite keccak256 n) layer).length = layer.length ∧
    ∀ j, ((List.range m).foldl (merkleWrite keccak256 n) layer).getD j 0 =
      if j < m then (Merkle.above (merkleNode keccak256) (layer.take n)).getD j 0
      else layer.getD j 0 := by
  induction m with
  | zero => exact ⟨rfl, fun j => by simp⟩
  | succ m ih =>
    obtain ⟨hlen, hget⟩ := ih (by omega)
    have htake {i : ℕ} (hi : i < n) : (layer.take n).getD i 0 = layer.getD i 0 := by
      rw [List.getD_eq_getElem?_getD, List.getElem?_take_of_lt hi, ← List.getD_eq_getElem?_getD]
    -- the round reads at or after the node it writes
    have hread (i : ℕ) (hi : m ≤ i) :
        ((List.range m).foldl (merkleWrite keccak256 n) layer).getD i 0 = layer.getD i 0 := by
      rw [hget, if_neg (by omega)]
    have habove := Merkle.getD_above (merkleNode keccak256) (layer.take n) m 0
    rw [List.length_take, Nat.min_eq_left hn, htake (show 2 * m < n by omega)] at habove
    rw [List.range_succ, List.foldl_append, List.foldl_cons, List.foldl_nil, merkleWrite,
      List.length_set, hread (2 * m) (by omega), hread (2 * m + 1) (by omega)]
    refine ⟨hlen, fun j => ?_⟩
    rw [List.getD_eq_getElem?_getD, List.getElem?_set]
    by_cases hj : m = j
    · subst hj
      rw [if_pos rfl, if_pos (by omega), Option.getD_some, if_pos (Nat.lt_succ_self m), habove]
      by_cases hlt : 2 * m + 1 < n
      · rw [if_pos hlt, if_pos hlt, htake hlt]
      · rw [if_neg hlt, if_neg hlt]
    · rw [if_neg hj, ← List.getD_eq_getElem?_getD, hget]
      simp only [show j < m + 1 ↔ j < m by omega]

theorem length_merkleRound {n : ℕ} {layer : List Bytes32} (hn : n ≤ layer.length) :
    (merkleRound keccak256 n layer).length = layer.length := (getD_merkleWrites hn le_rfl).1

theorem merkleRound_take {n : ℕ} {layer : List Bytes32} (hn : n ≤ layer.length) :
    (merkleRound keccak256 n layer).take ((n + 1) / 2) =
      Merkle.above (merkleNode keccak256) (layer.take n) := by
  have hlen : (merkleRound keccak256 n layer).length = layer.length := length_merkleRound hn
  have habove : (Merkle.above (merkleNode keccak256) (layer.take n)).length = (n + 1) / 2 := by
    rw [Merkle.length_above, List.length_take, Nat.min_eq_left hn]
  refine List.ext_getElem ?_ fun j hj hj' => ?_
  · rw [habove, List.length_take]
    omega
  · have hget : (merkleRound keccak256 n layer).getD j 0 = _ := (getD_merkleWrites hn le_rfl).2 j
    rw [if_pos (habove ▸ hj'), List.getD_eq_getElem _ _ (by omega),
      List.getD_eq_getElem _ _ hj'] at hget
    rw [List.getElem_take]
    exact hget

theorem merkleLoop_eq {n : ℕ} {layer : List Bytes32} (h0 : 0 < n) (hn : n ≤ layer.length) :
    some (merkleLoop keccak256 n layer) = Merkle.root (merkleNode keccak256) (layer.take n) := by
  induction n using Nat.strong_induction_on generalizing layer with
  | _ n ih =>
    have hlen : (layer.take n).length = n := by rw [List.length_take, Nat.min_eq_left hn]
    rw [merkleLoop, Merkle.root, hlen]
    by_cases h1 : n > 1
    · have hround : (n + 1) / 2 ≤ (merkleRound keccak256 n layer).length := by
        rw [length_merkleRound hn]
        omega
      rw [if_pos h1, if_neg (by omega), ih _ (by omega) (by omega) hround, merkleRound_take hn]
    · obtain rfl : n = 1 := by omega
      rw [if_neg h1, if_pos le_rfl, List.head?_take, if_neg one_ne_zero, List.head?_eq_getElem?,
        List.getD_eq_getElem?_getD, List.getElem?_eq_getElem (by omega), Option.getD_some]

/-- The root computed in place is that of the tree. -/
theorem merkleRoot_eq {layer : List Bytes32} (h : layer ≠ []) :
    some (merkleRoot keccak256 layer) = Merkle.root (merkleNode keccak256) layer := by
  rw [merkleRoot, merkleLoop_eq (List.length_pos_iff.mpr h) le_rfl, List.take_length]

end

/-! ## Encodings -/

theorem uint64Bytes_injective : Function.Injective uint64Bytes := by
  intro x y h
  have hbyte : ∀ i < 8, x.extractLsb' (8 * i) 8 = y.extractLsb' (8 * i) 8 := by
    intro i hi
    have hget := congrArg (fun l => l[7 - i]?) h
    have hi' : 7 - i < 8 := by omega
    have hsub : 7 - (7 - i) = i := by omega
    simpa [uint64Bytes, hi', hsub] using hget
  exact eq_of_bytes rfl hbyte

theorem nodeInput_inj {left right left' right' : Bytes32}
    (h : nodeInput left right = nodeInput left' right') : left = left' ∧ right = right' := by
  obtain ⟨hleft, hright⟩ := List.append_inj h (by simp)
  exact ⟨wordBytes_injective hleft, wordBytes_injective hright⟩

/-- Lists of hashes of inputs that do not collide. -/
theorem map_injOn {α β : Type*} {f : α → β} {S : Set α} (hinj : Set.InjOn f S) :
    ∀ {l l' : List α}, (∀ x ∈ l, x ∈ S) → (∀ x ∈ l', x ∈ S) → l.map f = l'.map f → l = l'
  | [], [], _, _, _ => rfl
  | [], _ :: _, _, _, h => by cases h
  | _ :: _, [], _, _, h => by cases h
  | x :: l, x' :: l', hS, hS', h => by
    simp only [List.forall_mem_cons] at hS hS'
    obtain ⟨hx, hl⟩ := List.cons_eq_cons.mp h
    rw [hinj hS.1 hS'.1 hx, map_injOn hinj hS.2 hS'.2 hl]

/-! ## Roles -/

section

variable {keccak256 sha256 : Bytes → Bytes32} {v : BaseVerifier} {roleOfField : List UInt8}

theorem seeRole_eq_ok {seen out : Uint256} {i : ℕ} : v.seeRole roleOfField seen i = .ok out ↔
    (roleOfField.getD i 0).toNat < v.COMMITMENTS ∧
      out = seen ||| (1 : Uint256) <<< (roleOfField.getD i 0).toNat := by
  simp only [BaseVerifier.seeRole, bind_eq_ok, ensure_eq_ok, exists_const, Except.ok.injEq, not_le,
    ge_iff_le]
  exact and_congr_right fun _ => eq_comm

/-- A bit that a walk over fields sets is the role of a field. -/
theorem foldlM_seeRole {fields : List ℕ} {seen out : Uint256}
    (h : fields.foldlM (v.seeRole roleOfField) seen = .ok out) :
    (∀ i ∈ fields, (roleOfField.getD i 0).toNat < v.COMMITMENTS) ∧
      ∀ r, out.getLsbD r = true →
        seen.getLsbD r = true ∨ ∃ i ∈ fields, (roleOfField.getD i 0).toNat = r := by
  induction fields generalizing seen with
  | nil =>
    obtain rfl := Except.ok.inj h
    exact ⟨by simp, fun r hr => .inl hr⟩
  | cons i fields ih =>
    rw [List.foldlM_cons, bind_eq_ok] at h
    obtain ⟨next, hnext, hrest⟩ := h
    obtain ⟨hrole, rfl⟩ := seeRole_eq_ok.mp hnext
    obtain ⟨hroles, hbits⟩ := ih hrest
    refine ⟨List.forall_mem_cons.mpr ⟨hrole, hroles⟩, fun r hr => ?_⟩
    rcases hbits r hr with hseen | ⟨j, hj, hjr⟩
    · rw [BitVec.getLsbD_or, Bool.or_eq_true, show (1 : Uint256) <<< _ = BitVec.twoPow 256 _ from
        (BitVec.twoPow_eq _ _).symm, BitVec.getLsbD_twoPow] at hseen
      rcases hseen with hseen | hbit
      · exact .inl hseen
      · exact .inr ⟨i, List.mem_cons_self, (by simpa using hbit : _ ∧ _).2⟩
    · exact .inr ⟨j, List.mem_cons_of_mem i hj, hjr⟩

/-- If all bits are set then the fields are a permutation of the roles. -/
theorem perm_of_seenRoles (hn : v.COMMITMENTS ≤ MAX_COMMITMENTS)
    (hlen : roleOfField.length = v.COMMITMENTS)
    (h : v.seenRoles roleOfField = .ok ((1 : Uint256) <<< v.COMMITMENTS - 1)) :
    (roleOfField.map UInt8.toNat).Perm (List.range v.COMMITMENTS) := by
  obtain ⟨-, hbits⟩ := foldlM_seeRole h
  have hset : ∀ n ≤ MAX_COMMITMENTS, ∀ r < n, ((1 : Uint256) <<< n - 1).getLsbD r = true := by
    decide
  have hsub : List.range v.COMMITMENTS ⊆ roleOfField.map UInt8.toNat := by
    intro r hr
    rcases hbits r (hset _ hn r (List.mem_range.mp hr)) with h0 | ⟨i, hi, rfl⟩
    · simp at h0
    · rw [List.getD_eq_getElem _ _ (hlen ▸ List.mem_range.mp hi)]
      exact List.mem_map_of_mem (List.getElem_mem _)
  refine ((List.subperm_of_subset List.nodup_range hsub).perm_of_length_le ?_).symm
  rw [List.length_map, List.length_range, hlen]

/-! ## What is accepted -/

variable (keccak256) in
/-- What is hashed with Keccak-256 for an attestation, save the constant texts. -/
def Attestation.keccakInputs (a : Attestation) (v : BaseVerifier) (policyId : Bytes32) :
    List Bytes :=
  [a.header, identityInput keccak256 v (keccak256 a.header) policyId, a.verifyingKey,
    a.structure_] ++ a.prefixes ++ a.leafInputs v.COMMITMENTS ++
  (Merkle.pairs (merkleNode keccak256) (a.leaves keccak256 v.COMMITMENTS)).map
    fun p => nodeInput p.1 p.2

/-- What is hashed with SHA-256. -/
def Attestation.sha256Inputs (a : Attestation) (requestLine : Bytes) : List Bytes :=
  [requestLine ++ a.requestBlinder, a.structure_ ++ a.structureBlinder]

variable (keccak256 sha256 v) in
/-- What the check leaves of an attestation: its root is in the header, every role has one field and
its prefix, and the request line and the structure open their commitments. -/
structure Attestation.Accepted (a : Attestation) (requestLine : Bytes) : Prop where
  root : headerRoot a.header = .ok (merkleRoot keccak256 (a.leaves keccak256 v.COMMITMENTS))
  prefixes : a.prefixes.length = v.COMMITMENTS
  hashes : a.hashes.length = v.COMMITMENTS
  fields : a.roleOfField.length = v.COMMITMENTS
  roles : v.seenRoles a.roleOfField = .ok ((1 : Uint256) <<< v.COMMITMENTS - 1)
  prefixHash : ∀ r < v.COMMITMENTS, keccak256 (a.prefixes.getD r []) = v.prefixHash r
  request : sha256 (requestLine ++ a.requestBlinder) = a.hashes.getD ROLE_REQUEST 0
  structureHash : keccak256 a.structure_ = v.STRUCTURE_HASH
  structure_ : sha256 (a.structure_ ++ a.structureBlinder) = a.hashes.getD ROLE_STRUCTURE 0

variable {ecrecover : Bytes32 → UInt8 → Bytes32 → Bytes32 → Address} {b : Block}
  {a a' : Attestation} {requestLine requestLine' : Bytes} {policyId : Bytes32}

theorem accepted_of_check
    (h : v.checkAttestation keccak256 sha256 ecrecover b a requestLine policyId = .ok ()) :
    a.Accepted keccak256 sha256 v requestLine := by
  simp only [BaseVerifier.checkAttestation, bind_eq_ok, ensure_eq_ok, exists_const, forM_eq_ok,
    List.mem_range] at h
  obtain ⟨-, root, hroot, _, -, -, _, -, -, -, _, -, ⟨hpres, hhashes, hfields⟩, seen, hseen, rfl,
    hpre, hrequest, ⟨hstructureHash, hstructure⟩, rfl⟩ := h
  exact ⟨hroot, hpres, hhashes, hfields, hseen, hpre, hrequest, hstructureHash, hstructure⟩

theorem prefixHash_new {config : BaseConfig} (h : BaseVerifier.new config = .ok v) :
    config.prefixHashes.length = v.COMMITMENTS ∧ v.COMMITMENTS ≤ MAX_COMMITMENTS ∧
      ∀ r < v.COMMITMENTS, v.prefixHash r = config.prefixHashes.getD r 0 := by
  simp only [BaseVerifier.new, bind_eq_ok, ensure_eq_ok, exists_const, Except.ok.injEq] at h
  obtain ⟨hn, rfl⟩ := h
  have hmax : config.prefixHashes.length ≤ 6 := not_lt.mp (not_or.mp hn).2
  refine ⟨rfl, hmax, fun r hr => ?_⟩
  have hr : r < config.prefixHashes.length := hr
  have hr6 : r < 6 := by omega
  unfold BaseVerifier.prefixHash
  interval_cases r <;> simp [hr]

theorem prefixHash_inj {config : BaseConfig} (hnew : BaseVerifier.new config = .ok v)
    (hdistinct : config.prefixHashes.Nodup) {r r' : ℕ} (hr : r < v.COMMITMENTS)
    (hr' : r' < v.COMMITMENTS) (h : v.prefixHash r = v.prefixHash r') : r = r' := by
  obtain ⟨hlength, -, hpre⟩ := prefixHash_new hnew
  rw [hpre r hr, hpre r' hr', List.getD_eq_getElem _ _ (hlength ▸ hr),
    List.getD_eq_getElem _ _ (hlength ▸ hr')] at h
  exact (List.Nodup.getElem_inj_iff hdistinct).mp h

theorem commitmentLeaf_inj {r r' : ℕ} (h : a.commitmentLeaf r = a'.commitmentLeaf r') :
    a.prefixes.getD r [] = a'.prefixes.getD r' [] ∧ a.hashes.getD r 0 = a'.hashes.getD r' 0 := by
  obtain ⟨hfront, hhash⟩ := List.append_inj' h (by simp)
  obtain ⟨hdomain, -⟩ := List.append_inj' hfront rfl
  exact ⟨List.append_cancel_left hdomain, wordBytes_injective hhash⟩

section

variable {S : Set Bytes}

theorem mem_of_keccakInputs (h : ∀ z ∈ a.keccakInputs keccak256 v policyId, z ∈ S) :
    a.structure_ ∈ S ∧ (∀ z ∈ a.prefixes, z ∈ S) ∧ (∀ z ∈ a.leafInputs v.COMMITMENTS, z ∈ S) ∧
      ∀ p ∈ Merkle.pairs (merkleNode keccak256) (a.leaves keccak256 v.COMMITMENTS),
        nodeInput p.1 p.2 ∈ S := by
  simp only [Attestation.keccakInputs, List.forall_mem_append, List.forall_mem_cons,
    List.forall_mem_map] at h
  obtain ⟨⟨⟨⟨-, -, -, hstructure, -⟩, hpres⟩, hleaves⟩, hpairs⟩ := h
  exact ⟨hstructure, hpres, hleaves, hpairs⟩

/-- With the same root, the same is hashed for the leaves. -/
theorem leafInputs_eq (hS : Set.InjOn keccak256 S) (acc : a.Accepted keccak256 sha256 v requestLine)
    (acc' : a'.Accepted keccak256 sha256 v requestLine') (hheader : a.header = a'.header)
    (hleaves : ∀ z ∈ a.leafInputs v.COMMITMENTS, z ∈ S)
    (hleaves' : ∀ z ∈ a'.leafInputs v.COMMITMENTS, z ∈ S)
    (hpairs : ∀ p ∈ Merkle.pairs (merkleNode keccak256) (a.leaves keccak256 v.COMMITMENTS),
      nodeInput p.1 p.2 ∈ S)
    (hpairs' : ∀ p ∈ Merkle.pairs (merkleNode keccak256) (a'.leaves keccak256 v.COMMITMENTS),
      nodeInput p.1 p.2 ∈ S) :
    a.leafInputs v.COMMITMENTS = a'.leafInputs v.COMMITMENTS := by
  have hnode : Set.InjOn (fun p : Bytes32 × Bytes32 => merkleNode keccak256 p.1 p.2)
      {p | nodeInput p.1 p.2 ∈ S} := by
    rintro ⟨l, r⟩ hp ⟨l', r'⟩ hp' heq
    obtain ⟨rfl, rfl⟩ := nodeInput_inj (hS hp hp' heq)
    rfl
  have hroot := acc.root
  rw [hheader, acc'.root, Except.ok.injEq] at hroot
  have hlen : (a.leaves keccak256 v.COMMITMENTS).length =
      (a'.leaves keccak256 v.COMMITMENTS).length := by
    simp [Attestation.leaves, Attestation.leafInputs]
  have hne (x : Attestation) : x.leaves keccak256 v.COMMITMENTS ≠ [] := by
    simp [Attestation.leaves, Attestation.leafInputs]
  have hleaf := Merkle.root_inj hnode hlen hpairs hpairs' (by
    rw [← merkleRoot_eq (hne a), ← merkleRoot_eq (hne a'), hroot])
  exact map_injOn hS hleaves hleaves' hleaf

theorem prefixes_eq (hS : Set.InjOn keccak256 S)
    (acc : a.Accepted keccak256 sha256 v requestLine)
    (acc' : a'.Accepted keccak256 sha256 v requestLine') (h : ∀ z ∈ a.prefixes, z ∈ S)
    (h' : ∀ z ∈ a'.prefixes, z ∈ S) : a.prefixes = a'.prefixes := by
  refine List.ext_getElem (acc.prefixes.trans acc'.prefixes.symm) fun r hr hr' => ?_
  have hn : r < v.COMMITMENTS := acc.prefixes ▸ hr
  have heq := (acc.prefixHash r hn).trans (acc'.prefixHash r hn).symm
  rw [List.getD_eq_getElem _ _ hr, List.getD_eq_getElem _ _ hr'] at heq
  exact hS (h _ (List.getElem_mem hr)) (h' _ (List.getElem_mem hr')) heq

end

/-- The leaves of the commitments have the same role and hash. -/
theorem fields_eq {config : BaseConfig} (hnew : BaseVerifier.new config = .ok v)
    (hdistinct : config.prefixHashes.Nodup) (acc : a.Accepted keccak256 sha256 v requestLine)
    (acc' : a'.Accepted keccak256 sha256 v requestLine')
    (hfields : ∀ i < v.COMMITMENTS, a.commitmentLeaf (a.roleOfField.getD i 0).toNat =
      a'.commitmentLeaf (a'.roleOfField.getD i 0).toNat) :
    a.roleOfField = a'.roleOfField ∧ a.hashes = a'.hashes := by
  obtain ⟨-, hmax, -⟩ := prefixHash_new hnew
  obtain ⟨hrole, -⟩ := foldlM_seeRole acc.roles
  obtain ⟨hrole', -⟩ := foldlM_seeRole acc'.roles
  have hsame : ∀ i < v.COMMITMENTS, a.roleOfField.getD i 0 = a'.roleOfField.getD i 0 := by
    intro i hi
    have hr := hrole i (List.mem_range.mpr hi)
    have hr' := hrole' i (List.mem_range.mpr hi)
    have heq := congrArg keccak256 (commitmentLeaf_inj (hfields i hi)).1
    rw [acc.prefixHash _ hr, acc'.prefixHash _ hr'] at heq
    exact UInt8.toNat_inj.mp (prefixHash_inj hnew hdistinct hr hr' heq)
  refine ⟨List.ext_getElem (acc.fields.trans acc'.fields.symm) fun i hi hi' => ?_,
    List.ext_getElem (acc.hashes.trans acc'.hashes.symm) fun r hr hr' => ?_⟩
  · have heq := hsame i (acc.fields ▸ hi)
    rwa [List.getD_eq_getElem _ _ hi, List.getD_eq_getElem _ _ hi'] at heq
  · -- every role has a field
    have hseen := (perm_of_seenRoles hmax acc.fields acc.roles).mem_iff.mpr
      (List.mem_range.mpr (acc.hashes ▸ hr))
    obtain ⟨role, hmem, rfl⟩ := List.mem_map.mp hseen
    obtain ⟨i, hi, rfl⟩ := List.mem_iff_getElem.mp hmem
    have hn : i < v.COMMITMENTS := acc.fields ▸ hi
    have heq := (commitmentLeaf_inj (hfields i hn)).2
    rw [← hsame i hn, List.getD_eq_getElem _ _ hi] at heq
    rwa [List.getD_eq_getElem _ _ hr, List.getD_eq_getElem _ _ hr'] at heq

/-- **Binding.** As long as nothing that is hashed collides and the prefixes of the roles differ,
what is accepted with a header is a function of it: the order of the roles, the body fields, the
commitment of every role, and what the revealed commitments open to. -/
theorem accepted_by_header {config : BaseConfig} (hnew : BaseVerifier.new config = .ok v)
    (hdistinct : config.prefixHashes.Nodup) {S T : Set Bytes} (hS : Set.InjOn keccak256 S)
    (hT : Set.InjOn sha256 T) {b' : Block} {policyId' : Bytes32}
    (h : v.checkAttestation keccak256 sha256 ecrecover b a requestLine policyId = .ok ())
    (h' : v.checkAttestation keccak256 sha256 ecrecover b' a' requestLine' policyId' = .ok ())
    (hkeccak : ∀ z ∈ a.keccakInputs keccak256 v policyId, z ∈ S)
    (hkeccak' : ∀ z ∈ a'.keccakInputs keccak256 v policyId', z ∈ S)
    (hsha : ∀ z ∈ a.sha256Inputs requestLine, z ∈ T)
    (hsha' : ∀ z ∈ a'.sha256Inputs requestLine', z ∈ T) (hheader : a.header = a'.header) :
    (a.roleOfField.map UInt8.toNat).Perm (List.range v.COMMITMENTS) ∧
    a.roleOfField = a'.roleOfField ∧ a.tAtt = a'.tAtt ∧ a.verifyingKey = a'.verifyingKey ∧
    a.connectionInfo = a'.connectionInfo ∧ a.serverEphemeralKey = a'.serverEphemeralKey ∧
    a.certCommitment = a'.certCommitment ∧ a.hashes = a'.hashes ∧ a.prefixes = a'.prefixes ∧
    a.structure_ = a'.structure_ ∧ a.requestBlinder = a'.requestBlinder ∧
    a.structureBlinder = a'.structureBlinder ∧ requestLine = requestLine' := by
  obtain ⟨hlength, hmax, hpre⟩ := prefixHash_new hnew
  have acc := accepted_of_check h
  have acc' := accepted_of_check h'
  obtain ⟨hstructure, hpres, hleaves, hpairs⟩ := mem_of_keccakInputs hkeccak
  obtain ⟨hstructure', hpres', hleaves', hpairs'⟩ := mem_of_keccakInputs hkeccak'
  have hinputs := leafInputs_eq hS acc acc' hheader hleaves hleaves' hpairs hpairs'
  obtain ⟨hbody, hcommitments⟩ := List.append_inj hinputs rfl
  simp only [List.cons.injEq, List.append_cancel_left_eq, and_true] at hbody
  obtain ⟨hkey, hconnection, hephemeral, hcert, htime⟩ := hbody
  have hfields : ∀ i < v.COMMITMENTS, a.commitmentLeaf (a.roleOfField.getD i 0).toNat =
      a'.commitmentLeaf (a'.roleOfField.getD i 0).toNat := fun i hi =>
    List.map_inj_left.mp hcommitments i (List.mem_range.mpr hi)
  obtain ⟨hroles, hhashes⟩ := fields_eq hnew hdistinct acc acc' hfields
  have hlines : requestLine ++ a.requestBlinder = requestLine' ++ a'.requestBlinder :=
    hT (hsha _ (by simp [Attestation.sha256Inputs])) (hsha' _ (by simp [Attestation.sha256Inputs]))
      (by rw [acc.request, acc'.request, hhashes])
  obtain ⟨hline, hblinder⟩ := List.append_inj' hlines (by rw [a.requestBlinder.2, a'.requestBlinder.2])
  have hstructures : a.structure_ ++ a.structureBlinder = a'.structure_ ++ a'.structureBlinder :=
    hT (hsha _ (by simp [Attestation.sha256Inputs])) (hsha' _ (by simp [Attestation.sha256Inputs]))
      (by rw [acc.structure_, acc'.structure_, hhashes])
  obtain ⟨hstruct, hblinder'⟩ :=
    List.append_inj' hstructures (by rw [a.structureBlinder.2, a'.structureBlinder.2])
  exact ⟨perm_of_seenRoles hmax acc.fields acc.roles, hroles, uint64Bytes_injective htime, hkey,
    hconnection, hephemeral, hcert, hhashes, prefixes_eq hS acc acc' hpres hpres', hstruct,
    Subtype.ext hblinder, Subtype.ext hblinder', hline⟩

end

/-! ## An attestation of an income -/

namespace Vectors

/-- The attestation of `test/baseline/fixtures/apply.json`. -/
def sessionAttestation : Attestation where
  header :=
    bytesOf 40 0xf6e583499d6bde2db00a30835dd7e988000000000320d1c3964fdd58be32357ecd4aaaf062ed41a6 ++
    bytesOf 14 0xe2a44c9e2664f3d58f7787f6a032
  signature :=
    bytesOf 40 0x49c0add94791d68953cfe6806d7b1e6005daec6e64a77e050d4542ad05b45d8d75c7740dc732e55f ++
    bytesOf 25 0x60acfc2565f5094f90a4188ef75b8bc5ca9a068529fae2401c
  verifyingKey :=
    bytesOf 35 0x012102989c0b76cb563971fdc9bef31ec06c3560f3249d6ee9e5d83c57625596e05f6f
  connectionInfo := bytesOf 17 0xbabdd86a00000000009e000000aa000000
  serverEphemeralKey :=
    bytesOf 40 0x004104d761eb1cbdcc1ee1a0eee6ff04d0085276d17b533ff46b66028c85edd7014a598abfa27db7 ++
    bytesOf 27 0xb62744072372ee285c87b47c2dfd9290de88b5e51e92646d2e94fd
  certCommitment :=
    bytesOf 34 0x0320b6a8d065ae9be5177d315f696bcd0aafa33aa55b136dd62158a15afc06876b92
  tAtt := 1792589242
  prefixes := [
    bytesOf 40 0x00010500000000000000000f0000000000000011000000000000002f000000000000005b00000000 ++
    bytesOf 40 0x00000065000000000000007800000000000000810000000000000082000000000000009200000000 ++
    bytesOf 3 0x000000,
    bytesOf 19 0x00000100000000000000001400000000000000,
    bytesOf 19 0x00010166000000000000007600000000000000,
    bytesOf 19 0x0001019300000000000000a700000000000000]
  hashes := [
    0x85b1823fa188a0c3331311c7a70b173d801b3de26f56c4e3114a131ae2224563,
    0xe331c316cc44e674f1c9a2da1b76a26eab377fb8ed086f7004f645c30319106b,
    0x89a658c7a8e04cbbf4c21329fc978d48bd479815dee3e9492839a2cd6796113d,
    0x9e73197a1936e25b582920b63d519e8b70cdc980963eb1ebf913e41516638d6a]
  roleOfField := [1, 3, 2, 0]
  requestBlinder := ⟨bytesOf 16 0x71b6dcd19ac6b8a54e20de6030a40d66, rfl⟩
  structure_ := utf8 ("HTTP/1.1 200 OKContent-Type: application/json" ++
    "\"account\":\"record\":\"monthlyIncome\":")
  structureBlinder := ⟨bytesOf 16 0xaa97b1d410e2879bd62b4a8e3f5968b2, rfl⟩
  identitySignature :=
    bytesOf 40 0x2599016257471c0c8cdf9a13085d9d3b864ca6a8debe1c13a9459752f5614ee01d0d6f0a4a1922df ++
    bytesOf 25 0x7c1555daa969246987382cb6a31413f24763520725ec4e1d1c

def sessionConfig : BaseConfig where
  notary := 0x4a62316623ad457f02cdc5d997ded67a383ec569
  identityAttestor := 0x58da990a8f4a3a6ca7cb6315d68a140105917352
  policyId := policyIdA
  verifyingKeyHash := 0x70612838f85a7d0b711b8ecc9d8f32efd1d7af77546ed91ac9c5ae0c39d2cc0a
  serverNameHash := 0xde36adcdf72c496a51d774f8b08357566aac482a7829d674da947caea81ffb31
  structureHash := 0x74cc37edf2a3722f2e9065dc06cd6be677ceed8022c92475734858c4daefe066
  prefixHashes := [
    0xefd2604fa3f642935662dd754e2e1818f84314e1140c24d0a2deecc21196bb57,
    0xf337cdbf9da945ed6bd82b72d2aa14f781f6df79de992ad27c7af14574016d20,
    0x265dfab950cc568d71aad67d30aee25628fae2e195c1da2683edcc1645bdd07f,
    0xc9dde73fc5fe585e7bd67679be6e91720635689a90a1a00c490d07ab12c4fb2d]
  receivedLength := 170
  delta := 300
  maxSessionSecs := 120

def sessionVerifier : BaseVerifier where
  NOTARY := sessionConfig.notary
  IDENTITY_ATTESTOR := sessionConfig.identityAttestor
  POLICY_ID := sessionConfig.policyId
  VERIFYING_KEY_HASH := sessionConfig.verifyingKeyHash
  SERVER_NAME_HASH := sessionConfig.serverNameHash
  STRUCTURE_HASH := sessionConfig.structureHash
  COMMITMENTS := 4
  PREFIX_HASH_0 := 0xefd2604fa3f642935662dd754e2e1818f84314e1140c24d0a2deecc21196bb57
  PREFIX_HASH_1 := 0xf337cdbf9da945ed6bd82b72d2aa14f781f6df79de992ad27c7af14574016d20
  PREFIX_HASH_2 := 0x265dfab950cc568d71aad67d30aee25628fae2e195c1da2683edcc1645bdd07f
  PREFIX_HASH_3 := 0xc9dde73fc5fe585e7bd67679be6e91720635689a90a1a00c490d07ab12c4fb2d
  PREFIX_HASH_4 := 0
  PREFIX_HASH_5 := 0
  RECEIVED_LENGTH := sessionConfig.receivedLength
  DELTA := sessionConfig.delta
  MAX_SESSION_SECS := sessionConfig.maxSessionSecs

/-- The Keccak-256 hashes of what is hashed for the attestation, its tree at the end. -/
def sessionHashes : List (Bytes × Bytes32) :=
  let a := sessionAttestation
  [(utf8 "PPREV.identity.v1", 0xfd05d0d34701b86b2b760278f44a8bfdc013ca4460aa6d6883333d018e62face),
    (a.header, 0xd483a04de148cc5c56ce49bdc2d851fa215f906b26b1ca76b5a238bb51294299),
    (abiEncode [
        0xfd05d0d34701b86b2b760278f44a8bfdc013ca4460aa6d6883333d018e62face,
        0xd483a04de148cc5c56ce49bdc2d851fa215f906b26b1ca76b5a238bb51294299,
        wordOfAddress sessionConfig.notary, sessionConfig.serverNameHash, policyIdA],
      0x311daefc904028670ce3e9a7a79a3609bd6bdb6c1524967f491e28a728d268f5),
    (a.verifyingKey, sessionConfig.verifyingKeyHash), (a.structure_, sessionConfig.structureHash)] ++
  a.prefixes.zip sessionConfig.prefixHashes ++
  (a.leafInputs 4).zip [
    0x1f155bc8dffb00fc571f2a4590d0ae8c66173c1d7873ac38f8416b376811b3c2,
    0xdd2c9d6224f2f141db0657f0c454d689850cf7bb4b5693cec03ef1b3fd1919b5,
    0xee3be790b3e332e9aa1bac39892530a289d64fdab487e3a80a83b6f6785d6fae,
    0xccb5e884f6425b79f88514376ab5146caaea71a801a476a56f14cd1fd9635f00,
    0x3f7ff38f87d0f006ce72005c1dc89bc1fe7f3e2a2625944073e30e8e0ca35154,
    0xbabf0bf01583f892eb138cf0eb8034656620c2e61b7d47399be5090708c6e2aa,
    0x6bcd06757b2492d651d200de14f5f7f0f0f976cfe0e3b8420ae8640ba54aaec6,
    0xa1c1df0db272bf74547111d61257df73dc05e6a7055e78d598ae993d13f116ca,
    0xf07062be95cf2d1a6dca120f389a9aaa19b9f133edea7ee85fdcbfdb4cbf8b3b] ++
  [
    (nodeInput 0x1f155bc8dffb00fc571f2a4590d0ae8c66173c1d7873ac38f8416b376811b3c2
      0xdd2c9d6224f2f141db0657f0c454d689850cf7bb4b5693cec03ef1b3fd1919b5,
      0x43686d5f68da7ace9efb22f390ba6aab5fd531ea917639b57474e732e0fa27ae),
    (nodeInput 0xee3be790b3e332e9aa1bac39892530a289d64fdab487e3a80a83b6f6785d6fae
      0xccb5e884f6425b79f88514376ab5146caaea71a801a476a56f14cd1fd9635f00,
      0xc80123905b39a235696d4fcdb51300ca2370d43808e3773a06e4f315a6865cc9),
    (nodeInput 0x3f7ff38f87d0f006ce72005c1dc89bc1fe7f3e2a2625944073e30e8e0ca35154
      0xbabf0bf01583f892eb138cf0eb8034656620c2e61b7d47399be5090708c6e2aa,
      0xcdc485ae81fc008e1457b43046731f45ff31a444111186b763dc80d75218c111),
    (nodeInput 0x6bcd06757b2492d651d200de14f5f7f0f0f976cfe0e3b8420ae8640ba54aaec6
      0xa1c1df0db272bf74547111d61257df73dc05e6a7055e78d598ae993d13f116ca,
      0xbfd357d2cbf7d9e63b01ff24e224bb47d7b2123bd54c5fb944b5227bea38831f),
    (nodeInput 0x43686d5f68da7ace9efb22f390ba6aab5fd531ea917639b57474e732e0fa27ae
      0xc80123905b39a235696d4fcdb51300ca2370d43808e3773a06e4f315a6865cc9,
      0x79aa43cd2a6ff445c914903383bed0c471944e4b82daea0c6dcc600dac67ec34),
    (nodeInput 0xcdc485ae81fc008e1457b43046731f45ff31a444111186b763dc80d75218c111
      0xbfd357d2cbf7d9e63b01ff24e224bb47d7b2123bd54c5fb944b5227bea38831f,
      0x76db12a0948591122114461892468b87e6df8b568d9ecfea6042cd7dcf39bbff),
    (nodeInput 0x79aa43cd2a6ff445c914903383bed0c471944e4b82daea0c6dcc600dac67ec34
      0x76db12a0948591122114461892468b87e6df8b568d9ecfea6042cd7dcf39bbff,
      0x8c8790b1dcc5f7b6e2581d991f5afc90db9f6989943eac2a820cf595fff28e7a),
    (nodeInput 0x8c8790b1dcc5f7b6e2581d991f5afc90db9f6989943eac2a820cf595fff28e7a
      0xf07062be95cf2d1a6dca120f389a9aaa19b9f133edea7ee85fdcbfdb4cbf8b3b,
      0xd1c3964fdd58be32357ecd4aaaf062ed41a6e2a44c9e2664f3d58f7787f6a032)]

def sessionKeccak (x : Bytes) : Bytes32 := (sessionHashes.lookup x).getD 0

/-- SHA-256 of the request line and of the structure, each with its blinder. -/
def sessionOpenings : List (Bytes × Bytes32) :=
  let a := sessionAttestation
  [(utf8 "GET /income HTTP/1.1" ++ a.requestBlinder, a.hashes.getD ROLE_REQUEST 0),
    (a.structure_ ++ a.structureBlinder, a.hashes.getD ROLE_STRUCTURE 0)]

def sessionOpen (x : Bytes) : Bytes32 := (sessionOpenings.lookup x).getD 0

/-- The signers of the header and of the identity. -/
def sessionRecover (digest : Bytes32) (v : UInt8) (r s : Bytes32) : Address :=
  if digest = 0xd483a04de148cc5c56ce49bdc2d851fa215f906b26b1ca76b5a238bb51294299 ∧ v = 28 ∧
      r = 0x49c0add94791d68953cfe6806d7b1e6005daec6e64a77e050d4542ad05b45d8d ∧
      s = 0x75c7740dc732e55f60acfc2565f5094f90a4188ef75b8bc5ca9a068529fae240 then
    sessionConfig.notary
  else if digest = 0x311daefc904028670ce3e9a7a79a3609bd6bdb6c1524967f491e28a728d268f5 ∧
      v = 28 ∧
      r = 0x2599016257471c0c8cdf9a13085d9d3b864ca6a8debe1c13a9459752f5614ee0 ∧
      s = 0x1d0d6f0a4a1922df7c1555daa969246987382cb6a31413f24763520725ec4e1d then
    sessionConfig.identityAttestor
  else 0

/-- The same attestation with the signatures in the other form that is recovered. -/
def sessionResigned : Attestation :=
  { sessionAttestation with
    signature := sessionAttestation.signature.take 64 ++ [1]
    identitySignature := sessionAttestation.identitySignature.take 64 ++ [1] }

theorem session_injOn : Set.InjOn sessionKeccak {z | z ∈ sessionHashes.map Prod.fst} ∧
    Set.InjOn sessionOpen {z | z ∈ sessionOpenings.map Prod.fst} := by
  have hpairs : (∀ x ∈ sessionHashes.map Prod.fst, ∀ y ∈ sessionHashes.map Prod.fst,
        sessionKeccak x = sessionKeccak y → x = y) ∧
      ∀ x ∈ sessionOpenings.map Prod.fst, ∀ y ∈ sessionOpenings.map Prod.fst,
        sessionOpen x = sessionOpen y → x = y := by decide +kernel
  exact ⟨fun x hx y hy => hpairs.1 x hx y hy, fun x hx y hy => hpairs.2 x hx y hy⟩

/-- Both attestations are accepted, and what they hash is in the tables. -/
theorem session_accepted : ∀ a ∈ [sessionAttestation, sessionResigned],
    sessionVerifier.checkAttestation sessionKeccak sessionOpen sessionRecover ⟨1792589252, 31337⟩ a
      (utf8 "GET /income HTTP/1.1") policyIdA = .ok () ∧
    (∀ z ∈ a.keccakInputs sessionKeccak sessionVerifier policyIdA,
      z ∈ sessionHashes.map Prod.fst) ∧
    ∀ z ∈ a.sha256Inputs (utf8 "GET /income HTTP/1.1"), z ∈ sessionOpenings.map Prod.fst := by
  decide +kernel

end Vectors

open Vectors in
/-- An attestation is accepted with its signatures in either form, and is otherwise the same. -/
theorem accepted_by_header_income : sessionAttestation.signature ≠ sessionResigned.signature ∧
    (sessionAttestation.roleOfField.map UInt8.toNat).Perm (List.range 4) ∧
    sessionAttestation.roleOfField = sessionResigned.roleOfField ∧
    sessionAttestation.hashes = sessionResigned.hashes := by
  have hnew : BaseVerifier.new sessionConfig = .ok sessionVerifier := rfl
  obtain ⟨hcheck, hkeccak, hsha⟩ := session_accepted sessionAttestation (by simp)
  obtain ⟨hcheck', hkeccak', hsha'⟩ := session_accepted sessionResigned (by simp)
  obtain ⟨hperm, hroles, -, -, -, -, -, hhashes, -⟩ := accepted_by_header hnew
    (by decide +kernel) session_injOn.1 session_injOn.2 hcheck hcheck' hkeccak hkeccak' hsha hsha'
    rfl
  exact ⟨by decide +kernel, hperm, hroles, hhashes⟩

end Pprev
