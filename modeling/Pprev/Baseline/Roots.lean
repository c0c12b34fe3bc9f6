import Pprev.Baseline.Binding
import Pprev.Data.Runs

/-!
# Two ways to a Merkle root

The function `merkle_root` of `e1.rs`, which builds every layer afresh, beside the contract's
`_merkleRoot`, which overwrites the layer in place: both end with the root of the tree.
-/

namespace Pprev

open Evm Slice

/-! ## The function of the prover -/

namespace E1

inductive TreeError where
  /-- an error, with its message -/
  | error (text : String)
  /-- a panic, with its message -/
  | panic (text : String)
  deriving DecidableEq

section

variable (keccak256 : Bytes → Bytes32)

/-- The node above a chunk of a layer. -/
def parent : List Bytes32 → Except TreeError Bytes32
  | [left, right] => .ok (keccak256 [wordBytes left, wordBytes right].flatten)
  | [single] => .ok single
  | _ => .error (.panic "chunks of two")

/-- The layer above. -/
def nextLayer (layer : List Bytes32) : Except TreeError (List Bytes32) :=
  (chunks 2 layer).mapM (parent keccak256)

variable {keccak256}

theorem nextLayer_eq (layer : List Bytes32) :
    nextLayer keccak256 layer = .ok (Merkle.above (merkleNode keccak256) layer) := by
  induction layer using Merkle.above.induct with
  | case1 => simp [nextLayer, Merkle.above, pure, Except.pure]
  | case2 x =>
    simp [nextLayer, chunks_eq, parent, Merkle.above, bind, Except.bind, pure, Except.pure]
  | case3 x y layer ih =>
    rw [nextLayer] at ih
    rw [nextLayer, chunks_eq (by decide) (by simp), Merkle.above, List.mapM_cons]
    simp only [List.take_succ_cons, List.take_zero, List.drop_succ_cons, List.drop_zero, ih]
    simp [parent, merkleNode, nodeInput, bind, Except.bind, pure, Except.pure]

variable (keccak256)

/-- The loop, and the node that it leaves. -/
def merkleLoop (layer : List Bytes32) : Except TreeError Bytes32 :=
  if layer.length > 1 then
    match _h : nextLayer keccak256 layer with
    | .error e => .error e
    | .ok next => merkleLoop next
  else
    match layer with
    | [] => .error (.panic "index out of bounds: the len is 0 but the index is 0")
    | root :: _ => .ok root
termination_by layer.length
decreasing_by
  rw [nextLayer_eq] at _h
  cases _h
  rw [Merkle.length_above]
  omega

def merkleRoot (leaves : List Bytes32) : Except TreeError Bytes32 := do
  ensure (leaves ≠ []) (.error "a tree has at least one leaf")
  merkleLoop keccak256 leaves

/-- A run of the loop over the layer. -/
def MerkleLoop : List Bytes32 → List Bytes32 → Prop :=
  Loop.Ends (fun layer => layer.length > 1) fun layer next => nextLayer keccak256 layer = .ok next

variable {keccak256}

theorem exists_merkleLoop {leaves : List Bytes32} (h : leaves ≠ []) :
    ∃ root, MerkleLoop keccak256 leaves [root] ∧
      Merkle.root (merkleNode keccak256) leaves = some root := by
  have step (layer : List Bytes32) (hinv : layer ≠ [] ∧
      Merkle.root (merkleNode keccak256) layer = Merkle.root (merkleNode keccak256) leaves)
      (hcond : layer.length > 1) : ∃ next, nextLayer keccak256 layer = .ok next ∧
        (next ≠ [] ∧ Merkle.root (merkleNode keccak256) next =
          Merkle.root (merkleNode keccak256) leaves) ∧ next.length < layer.length := by
    have hlength : (Merkle.above (merkleNode keccak256) layer).length = (layer.length + 1) / 2 :=
      Merkle.length_above ..
    refine ⟨_, nextLayer_eq layer, ⟨?_, (Merkle.root_above _ hcond).trans hinv.2⟩, by omega⟩
    exact List.ne_nil_of_length_pos (by omega)
  obtain ⟨layer, hends, hne, hroot⟩ := Loop.exists_ends List.length step ⟨h, rfl⟩
  have hone : ¬layer.length > 1 := hends.not_cond
  have hpos := List.length_pos_iff.mpr hne
  obtain ⟨root, rfl⟩ := List.length_eq_one_iff.mp (show layer.length = 1 by omega)
  exact ⟨root, hends, by rw [← hroot, Merkle.root_singleton]⟩

theorem merkleLoop_singleton (root : Bytes32) : merkleLoop keccak256 [root] = .ok root := by
  rw [merkleLoop.eq_def, if_neg (by simp)]

theorem merkleLoop_turn {layer next : List Bytes32} (hcond : layer.length > 1)
    (hnext : nextLayer keccak256 layer = .ok next) :
    merkleLoop keccak256 layer = merkleLoop keccak256 next := by
  rw [merkleLoop.eq_def, if_pos hcond]
  split
  · simp_all
  · simp_all

theorem merkleRoot_of_loop {leaves : List Bytes32} {root : Bytes32} (h : leaves ≠ [])
    (hends : MerkleLoop keccak256 leaves [root]) : merkleRoot keccak256 leaves = .ok root := by
  have hloop : merkleLoop keccak256 leaves = merkleLoop keccak256 [root] :=
    Loop.Ends.eq hends fun _ _ => merkleLoop_turn
  have hensure : ensure (leaves ≠ []) (TreeError.error "a tree has at least one leaf") = .ok () :=
    ensure_eq_ok.mpr h
  rw [merkleRoot, hensure]
  exact hloop.trans (merkleLoop_singleton root)

end

end E1

/-! ## The function of the contract -/

section

variable (keccak256 : Bytes → Bytes32)

/-- A run of the loop over the number of nodes in use and the array. -/
def MerkleLoop : ℕ × List Bytes32 → ℕ × List Bytes32 → Prop :=
  Loop.Ends (fun s => s.1 > 1) fun s t => t = ((s.1 + 1) / 2, merkleRound keccak256 s.1 s.2)

/-- What is hashed for the root. -/
def nodeInputs (leaves : List Bytes32) : List Bytes :=
  (Merkle.pairs (merkleNode keccak256) leaves).map fun p => nodeInput p.1 p.2

variable {keccak256}

/-- What the loop keeps: the nodes in use are those of a layer of the tree. -/
def InUse (keccak256 : Bytes → Bytes32) (leaves : List Bytes32) (s : ℕ × List Bytes32) : Prop :=
  0 < s.1 ∧ s.1 ≤ s.2.length ∧
    Merkle.root (merkleNode keccak256) (s.2.take s.1) = Merkle.root (merkleNode keccak256) leaves

theorem InUse.turn {leaves : List Bytes32} {s : ℕ × List Bytes32}
    (h : InUse keccak256 leaves s) (hcond : s.1 > 1) :
    InUse keccak256 leaves ((s.1 + 1) / 2, merkleRound keccak256 s.1 s.2) := by
  obtain ⟨hpos, hle, hroot⟩ := h
  refine ⟨show 0 < (s.1 + 1) / 2 by omega, ?_, ?_⟩
  · rw [length_merkleRound hle]
    exact show (s.1 + 1) / 2 ≤ s.2.length by omega
  · rw [merkleRound_take hle, Merkle.root_above, hroot]
    rw [List.length_take, Nat.min_eq_left hle]
    exact hcond

/-- The loop ends with the root at the front of the array, before nodes of earlier layers. -/
theorem exists_merkleLoop {leaves : List Bytes32} (h : leaves ≠ []) :
    ∃ root stale, MerkleLoop keccak256 (leaves.length, leaves) (1, root :: stale) ∧
      Merkle.root (merkleNode keccak256) leaves = some root := by
  have hinit : InUse keccak256 leaves (leaves.length, leaves) :=
    ⟨List.length_pos_iff.mpr h, le_rfl, by rw [List.take_length]⟩
  have step (s : ℕ × List Bytes32) (hinv : InUse keccak256 leaves s) (hcond : s.1 > 1) :
      ∃ t, t = ((s.1 + 1) / 2, merkleRound keccak256 s.1 s.2) ∧ InUse keccak256 leaves t ∧
        t.1 < s.1 :=
    ⟨_, rfl, hinv.turn hcond, show (s.1 + 1) / 2 < s.1 by omega⟩
  obtain ⟨⟨n, layer⟩, hends, hpos, hle, hroot⟩ := Loop.exists_ends Prod.fst step hinit
  have hone : ¬n > 1 := hends.not_cond
  obtain rfl : n = 1 := Nat.le_antisymm (Nat.le_of_not_lt hone) hpos
  match layer, hle with
  | root :: stale, _ =>
    refine ⟨root, stale, hends, ?_⟩
    rw [← hroot]
    exact Merkle.root_singleton ..

/-- As long as nothing that is hashed collides, a root determines the leaves. -/
theorem root_injOn {leaves leaves' : List Bytes32} (hlen : leaves'.length = leaves.length)
    (hinj : Set.InjOn keccak256 {z | z ∈ nodeInputs keccak256 leaves ++
      nodeInputs keccak256 leaves'})
    (h : Merkle.root (merkleNode keccak256) leaves' = Merkle.root (merkleNode keccak256) leaves) :
    leaves' = leaves := by
  have hnode : Set.InjOn (fun p : Bytes32 × Bytes32 => merkleNode keccak256 p.1 p.2)
      {p | nodeInput p.1 p.2 ∈ nodeInputs keccak256 leaves ++ nodeInputs keccak256 leaves'} := by
    rintro ⟨l, r⟩ hp ⟨l', r'⟩ hp' heq
    obtain ⟨rfl, rfl⟩ := nodeInput_inj (hinj hp hp' heq)
    rfl
  exact Merkle.root_inj hnode hlen
    (fun p hp => List.mem_append_right _ (List.mem_map_of_mem hp))
    (fun p hp => List.mem_append_left _ (List.mem_map_of_mem hp)) h

/-- **One root.** The contract and the prover compute the root of the tree in loops that end, and as
long as nothing that is hashed collides, leaves of one number with one root are the same. -/
theorem merkle_roots_agree {leaves : List Bytes32} (h : leaves ≠ []) : ∃ root,
    Merkle.root (merkleNode keccak256) leaves = some root ∧
    merkleRoot keccak256 leaves = root ∧ E1.merkleRoot keccak256 leaves = .ok root ∧
    (∃ stale, MerkleLoop keccak256 (leaves.length, leaves) (1, root :: stale)) ∧
    E1.MerkleLoop keccak256 leaves [root] ∧
    ∀ leaves', leaves'.length = leaves.length →
      Set.InjOn keccak256 {z | z ∈ nodeInputs keccak256 leaves ++ nodeInputs keccak256 leaves'} →
      (merkleRoot keccak256 leaves' = root ∨ E1.merkleRoot keccak256 leaves' = .ok root) →
      leaves' = leaves := by
  obtain ⟨root, hprover, hroot⟩ := E1.exists_merkleLoop h
  obtain ⟨root', stale, hcontract, hroot'⟩ := exists_merkleLoop h
  obtain rfl : root' = root := Option.some.inj (hroot'.symm.trans hroot)
  refine ⟨root', hroot, Option.some.inj ((merkleRoot_eq h).trans hroot),
    E1.merkleRoot_of_loop h hprover, ⟨stale, hcontract⟩, hprover, fun leaves' hlen hinj heq => ?_⟩
  have hne : leaves' ≠ [] :=
    List.ne_nil_of_length_pos (hlen ▸ List.length_pos_iff.mpr h)
  obtain ⟨root₁, hprover₁, hroot₁⟩ := E1.exists_merkleLoop hne
  have hsame : root₁ = root' := by
    rcases heq with heq | heq
    · exact Option.some.inj (hroot₁.symm.trans ((merkleRoot_eq hne).symm.trans (congrArg some heq)))
    · exact Except.ok.inj ((E1.merkleRoot_of_loop hne hprover₁).symm.trans heq)
  exact root_injOn hlen hinj (by rw [hroot₁, hsame, hroot])

end

open Vectors in
/-- The nine leaves of the attestation of the test vectors. -/
theorem merkle_roots_agree_session :
    E1.merkleRoot sessionKeccak (sessionAttestation.leaves sessionKeccak 4) =
      .ok 0xd1c3964fdd58be32357ecd4aaaf062ed41a6e2a44c9e2664f3d58f7787f6a032 := by
  have hne : sessionAttestation.leaves sessionKeccak 4 ≠ [] := by
    simp [Attestation.leaves, Attestation.leafInputs]
  obtain ⟨root, -, hcontract, hprover, -⟩ := merkle_roots_agree hne
  have hroot : merkleRoot sessionKeccak (sessionAttestation.leaves sessionKeccak 4) =
      0xd1c3964fdd58be32357ecd4aaaf062ed41a6e2a44c9e2664f3d58f7787f6a032 := by decide +kernel
  rw [hprover, ← hcontract, hroot]

end Pprev
