import Pprev.Contract.Accepted
import Pprev.Contract.Statement
import Pprev.Evm.Origin

/-!
# Agreement between the notary and the contracts

One notary signs statements, and any number of deployments on any chains are called by anyone with
any arguments, in any order. An installed verifier accepts nothing but digests that the notary
signed. Then every accepted attested call used exactly the values of a statement the notary signed
for that deployment, and no two accepted calls of a deployment used the same signature.
-/

namespace Pprev

open Evm Function Tx

/-- The statement made of the values that a call uses: its sender and arguments, and what the store
says of the listing, the application and the policy. -/
def attested (e : Entry Block Msg State) : Option Statement :=
  let s := e.before
  match e.msg.call with
  | .register cTx txData policyIdR _ _ etaR tAttR =>
      some (.register ⟨cTx, txData, policyIdR, e.msg.sender, etaR, tAttR⟩)
  | .applyFor txId txData _ cB _ etaA tAttA =>
      some (.apply {
        txId := txId
        cTx := (s.listings txId).cTx
        txData := txData
        cB := cB
        policyId := (s.policyRegistry (s.listings txId).policyIdR).policyIdA
        submitter := e.msg.sender
        eta := etaA
        tAtt := tAttA })
  | .settle engId txData _ _ etaS tAttS =>
      some (.settle {
        engId := engId
        txId := s.listingOf engId
        cTx := (s.listings (s.listingOf engId)).cTx
        txData := txData
        cB := (s.applications (s.engagements engId).appId).cB
        expiresAt := (s.engagements engId).expiresAt
        policyId := (s.policyRegistry (s.listings (s.listingOf engId)).policyIdR).policyIdS
        submitter := e.msg.sender
        eta := etaS
        tAtt := tAttS })
  | _ => none

section

variable {keccak256 : Bytes → Bytes32} (d : Deployment keccak256)

/-- The domain of a deployment in a block. -/
def Deployment.domain (b : Block) : Domain := ⟨b.chainid, d.this⟩

variable {d} {b : Block} {m : Msg} {s : State} {x : Statement}

/-- The cached separator is used only on the chain it was made for. -/
theorem domainSeparator_eq : domainSeparator d b = (d.domain b).separator keccak256 := by
  unfold domainSeparator
  split_ifs with h
  · rw [d.separator, ← h]
    rfl
  · rfl

/-- An accepted attested call passed the verifier with the digest of its statement. -/
theorem verified_of_guard (g : Guard d b m s) (hx : attested ⟨b, m, s⟩ = some x) :
    ∃ sigma, m.verify s.notaryVerifier (digest keccak256 x (d.domain b)) sigma = some true := by
  have hverified : ∀ {sigma}, Verified d b m s (x.hash keccak256) sigma →
      m.verify s.notaryVerifier (digest keccak256 x (d.domain b)) sigma = some true := by
    intro sigma h
    rwa [Verified, hashTypedData, domainSeparator_eq] at h
  unfold Guard at g
  unfold attested at hx
  cases hc : m.call with
  | register cTx txData policyIdR r sigmaR etaR tAttR =>
    simp only [hc, Option.some.injEq] at g hx
    subst hx
    exact ⟨sigmaR, hverified g.verified⟩
  | applyFor txId txData r cB sigmaA etaA tAttA =>
    simp only [hc, Option.some.injEq] at g hx
    subst hx
    exact ⟨sigmaA, hverified g.verified⟩
  | settle engId txData r sigmaS etaS tAttS =>
    simp only [hc, Option.some.injEq] at g hx
    subst hx
    exact ⟨sigmaS, hverified g.2.1.verified⟩
  | _ => simp [hc] at hx

theorem fresh_of_guard (g : Guard d b m s) (hx : attested ⟨b, m, s⟩ = some x) :
    Fresh d b x.tAtt := by
  unfold Guard at g
  unfold attested at hx
  cases hc : m.call with
  | register cTx txData policyIdR r sigmaR etaR tAttR =>
    simp only [hc, Option.some.injEq] at g hx
    subst hx
    exact g.fresh
  | applyFor txId txData r cB sigmaA etaA tAttA =>
    simp only [hc, Option.some.injEq] at g hx
    subst hx
    exact g.fresh
  | settle engId txData r sigmaS etaS tAttS =>
    simp only [hc, Option.some.injEq] at g hx
    subst hx
    exact g.2.1.fresh
  | _ => simp [hc] at hx

end

/-- An attested call takes the nonce of its statement. -/
theorem nonce_mem_tokens {e : Entry Block Msg State} {x : Statement} (hx : attested e = some x) :
    .nonce x.eta ∈ tokens e := by
  unfold attested at hx
  unfold tokens
  cases hc : e.msg.call <;> simp only [hc, Option.some.injEq, reduceCtorEq] at hx ⊢
  all_goals subst hx; simp [Statement.eta]

theorem submitter_eq {e : Entry Block Msg State} {x : Statement} (hx : attested e = some x) :
    x.submitter = e.msg.sender := by
  unfold attested at hx
  cases hc : e.msg.call <;> simp only [hc, Option.some.injEq, reduceCtorEq] at hx
  all_goals subst hx; rfl

/-! ## The system -/

/-- What the notary signed, in order, and the deployments. -/
structure System (ι : Type) where
  signed : List (Statement × Domain)
  configs : ι → Config Block Msg State Err Uint256

section

variable {ι : Type} {keccak256 : Bytes → Bytes32}

variable (keccak256) in
/-- A verifier accepts, during the call, nothing but digests that were signed. -/
def Honest (signed : List (Statement × Domain)) (m : Msg) (verifier : Address) : Prop :=
  ∀ h sigma, m.verify verifier h sigma = some true →
    ∃ p ∈ signed, digest keccak256 p.1 p.2 = h

/-- Nothing is signed, and every deployment has just been made. -/
def System.Initial (d : ι → Deployment keccak256) (supply : ι → ℕ) (y : System ι) : Prop :=
  y.signed = [] ∧
  ∀ i, ∃ b s, Deployed b (d i) s ∧ y.configs i = Config.deployed b s (supply i)

/-- Everything hashed for the signed statements and those of the accepted calls. -/
def System.hashed (d : ι → Deployment keccak256) (y : System ι) : Set Bytes :=
  {z | (∃ p ∈ y.signed, z ∈ digestInputs keccak256 p.1 p.2) ∨
    ∃ i, ∃ e ∈ Accepted (y.configs i), ∃ x, attested e = some x ∧
      z ∈ digestInputs keccak256 x ((d i).domain e.block)}

/-- The `k`-th signature of the notary is one for the statement of the call. -/
def System.Corresponds (d : ι → Deployment keccak256) (y : System ι) (i : ι)
    (e : Entry Block Msg State) (k : ℕ) : Prop :=
  ∃ x, attested e = some x ∧ y.signed[k]? = some (x, (d i).domain e.block)

variable {d : ι → Deployment keccak256} {supply : ι → ℕ} {y : System ι}

/-- Every deployment is in a run of its own, and was called with honest verifiers only. -/
structure System.Ok (d : ι → Deployment keccak256) (supply : ι → ℕ) (y : System ι) : Prop where
  runs : ∀ i, Runs (d i) (supply i) (y.configs i)
  honest : ∀ i, (y.configs i).Marked fun e =>
    Honest keccak256 y.signed e.msg e.before.notaryVerifier

theorem System.Initial.ok (h : System.Initial d supply y) : System.Ok d supply y where
  runs i := by
    obtain ⟨b, s, hd, hc⟩ := h.2 i
    rw [hc]
    exact ⟨b, s, hd, [], rfl⟩
  honest i := by
    obtain ⟨b, s, hd, hc⟩ := h.2 i
    rw [hc]
    exact Config.Marked.deployed b s _

theorem Honest.mono {signed signed' : List (Statement × Domain)} {m : Msg} {verifier : Address}
    (h : Honest keccak256 signed m verifier) (hs : ∀ p ∈ signed, p ∈ signed') :
    Honest keccak256 signed' m verifier := fun z sigma hz =>
  let ⟨p, hp, hd⟩ := h z sigma hz
  ⟨p, hs p hp, hd⟩

/-- The notary signed the statement of an accepted attested call. -/
theorem System.Ok.signed (h : System.Ok d supply y) (hk : Set.InjOn keccak256 (y.hashed d)) {i : ι}
    {e : Entry Block Msg State} (he : e ∈ Accepted (y.configs i)) {x : Statement}
    (hx : attested e = some x) : (x, (d i).domain e.block) ∈ y.signed := by
  obtain ⟨-, g, -⟩ := (h.runs i).stands he
  obtain ⟨sigma, hv⟩ := verified_of_guard g hx
  obtain ⟨⟨x', domain⟩, hp, hdigest⟩ := (h.honest i).accepted he _ _ hv
  obtain ⟨rfl, rfl⟩ := digest_inj hk (fun z hz => .inl ⟨_, hp, hz⟩)
    (fun z hz => .inr ⟨i, e, he, x, hx, hz⟩) hdigest
  exact hp

variable [DecidableEq ι]

/-- The notary signs a statement, or something happens at one deployment; when that is a call, the
verifier installed there is honest. -/
inductive System.Step (d : ι → Deployment keccak256) : System ι → System ι → Prop
  | sign (y : System ι) (p : Statement × Domain) : Step d y { y with signed := y.signed ++ [p] }
  | act (y : System ι) (i : ι) (e : Event Block Msg) (c : Config Block Msg State Err Uint256)
      (hstep : (code (d i)).step (y.configs i) e = some c)
      (honest : ∀ m, e = .call m →
        Honest keccak256 y.signed m (y.configs i).world.store.notaryVerifier) :
      Step d y { y with configs := update y.configs i c }

def System.Reachable (d : ι → Deployment keccak256) (supply : ι → ℕ) (y : System ι) : Prop :=
  ∃ y₀, System.Initial d supply y₀ ∧ Relation.ReflTransGen (System.Step d) y₀ y

variable {y' : System ι}

theorem System.Ok.step (h : System.Ok d supply y) (hs : System.Step d y y') :
    System.Ok d supply y' := by
  cases hs with
  | sign p =>
    exact ⟨h.runs, fun i => (h.honest i).mono fun e he =>
      he.mono fun p hp => List.mem_append_left _ hp⟩
  | act i e c hstep honest =>
    have hone : (code (d i)).exec (y.configs i) [e] = some c := by
      show ((code (d i)).step (y.configs i) e).bind _ = some c
      rw [hstep]
      rfl
    have hruns := (h.runs i).exec hone
    have hmarked := (h.honest i).step hstep honest
    constructor <;> intro j <;> by_cases hj : j = i
    · subst hj
      simpa using hruns
    · simpa [hj] using h.runs j
    · subst hj
      simpa using hmarked
    · simpa [hj] using h.honest j

theorem System.Reachable.ok (h : System.Reachable d supply y) : System.Ok d supply y := by
  obtain ⟨y₀, h₀, hsteps⟩ := h
  induction hsteps with
  | refl => exact h₀.ok
  | tail _ hs ih => exact ih.step hs

/-- **Agreement.** Every accepted attested call corresponds to a signature for a statement of its
phase, chain and contract over exactly the values it used, whose submitter is the sender and which
is fresh; no two accepted calls of one deployment correspond to the same signature or use the same
nonce, in any phases; and no commitment is registered twice. -/
theorem agreement (h : System.Reachable d supply y) (hk : Set.InjOn keccak256 (y.hashed d)) (i : ι) :
    (∀ e ∈ Accepted (y.configs i), ∀ x, attested e = some x →
      (∃ k, y.Corresponds d i e k) ∧ x.submitter = e.msg.sender ∧
      x.tAtt.toNat ≤ e.block.timestamp ∧
      e.block.timestamp ≤ x.tAtt.toNat + (d i).DELTA.toNat) ∧
    (Accepted (y.configs i)).Pairwise (fun e e' =>
      (∀ k, ¬ (y.Corresponds d i e k ∧ y.Corresponds d i e' k)) ∧
      ∀ x x', attested e = some x → attested e' = some x' → x.eta ≠ x'.eta) ∧
    (Accepted (y.configs i)).Pairwise fun e e' => ∀ x x', attested e = some (.register x) →
      attested e' = some (.register x') → x.cTx ≠ x'.cTx := by
  have hok := h.ok
  refine ⟨fun e he x hx => ?_, ?_, ?_⟩
  · obtain ⟨-, g, -⟩ := (hok.runs i).stands he
    obtain ⟨k, hk'⟩ := List.mem_iff_getElem?.mp (hok.signed hk he hx)
    exact ⟨⟨k, x, hx, hk'⟩, submitter_eq hx, fresh_of_guard g hx⟩
  · refine (hok.runs i).tokens_disjoint.imp fun {e e'} hdis => ?_
    have heta : ∀ x x', attested e = some x → attested e' = some x' → x.eta ≠ x'.eta :=
      fun x x' hx hx' heq => hdis _ (nonce_mem_tokens hx) (heq ▸ nonce_mem_tokens hx')
    refine ⟨fun k ⟨⟨x, hx, hsig⟩, ⟨x', hx', hsig'⟩⟩ => heta x x' hx hx' ?_, heta⟩
    have := hsig.symm.trans hsig'
    simp only [Option.some.injEq, Prod.mk.injEq] at this
    rw [this.1]
  · refine (hok.runs i).tokens_disjoint.imp fun {e e'} hdis x x' hx hx' heq => ?_
    have hmem : ∀ {e : Entry Block Msg State} {x}, attested e = some (.register x) →
        .commitment x.cTx ∈ tokens e := by
      intro e x hx
      unfold attested at hx
      unfold tokens
      cases hc : e.msg.call <;>
        simp only [hc, Option.some.injEq, Statement.register.injEq, reduceCtorEq] at hx ⊢
      subst hx
      simp
    exact hdis _ (hmem hx) (heq ▸ hmem hx')

/-- A run of one deployment, called with verifiers that are honest for what is signed already, is
a run of the system. -/
theorem System.steps_exec {i : ι} {c : Config Block Msg State Err Uint256}
    {es : List (Event Block Msg)} (hes : (code (d i)).exec (y.configs i) es = some c)
    (honest : ∀ m, .call m ∈ es → ∀ verifier, Honest keccak256 y.signed m verifier) :
    Relation.ReflTransGen (System.Step d) y { y with configs := update y.configs i c } := by
  induction es generalizing y with
  | nil =>
    cases hes
    rw [update_eq_self]
  | cons e es ih =>
    obtain ⟨c₁, hstep, hrest⟩ := Option.bind_eq_some_iff.mp hes
    refine .head (.act y i e c₁ hstep fun m hm => honest m (by simp [hm]) _) ?_
    have := ih (y := { y with configs := update y.configs i c₁ }) (by simpa using hrest)
      fun m hm => honest m (List.mem_cons_of_mem _ hm)
    simpa using this

end

namespace Vectors

/-- The signatures of the notary in the run over the test vectors. -/
def signed : List (Statement × Domain) :=
  [(.register ⟨cTx, txData, policyIdR, owner, register.eta, register.tAtt⟩,
      ⟨chainid, contract⟩),
    (.apply ⟨1, cTx, txData, cB, policyIdA, applicant, applyFor.eta, applyFor.tAtt⟩,
      ⟨chainid, contract⟩),
    (.settle ⟨1, 1, cTx, txData, cB, 1761209700, policyIdS, owner, settle.eta, settle.tAtt⟩,
      ⟨chainid, contract⟩)]

def system : System Unit := ⟨signed, fun _ => ended⟩

/-- Everything that is hashed for the three statements. -/
def hashed : List Bytes := signed.flatMap fun p => digestInputs keccak p.1 p.2

theorem signed_facts :
    signed.map (fun p => digest keccak p.1 p.2) = [registerDigest, applyDigest, settleDigest] ∧
    ∀ x ∈ hashed, ∀ y ∈ hashed, keccak x = keccak y → x = y := by
  decide +kernel

theorem accepted_ended : (Accepted (system.configs ())).length = 6 ∧
    (Accepted ended).filterMap (fun e => (attested e).map fun x =>
      (x, deployment.domain e.block)) = signed.reverse := by
  decide +kernel

/-- Every call of the run is made with the verifier that knows the three digests. -/
theorem honest {m : Msg} (hm : .call m ∈ events) (v : Address) : Honest keccak signed m v := by
  have hverify : m.verify = verify := by
    simp only [events, msg, List.mem_cons, Event.call.injEq, reduceCtorEq, List.not_mem_nil,
      false_or, or_false] at hm
    rcases hm with rfl | rfl | rfl | rfl | rfl | rfl <;> rfl
  intro h sigma hv
  rw [hverify] at hv
  have hmem : h ∈ signed.map fun p => digest keccak p.1 p.2 := by
    rw [signed_facts.1]
    simpa [verify, or_assoc] using hv
  exact List.mem_map.mp hmem

theorem system_reachable : System.Reachable (fun _ => deployment) (fun _ => 100000) system := by
  let start : System Unit :=
    ⟨[], fun _ => Config.deployed (block 1759990000) (State.initial verifier) 100000⟩
  refine ⟨start, ⟨rfl, fun _ => ⟨_, _, deployed, rfl⟩⟩, ?_⟩
  have hsign : Relation.ReflTransGen (System.Step fun _ => deployment) start
      { start with signed := signed } := by
    refine .head (.sign start signed[0]) (.head (.sign _ signed[1]) (.head (.sign _ signed[2]) ?_))
    exact .refl
  have hrun : (code deployment).exec (start.configs ()) events = some ended :=
    (Option.some_get _).symm
  have hexec := System.steps_exec (d := fun _ => deployment)
    (y := { start with signed := signed }) (i := ()) hrun fun m hm v => honest hm v
  have hend : update start.configs () ended = fun _ => ended := funext fun _ => update_self _ _ _
  simp only [hend] at hexec
  exact hsign.trans hexec

theorem hashed_injOn : Set.InjOn keccak {z | z ∈ hashed} := fun x hx y hy =>
  signed_facts.2 x hx y hy

theorem system_hashed : system.hashed (fun _ => deployment) ⊆ {z | z ∈ hashed} := by
  rintro z (⟨p, hp, hz⟩ | ⟨i, e, he, x, hx, hz⟩)
  · exact List.mem_flatMap.mpr ⟨p, hp, hz⟩
  · simp only [system] at he
    have hp : (x, deployment.domain e.block) ∈ signed := by
      rw [← List.mem_reverse, ← accepted_ended.2]
      exact List.mem_filterMap.mpr ⟨e, he, by simp [hx]⟩
    exact List.mem_flatMap.mpr ⟨_, hp, hz⟩

end Vectors

open Vectors in
theorem agreement_ended : (Accepted (system.configs ())).length = 6 ∧
    ∀ e ∈ Accepted (system.configs ()), ∀ x, attested e = some x →
      (∃ k, system.Corresponds (fun _ => deployment) () e k) ∧ x.submitter = e.msg.sender ∧
      x.tAtt.toNat ≤ e.block.timestamp ∧
      e.block.timestamp ≤ x.tAtt.toNat + deployment.DELTA.toNat :=
  ⟨accepted_ended.1, (agreement system_reachable (hashed_injOn.mono system_hashed) ()).1⟩

end Pprev
