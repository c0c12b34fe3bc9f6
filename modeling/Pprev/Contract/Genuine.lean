import Pprev.Contract.Agreement
import Pprev.Contract.Commitments
import Pprev.Notary.Grounds

/-!
# What a settlement stands on

An accepted settlement has calls behind it that made its listing, its application and its
engagement. The statements of these calls and of its own are signed, and where the notary is the
policy verifier they are about records of the registry: the commitment of the application ties the
income that was proved for it to the tenancy that ends it.
-/

namespace Pprev

open Evm Function Gregorian

/-! ## The calls behind a settlement -/

section

variable {keccak256 : Bytes → Bytes32} {d : Deployment keccak256} {supply : ℕ}
  {c : Config Block Msg State Err Uint256} {e : Entry Block Msg State}

/-- The call creates an application to a listing with these parameters and this commitment. -/
def Applies (e : Entry Block Msg State) (appId txId : Uint256) (txData : TxData) (cB : Bytes32) :
    Prop :=
  e.before.nextAppId = appId ∧ ∃ r sigmaA etaA tAttA,
    e.msg.call = .applyFor txId txData r cB sigmaA etaA tAttA

/-- The call creates an engagement of an application. -/
def Engages (e : Entry Block Msg State) (engId appId : Uint256) : Prop :=
  e.before.nextEngId = engId ∧ ∃ txId, e.msg.call = .engage txId appId

/-- An application that exists was made by an accepted call. -/
theorem Runs.applies (h : Runs d supply c) {appId : Uint256}
    (ha : (c.world.store.applications appId).status ≠ .none) :
    ∃ e ∈ Accepted c, ∃ txData, Applies e appId (c.world.store.applications appId).txId txData
      (c.world.store.applications appId).cB := by
  obtain ⟨e, he, htok⟩ := (h.taken_iff (.item (.application appId))).mp ha
  have hkept := h.kept he
  unfold tokens at htok
  unfold Kept at hkept
  cases hc : e.msg.call with
  | applyFor txId txData r cB sigmaA etaA tAttA =>
    simp only [hc, List.mem_cons, reduceCtorEq, Token.item.injEq, Item.application.injEq,
      List.not_mem_nil, or_false, false_or] at htok hkept
    subst htok
    obtain ⟨rfl, -, -, rfl⟩ := hkept
    exact ⟨e, he, txData, rfl, r, sigmaA, etaA, tAttA, hc⟩
  | _ => simp [hc] at htok

/-- An engagement that exists was made by an accepted call, and ends a lock window later. -/
theorem Runs.engages (h : Runs d supply c) {engId : Uint256}
    (hg : (c.world.store.engagements engId).status ≠ .none) :
    ∃ e ∈ Accepted c, Engages e engId (c.world.store.engagements engId).appId ∧
      (c.world.store.engagements engId).expiresAt.toNat = e.block.timestamp + d.TAU_LOCK.toNat := by
  obtain ⟨e, he, htok⟩ := (h.taken_iff (.item (.engagement engId))).mp hg
  have hkept := h.kept he
  unfold tokens at htok
  unfold Kept at hkept
  cases hc : e.msg.call with
  | engage txId appId =>
    simp only [hc, List.mem_cons, Token.item.injEq, Item.engagement.injEq, List.not_mem_nil,
      or_false] at htok hkept
    subst htok
    obtain ⟨rfl, hexpires⟩ := hkept
    exact ⟨e, he, ⟨rfl, txId, hc⟩, hexpires⟩
  | _ => simp [hc] at htok

/-- The calls that made what a settlement settles. -/
structure Behind (d : Deployment keccak256) (registration application engagement settlement :
    Entry Block Msg State) (engId : Uint256) (txData : TxData) (r : Bytes32) : Prop where
  registers : Registers registration (settlement.before.listingOf engId) txData r
  sender : registration.msg.sender = settlement.msg.sender
  applies : Applies application (settlement.before.engagements engId).appId
    (settlement.before.listingOf engId) txData
    (settlement.before.applications (settlement.before.engagements engId).appId).cB
  engages : Engages engagement engId (settlement.before.engagements engId).appId
  expires : (settlement.before.engagements engId).expiresAt.toNat =
    engagement.block.timestamp + d.TAU_LOCK.toNat
  inTime : settlement.block.timestamp ≤ engagement.block.timestamp + d.TAU_LOCK.toNat

/-- The statements of the calls have the terms of the settlement. -/
theorem Behind.attested {registration application engagement settlement : Entry Block Msg State}
    {engId : Uint256} {txData : TxData} {r : Bytes32}
    (h : Behind d registration application engagement settlement engId txData r) :
    (∃ x, attested registration = some (.register x) ∧ x.txData = txData) ∧
      ∃ x, attested application = some (.apply x) ∧ x.txData = txData ∧
        x.cB = (settlement.before.applications (settlement.before.engagements engId).appId).cB := by
  obtain ⟨-, cTx, policyIdR, sigmaR, etaR, tAttR, hcallR⟩ := h.registers
  obtain ⟨-, rA, sigmaA, etaA, tAttA, hcallA⟩ := h.applies
  simp only [Pprev.attested, hcallR, hcallA]
  exact ⟨⟨_, rfl, rfl⟩, _, rfl, rfl, rfl⟩

theorem attested_settle {engId : Uint256} {txData : TxData} {r : Bytes32} {sigmaS : Bytes}
    {etaS : Bytes32} {tAttS : Uint64} (hc : e.msg.call = .settle engId txData r sigmaS etaS tAttS) :
    ∃ x, attested e = some (.settle x) ∧ x.txData = txData ∧
      x.cB = (e.before.applications (e.before.engagements engId).appId).cB ∧
      x.expiresAt = (e.before.engagements engId).expiresAt ∧
      x.policyId = (e.before.policyRegistry
        (e.before.listings (e.before.listingOf engId)).policyIdR).policyIdS := by
  simp only [attested, hc]
  exact ⟨_, rfl, rfl, rfl, rfl, rfl⟩

/-- An accepted call that opens the commitment of a listing names what it was registered with. -/
theorem Runs.opened (h : Runs d supply c) (hk : CollisionFree keccak256 (Accepted c))
    (he : e ∈ Accepted c) {txId : Uint256} (ht : e.before.txState txId ≠ .none) {txData : TxData}
    {r : Bytes32} (hopen : commitment keccak256 txData (e.before.listings txId).policyIdR r =
      (e.before.listings txId).cTx)
    (hcommitted : committed e =
      some (commitmentInput txData (e.before.listings txId).policyIdR r)) :
    RegisteredWith c txId txData r :=
  (h.registeredWith (h.evolves_before he) ht hopen hk ⟨e, he, hcommitted⟩
    fun e' he' _ hx => ⟨e', he', hx⟩).1

theorem Runs.applied_with (h : Runs d supply c) (hk : CollisionFree keccak256 (Accepted c))
    (he : e ∈ Accepted c) {appId txId : Uint256} {txData : TxData} {cB : Bytes32}
    (ha : Applies e appId txId txData cB) : ∃ r, RegisteredWith c txId txData r := by
  obtain ⟨-, r, sigmaA, etaA, tAttA, hc⟩ := ha
  obtain ⟨-, g, -⟩ := h.stands he
  simp only [Guard, hc] at g
  have ht : e.before.txState txId ≠ .none := by
    rcases (isOpen_iff.mp g.isOpen).1 with ht | ht <;>
      rw [show e.before.txState txId = _ from ht] <;> decide
  exact ⟨r, h.opened hk he ht g.commitment (by simp [committed, hc])⟩

/-- An accepted settlement has the calls behind it. -/
theorem Runs.behind (h : Runs d supply c) (hk : CollisionFree keccak256 (Accepted c))
    (he : e ∈ Accepted c) {engId : Uint256} {txData : TxData} {r : Bytes32} {sigmaS : Bytes}
    {etaS : Bytes32} {tAttS : Uint64}
    (hc : e.msg.call = .settle engId txData r sigmaS etaS tAttS) :
    ∃ registration ∈ Accepted c, ∃ application ∈ Accepted c, ∃ engagement ∈ Accepted c,
      Behind d registration application engagement e engId txData r := by
  obtain ⟨hinv, g, -⟩ := h.stands he
  simp only [Guard, hc] at g
  replace g := g.2.1
  set appId := (e.before.engagements engId).appId with happId
  have happ : (e.before.applications appId).status ≠ .none := by
    have hengaged := hinv.valid.linked.eng_app engId g.known
    rw [show (e.before.applications appId).status = _ from hengaged]
    decide
  have ht : e.before.txState (e.before.listingOf engId) ≠ .none := by
    rw [g.locked]
    decide
  -- the records that the settlement found are still there
  have hev := h.evolves_before he
  have hengApp : (c.world.store.engagements engId).appId = appId := hev.book.engApp engId g.known
  have hexpiresAt : (c.world.store.engagements engId).expiresAt.toNat =
      (e.before.engagements engId).expiresAt.toNat := hev.book.expiresAt engId g.known
  have happTx : (c.world.store.applications appId).txId = e.before.listingOf engId :=
    hev.book.appTx appId happ
  have hcB := hev.cB appId happ
  obtain ⟨⟨registration, hr, hregisters⟩, hunique⟩ :=
    h.opened hk he ht g.commitment (by simp [committed, hc])
  obtain ⟨engagement, hg, hengages, hexpires⟩ :=
    h.engages (EngStatus.ne_none_of_path (hev.book.engStatus engId) g.known)
  obtain ⟨application, ha, txData', happlies⟩ :=
    h.applies (AppStatus.ne_none_of_path (hev.book.appStatus appId) happ)
  rw [hengApp] at hengages
  rw [hexpiresAt] at hexpires
  rw [happTx, hcB] at happlies
  obtain ⟨r', hwith⟩ := h.applied_with hk ha happlies
  obtain ⟨e', he', hregisters'⟩ := hwith.1
  obtain ⟨rfl, -⟩ := hunique e' he' txData' r' hregisters'
  have howner : registration.msg.sender = e.msg.sender := by
    obtain ⟨hnext, cTx, policyIdR, sigmaR, etaR, tAttR, hcall⟩ := hregisters
    have hkept := h.kept hr
    simp only [Kept, hcall, hnext] at hkept
    exact hkept.2.2.1.symm.trans ((hev.book.owner _ ht).trans g.owner.symm)
  exact ⟨registration, hr, application, ha, engagement, hg, hregisters, howner, happlies, hengages,
    hexpires, hexpires ▸ g.window⟩

end

/-! ## The records behind a settlement -/

section

variable {Presentation VerifyingKey Proof : Type} {sha256 : Bytes → Bytes}
  {poseidon : F → F → F} {lib : Circomlib sha256 poseidon}
  {library : AttestationLibrary Presentation VerifyingKey} {v : PolicyVerifier VerifyingKey Proof}
  (R : Registry) (credentials : Bytes → Option Registry.Credentials) (overflowChecks : Bool)
  (p : Threads.Pool Registry.Connection Registry.State
    (Except Registry.HandleError Registry.Response))
  (s : Committed) {S : Set Bytes} {T : Set (F × F)}

/-- An owner of the property was shown its title and a tenant an income that is enough for it, each
having logged in, and the tenancy, shown too, is recorded no earlier than the day of the engagement,
at its local time. -/
structure Genuine (txData : TxData) (time : ℤ) : Prop where
  owned : Owned R credentials overflowChecks p s txData.propertyId
  rented : ∃ record ∈ R.fixtures.incomes, ∃ n ∈ R.fixtures.tenancies,
    (∃ r, s.income.renderResponse record.account [record.monthlyIncome] = .ok r ∧
      R.ShownTo credentials overflowChecks p record.account r.bytes) ∧
    (∃ account r, s.tenancy.renderResponse account n.values = .ok r ∧
      R.ShownTo credentials overflowChecks p account r.bytes) ∧
    padded s.pad n.tenant s.income.accountWidth =
      padded s.pad record.account s.income.accountWidth ∧
    s.multiple * txData.amount.toNat ≤
      decimalValue (padded s.pad record.monthlyIncome s.incomeWidth) ∧
    s.tenancy.word "propertyId" n.propertyId = .ok (wordBytes txData.propertyId) ∧
    ∃ d : Date, padded s.pad n.recordDate 10 = dateText d ∧ time / 86400 ≤ d.unixDay

variable {R credentials overflowChecks p s}

/-- One commitment is to one account. -/
theorem Committed.same_account (hT : Set.InjOn (fun q => poseidon q.1 q.2) T)
    {record : Registry.IncomeRecord} {r r' : RenderedRecord}
    (hr : s.income.renderResponse record.account [record.monthlyIncome] = .ok r)
    {n : Registry.TenancyNotation} {account : String}
    (hr' : s.tenancy.renderResponse account n.values = .ok r') {salt salt' : F}
    (hmem : ((packed (padded s.pad record.account s.income.accountWidth) : F), salt) ∈ T)
    (hmem' : ((packed (padded s.pad n.tenant s.income.accountWidth) : F), salt') ∈ T)
    (heq : poseidon (packed (padded s.pad n.tenant s.income.accountWidth)) salt' =
      poseidon (packed (padded s.pad record.account s.income.accountWidth)) salt) :
    padded s.pad n.tenant s.income.accountWidth =
      padded s.pad record.account s.income.accountWidth := by
  obtain ⟨hpadable, -⟩ := Sources.accountPart_eq hr
  obtain ⟨-, hpadable'⟩ := Committed.padable_tenancy hr'
  have hlen : (padded s.pad record.account s.income.accountWidth).length = s.income.accountWidth :=
    length_padded hpadable.2.2.2
  have hlen' : (padded s.pad n.tenant s.income.accountWidth).length = s.income.accountWidth :=
    length_padded hpadable'.2.2.2
  have hpair := hT hmem' hmem heq
  have hpacked := (natCast_inj (packed_lt_order (hlen'.trans_le s.account_le))
    (packed_lt_order (hlen.trans_le s.account_le))).mp (Prod.mk.inj hpair).1
  exact packed_inj (hlen'.trans hlen.symm) hpacked

/-- Statements with the same terms and commitment are about the records of one rent. -/
theorem genuine_of_grounded (hT : Set.InjOn (fun q => poseidon q.1 q.2) T) {x : Apply}
    {y : Settle} {time : ℕ}
    (howned : Owned R credentials overflowChecks p s y.txData.propertyId)
    (hearned : Earned R credentials overflowChecks p s T poseidon x)
    (htenanted : Tenanted v R credentials overflowChecks p s T poseidon y)
    (hdata : x.txData = y.txData) (hcB : x.cB = y.cB)
    (htime : ∀ tauLock, v.tauLock = some tauLock → y.expiresAt.toNat = time + tauLock.toNat) :
    ∃ policy, v.settlePolicies y.policyId = some policy ∧
      Genuine R credentials overflowChecks p s y.txData (time + policy.utcOffsetSecs.toInt) := by
  obtain ⟨record, hrecord, ⟨r, hr, hshown⟩, ⟨salt, hmem, hcommit⟩, -, hamount⟩ := hearned
  obtain ⟨n, hn, ⟨account, r', hr', hshown'⟩, hword, ⟨salt', hmem', hcommit'⟩, policy, tauLock, day,
    d, hpolicy, htau, hday, -, hdate, hle⟩ := htenanted
  rw [hcB] at hcommit
  refine ⟨policy, hpolicy, howned, record, hrecord, n, hn, ⟨r, hr, hshown⟩,
    ⟨account, r', hr', hshown'⟩, Committed.same_account hT hr hr' hmem hmem'
      (hcommit'.symm.trans hcommit), hdata ▸ hamount, hword, d, hdate, ?_⟩
  -- the engagement day is that of the time at which the lock window began
  obtain ⟨⟨-, -, e, -, he, rfl⟩, -⟩ := (statementDay_eq_ok _ _ _).mp hday
  have hstart : statementTime tauLock policy.utcOffsetSecs y.expiresAt =
      time + policy.utcOffsetSecs.toInt := by
    rw [statementTime, htime tauLock htau]
    omega
  rw [hstart] at he
  rw [← he]
  exact not_lt.mp fun hlt => not_lt.mpr hle (Date.unixDay_lt_iff.mp hlt)

variable [DecidableEq VerifyingKey] {ι : Type} {keccak256 : Bytes → Bytes32}

/-- Everything that is signed is a statement that the policy verifier has signed. -/
def System.SignedBy (y : System ι) (v : PolicyVerifier VerifyingKey Proof)
    (library : AttestationLibrary Presentation VerifyingKey) (build : Build)
    (keccak256 : Bytes → Bytes32) : Prop :=
  ∀ q ∈ y.signed, ∃ store requests,
    ∃ a ∈ v.serve keccak256 (checkShape library build) store requests, a.request.statement = q.1 ∧
      ∃ sigma, a.result = .ok sigma

theorem System.SignedBy.grounded {y : System ι} {build : Build}
    (hsigned : y.SignedBy v library build keccak256)
    (h : Trust lib library v R credentials overflowChecks p s S T) {x : Statement}
    {domain : Domain} (hx : (x, domain) ∈ y.signed) :
    Grounded v R credentials overflowChecks p s T poseidon x := by
  obtain ⟨store, requests, a, ha, rfl, sigma, hsigma⟩ := hsigned _ hx
  exact h.grounded_of_signed ha hsigma

end

/-- **What a settlement stands on.** In every state of the system, an accepted settlement has calls
behind it that registered its listing, applied to it and engaged the application, with the terms
that it settles and in time. If moreover everything signed is signed by the policy verifier, which
knows the registry and the lock window of the deployment, these terms are backed by records that the
registry has shown. -/
theorem settled_genuine {Presentation VerifyingKey Proof ι : Type} [DecidableEq VerifyingKey]
    [DecidableEq ι] {sha256 : Bytes → Bytes} {poseidon : F → F → F}
    (lib : Circomlib sha256 poseidon)
    (library : AttestationLibrary Presentation VerifyingKey) (v : PolicyVerifier VerifyingKey Proof)
    (R : Registry) (credentials : Bytes → Option Registry.Credentials) (overflowChecks : Bool)
    (p : Threads.Pool Registry.Connection Registry.State
      (Except Registry.HandleError Registry.Response))
    (s : Committed) (S : Set Bytes) (T : Set (F × F)) (build : Build)
    {keccak256 : Bytes → Bytes32} (d : ι → Deployment keccak256) (supply : ι → ℕ) (y : System ι)
    (h : System.Reachable d supply y) (i : ι)
    (hcollision : CollisionFree keccak256 (Accepted (y.configs i))) :
    (∀ e ∈ Accepted (y.configs i), ∀ engId txData r sigmaS etaS tAttS,
      e.msg.call = .settle engId txData r sigmaS etaS tAttS →
      ∃ registration ∈ Accepted (y.configs i), ∃ application ∈ Accepted (y.configs i),
        ∃ engagement ∈ Accepted (y.configs i),
          Behind (d i) registration application engagement e engId txData r) ∧
    (Trust lib library v R credentials overflowChecks p s S T →
      Set.InjOn (fun q => poseidon q.1 q.2) T → Set.InjOn keccak256 (y.hashed d) →
      y.SignedBy v library build keccak256 →
      (∀ tauLock, v.tauLock = some tauLock → tauLock.toNat = (d i).TAU_LOCK.toNat) →
      ∀ e ∈ Accepted (y.configs i), ∀ engId txData r sigmaS etaS tAttS,
        e.msg.call = .settle engId txData r sigmaS etaS tAttS →
        ∃ registration ∈ Accepted (y.configs i), ∃ application ∈ Accepted (y.configs i),
          ∃ engagement ∈ Accepted (y.configs i),
            Behind (d i) registration application engagement e engId txData r ∧
            ∃ policy, v.settlePolicies (e.before.policyRegistry
                (e.before.listings (e.before.listingOf engId)).policyIdR).policyIdS = some policy ∧
              Genuine R credentials overflowChecks p s txData
                (engagement.block.timestamp + policy.utcOffsetSecs.toInt)) := by
  have hok := h.ok
  have hbehind : ∀ e ∈ Accepted (y.configs i), ∀ engId txData r sigmaS etaS tAttS,
      e.msg.call = .settle engId txData r sigmaS etaS tAttS →
      ∃ registration ∈ Accepted (y.configs i), ∃ application ∈ Accepted (y.configs i),
        ∃ engagement ∈ Accepted (y.configs i),
          Behind (d i) registration application engagement e engId txData r :=
    fun e he _ _ _ _ _ _ hc => (hok.runs i).behind hcollision he hc
  refine ⟨hbehind, fun htrust hT hk hsigned htau e he engId txData r sigmaS etaS tAttS hc => ?_⟩
  obtain ⟨registration, hr, application, ha, engagement, hg, hbehind⟩ :=
    hbehind e he _ _ _ _ _ _ hc
  have hgrounded {e' : Entry Block Msg State} (he' : e' ∈ Accepted (y.configs i)) {x : Statement}
      (hx : attested e' = some x) :
      Grounded v R credentials overflowChecks p s T poseidon x :=
    hsigned.grounded htrust (hok.signed hk he' hx)
  obtain ⟨⟨x, hx, hxdata⟩, x', hx', hxdata', hcB⟩ := hbehind.attested
  obtain ⟨z, hz, rfl, hzcB, hexpires, hpolicy⟩ := attested_settle hc
  have howned : Owned R credentials overflowChecks p s x.txData.propertyId := hgrounded hr hx
  rw [hxdata] at howned
  rw [← hpolicy]
  exact ⟨registration, hr, application, ha, engagement, hg, hbehind,
    genuine_of_grounded hT howned (hgrounded ha hx') (hgrounded he hz) hxdata' (hcB.trans hzcB.symm)
      fun tauLock hlock => by
        rw [htau tauLock hlock, hexpires]
        exact hbehind.expires⟩

/-! ## The market over the committed layouts on chain -/

section

variable {keccak256 : Bytes → Bytes32}

theorem System.steps_sign {ι : Type} [DecidableEq ι] {d : ι → Deployment keccak256} (y : System ι)
    (signed : List (Statement × Domain)) :
    Relation.ReflTransGen (System.Step d) y { y with signed := y.signed ++ signed } := by
  induction signed generalizing y with
  | nil =>
    rw [List.append_nil]
  | cons q signed ih =>
    have := ih { y with signed := y.signed ++ [q] }
    rw [List.append_assoc] at this
    exact .head (.sign y q) this

/-- A run whose calls are made with honest verifiers is one of a system in which everything is
signed at first. -/
theorem System.reachable_of_exec {d : Deployment keccak256} {b : Block} {s : State} {supply : ℕ}
    {signed : List (Statement × Domain)} {es : List (Evm.Event Block Msg)}
    {c : Config Block Msg State Err Uint256} (hd : Deployed b d s)
    (hes : (code d).exec (Config.deployed b s supply) es = some c)
    (honest : ∀ m, .call m ∈ es → ∀ verifier, Honest keccak256 signed m verifier) :
    System.Reachable (fun _ : Unit => d) (fun _ => supply) ⟨signed, fun _ => c⟩ := by
  refine ⟨⟨[], fun _ => Config.deployed b s supply⟩, ⟨rfl, fun _ => ⟨b, s, hd, rfl⟩⟩, ?_⟩
  have hexec := System.steps_exec (d := fun _ : Unit => d) (i := ())
    (y := ⟨signed, fun _ => Config.deployed b s supply⟩) hes honest
  rw [show update (fun _ : Unit => Config.deployed b s supply) () c = fun _ => c from
    funext fun _ => update_self _ _ _] at hexec
  exact (System.steps_sign _ signed).trans hexec

end

namespace Vectors

theorem land_valid : ¬(operator = 0 ∨ (300 : Uint256) = 0 ∨ (1209600 : Uint256) = 0 ∨
    (3 : Uint256) = 0 ∨ (9000 : Uint256) = 0 ∨ BPS ≤ 9000) := by decide

def landDeployment : Deployment landKeccak where
  this := contract
  OPERATOR := operator
  DELTA := 300
  TAU_LOCK := 1209600
  MAX_EXPIRATIONS := 3
  RHO := 9000
  CACHED_CHAIN_ID := chainid
  CACHED_DOMAIN_SEPARATOR := buildDomainSeparator landKeccak chainid contract
  valid := land_valid
  separator := rfl

theorem deployed_land : Deployed (block 1759990000) landDeployment (State.initial verifier) := by
  refine ⟨contract, operator, verifier, 300, 1209600, 3, 9000, ?_⟩
  unfold constructor
  rw [dif_neg (by decide)]
  rfl

/-- The verifier of the test key. -/
def landVerify (_ : Address) (digest : Bytes32) (sigma : Bytes) : Option Bool :=
  some (landSignatures.lookup digest = some sigma)

def landMsg (sender : Address) (value : Uint256) (call : Call) : Msg :=
  ⟨sender, value, landVerify, call⟩

/-- The calls of a settlement with the signatures of the policy verifier. -/
def landEvents : List (Evm.Event Block Msg) :=
  [.call (landMsg operator 0 (.registerPolicy policyIdR policyIdA policyIdS 1 1 1000000)),
    .block (block 1760000000),
    .call (landMsg owner 7000 (.register cTx txData policyIdR r signableR.sigma register.eta
      register.tAtt)),
    .block (block 1760000100),
    .call (landMsg applicant 5000 (.applyFor 1 txData r landCommitment signableA.sigma applyFor.eta
      applyFor.tAtt)),
    .call (landMsg owner 0 (.engage 1 1)),
    .block (block 1760500000),
    .call (landMsg owner 0 (.settle 1 txData r signableS.sigma settle.eta settle.tAtt)),
    .accept,
    .accept]

/-- The run after its last event. -/
def landEnded : Config Block Msg State Err Uint256 :=
  ((code landDeployment).exec (Config.deployed (block 1759990000) (State.initial verifier) 100000)
    landEvents).get (by decide +kernel)

def landSigned : List (Statement × Domain) :=
  [(.register landRegister, landDomain), (.apply landApply, landDomain),
    (.settle landSettle, landDomain)]

theorem landSigned_facts :
    landSigned.map (fun q => digest landKeccak q.1 q.2) = landSignatures.map Prod.fst ∧
    (∀ x ∈ landSigned.flatMap fun q => digestInputs landKeccak q.1 q.2,
      ∀ y ∈ landSigned.flatMap fun q => digestInputs landKeccak q.1 q.2,
        landKeccak x = landKeccak y → x = y) := by
  decide +kernel

theorem accepted_landEnded :
    (Accepted landEnded).filterMap (fun e => (attested e).map fun x =>
      (x, landDeployment.domain e.block)) = landSigned.reverse ∧
    (Accepted landEnded).map committed = [some (commitmentInput txData policyIdR r), none,
      some (commitmentInput txData policyIdR r), some (commitmentInput txData policyIdR r), none] ∧
    (Accepted landEnded)[0]?.map (·.msg.call) =
      some (.settle 1 txData r signableS.sigma settle.eta settle.tAtt) := by
  decide +kernel

theorem honest_land {m : Msg} (hm : .call m ∈ landEvents) (a : Address) :
    Honest landKeccak landSigned m a := by
  have hverify : m.verify = landVerify := by
    simp only [landEvents, landMsg, List.mem_cons, Event.call.injEq, reduceCtorEq,
      List.not_mem_nil, false_or, or_false] at hm
    rcases hm with rfl | rfl | rfl | rfl | rfl <;> rfl
  intro digest sigma hv
  rw [hverify, landVerify, Option.some.injEq, decide_eq_true_iff] at hv
  have hmem : digest ∈ landSigned.map fun q => Pprev.digest landKeccak q.1 q.2 := by
    rw [landSigned_facts.1]
    obtain ⟨l, l', hl, -⟩ := List.lookup_eq_some_iff.mp hv
    rw [hl]
    simp
  exact List.mem_map.mp hmem

def landSystem : System Unit := ⟨landSigned, fun _ => landEnded⟩

theorem landSystem_configs (i : Unit) : landSystem.configs i = landEnded := by
  simp only [landSystem]

theorem landSystem_reachable :
    System.Reachable (fun _ => landDeployment) (fun _ => 100000) landSystem :=
  System.reachable_of_exec deployed_land (Option.some_get _).symm fun _ hm a => honest_land hm a

theorem landSystem_hashed : Set.InjOn landKeccak (landSystem.hashed fun _ => landDeployment) := by
  have hsub : ∀ z ∈ landSystem.hashed fun _ => landDeployment,
      z ∈ landSigned.flatMap fun q => digestInputs landKeccak q.1 q.2 := by
    rintro z (⟨q, hq, hz⟩ | ⟨i, e, he, x, hx, hz⟩)
    · exact List.mem_flatMap.mpr ⟨q, hq, hz⟩
    · rw [landSystem_configs] at he
      have hq : (x, landDeployment.domain e.block) ∈ landSigned.reverse := by
        rw [← accepted_landEnded.1]
        exact List.mem_filterMap.mpr ⟨e, he, by rw [hx, Option.map_some]⟩
      rw [List.mem_reverse] at hq
      exact List.mem_flatMap.mpr ⟨_, hq, hz⟩
  exact fun x hx y hy => landSigned_facts.2 x (hsub x hx) y (hsub y hy)

theorem land_collisionFree : CollisionFree landKeccak (Accepted landEnded) := by
  have hall : ∀ e ∈ Accepted landEnded, ∀ x, committed e = some x →
      x = commitmentInput txData policyIdR r := by
    intro e he x hx
    have hmem := List.mem_map_of_mem (f := committed) he
    rw [accepted_landEnded.2.1, hx] at hmem
    simpa using hmem
  rintro x ⟨e, he, hx⟩ y ⟨e', he', hy⟩ -
  rw [hall e he x hx, hall e' he' y hy]

theorem Presented.signedBy {p : Threads.Pool Registry.Connection Registry.State
      (Except Registry.HandleError Registry.Response)} {title income tenancy : PresentationOutput}
    (h : Presented p title income tenancy) :
    landSystem.SignedBy landVerifier (landLibrary title income tenancy) .release landKeccak := by
  intro q hq
  have hmem : ∃ sigma, (q.1, some sigma) ∈ (landVerifier.serve landKeccak
      (checkShape (landLibrary title income tenancy) .release) landStore landRequests).map
        fun a => (a.request.statement, a.result.toOption) := by
    rw [h.signs]
    simp only [landSystem, landSigned, List.mem_cons, List.not_mem_nil, or_false] at hq
    obtain rfl | rfl | rfl := hq
    · exact ⟨_, List.mem_cons_self⟩
    · exact ⟨_, List.mem_cons_of_mem _ List.mem_cons_self⟩
    · exact ⟨_, List.mem_cons_of_mem _ (List.mem_cons_of_mem _ List.mem_cons_self)⟩
  obtain ⟨sigma, hmem⟩ := hmem
  obtain ⟨a, ha, heq⟩ := List.mem_map.mp hmem
  obtain ⟨hstatement, hresult⟩ := Prod.mk.inj heq
  refine ⟨landStore, landRequests, a, ha, hstatement, sigma, ?_⟩
  cases hok : a.result with
  | error e =>
    rw [hok] at hresult
    cases hresult
  | ok out =>
    rw [hok] at hresult
    rw [Option.some.inj hresult]

end Vectors

open Registry Vectors in
/-- A settlement of the committed layouts' example stands on the records of the fixtures. -/
theorem settled_genuine_land : ∃ (p : Threads.Pool Connection Registry.State
      (Except HandleError Response)), ∃ e ∈ Accepted landEnded,
    e.msg.call = .settle 1 txData r signableS.sigma Vectors.settle.eta Vectors.settle.tAtt ∧
    ∃ registration ∈ Accepted landEnded, ∃ application ∈ Accepted landEnded,
      ∃ engagement ∈ Accepted landEnded,
        Behind landDeployment registration application engagement e 1 txData r ∧
        ∃ policy : SettlePolicy Unit, Genuine landRegistry loginCredentials true p landCircuits txData
          (engagement.block.timestamp + policy.utcOffsetSecs.toInt) := by
  obtain ⟨p, title, income, tenancy, h⟩ := exists_presented
  obtain ⟨e, he, hc⟩ := Option.map_eq_some_iff.mp accepted_landEnded.2.2
  have hmem := List.mem_of_getElem? he
  have hcollision := land_collisionFree
  rw [← landSystem_configs ()] at hmem hcollision ⊢
  have hsettled := (settled_genuine landCircomlib (landLibrary title income tenancy) landVerifier
    landRegistry loginCredentials true p landCircuits landHashed landCommitted .release
    (fun _ => landDeployment) (fun _ => 100000) landSystem landSystem_reachable () hcollision).2
    h.trust (Set.injOn_singleton _ _) landSystem_hashed h.signedBy
    fun tauLock hlock => by rw [← Option.some.inj hlock]; decide
  obtain ⟨registration, hr, application, ha, engagement, hg, hbehind, policy, -, hgenuine⟩ :=
    hsettled e hmem 1 txData r signableS.sigma Vectors.settle.eta Vectors.settle.tAtt hc
  exact ⟨p, e, hmem, hc, registration, hr, application, ha, engagement, hg, hbehind, policy,
    hgenuine⟩

end Pprev
