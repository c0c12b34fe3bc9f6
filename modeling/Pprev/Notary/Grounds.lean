import Pprev.Circuit.PhiA
import Pprev.Notary.Linkage
import Pprev.Registry.Sessions

/-!
# The grounds of signed statements

What the registry has on record if the policy verifier signs a statement: the opened commitments are
those of a notarised session with the registry, so that what a circuit decides about them it decides
about a record. The library, the keys of the proofs and the hashes are trusted for what they are
made for.
-/

namespace Pprev

open Evm Digits Gregorian Slice Threads

/-! ## The committed layouts and circuits -/

/-- Layouts of the sources with the fields that the circuits open, in the order in which the policy
verifier takes their hashes, and the multiple of the rent that an income has to reach. -/
structure Committed extends Sources where
  incomeWidth : ℕ
  multiple : ℕ
  income_fields : income.fields = [⟨"monthlyIncome", incomeWidth⟩]
  tenancy_fields : tenancy.fields = [⟨"propertyId", title.propertyIdWidth⟩,
    ⟨"tenant", income.accountWidth⟩, ⟨"recordDate", 10⟩]
  server_eq : income.serverName = title.serverName ∧ tenancy.serverName = title.serverName
  title_width : title.accountWidth ≤ 31
  income_le : incomeWidth ≤ 30
  multiple_lt : multiple * 2 ^ PHI_A_AMOUNT_BITS < 2 ^ CMP_BITS
  title_target : IsTarget title.pathPrefix
  income_target : IsTarget income.pathPrefix
  tenancy_target : IsTarget tenancy.pathPrefix

namespace Committed

/-- The parameters of the main component of an income layout. -/
def phiA (s : Committed) : PhiAParams where
  ACCOUNT_W := s.income.accountWidth
  INCOME_W := s.incomeWidth
  PAD := (s.pad.toNat : ℕ)
  MULTIPLE := (s.multiple : ℕ)
  AMOUNT_BITS := PHI_A_AMOUNT_BITS
  sizes := ⟨s.account_le.trans_lt (by decide), s.income_le.trans_lt (by decide), by decide⟩

variable {s : Committed}

/-- What was rendered of a tenancy fits its fields. -/
theorem padable_tenancy {account : String} {n : Registry.TenancyNotation} {r : RenderedRecord}
    (hr : s.tenancy.renderResponse account n.values = .ok r) :
    Padable n.propertyId s.title.propertyIdWidth ∧ Padable n.tenant s.income.accountWidth := by
  have hproperty : s.tenancy.fields[0]? = some ⟨"propertyId", s.title.propertyIdWidth⟩ := by
    rw [s.tenancy_fields]
    rfl
  have htenant : s.tenancy.fields[1]? = some ⟨"tenant", s.income.accountWidth⟩ := by
    rw [s.tenancy_fields]
    rfl
  exact ⟨(shows_field s.tenancy_padding hr hproperty rfl).1,
    (shows_field s.tenancy_padding hr htenant rfl).1⟩

/-- The word of a property is the one whose limbs its padded bytes have. -/
theorem word_of_limbs {property : String} (hproperty : Padable property s.title.propertyIdWidth)
    {limbs : ℕ → F} {word : Bytes32}
    (hlimbs : IsLimbs limbs (padded s.pad property s.title.propertyIdWidth ++
      List.replicate (32 - s.title.propertyIdWidth) 0))
    (hword : IsLimbs limbs (wordBytes word)) :
    s.title.propertyIdWord property = .ok (wordBytes word) ∧
      s.tenancy.word "propertyId" property = .ok (wordBytes word) := by
  have hlen : (padded s.pad property s.title.propertyIdWidth ++
      List.replicate (32 - s.title.propertyIdWidth) 0).length = 32 := by
    have hmem := s.property_mem
    rw [List.length_append, List.length_replicate, length_padded hproperty.2.2.2]
    omega
  rw [← hlimbs.unique hlen (length_wordBytes _) hword]
  exact s.word_eq hproperty

end Committed

theorem Layout.shape_serverName {l : Layout} {propertyId : String} {shape : ResponseShape}
    (h : l.shape propertyId = .ok shape) : shape.serverName = l.serverName := by
  obtain ⟨t, -, hok⟩ := bind_eq_ok.mp h
  rw [← Except.ok.inj hok]

theorem RecordLayout.shape_serverName {l : RecordLayout} {subject : String} {shape : ResponseShape}
    (h : l.shape subject = .ok shape) : shape.serverName = l.serverName := by
  obtain ⟨t, -, hok⟩ := bind_eq_ok.mp h
  rw [← Except.ok.inj hok]

/-- The public signals of the main component, in order. -/
def PhiRInputs.public (x : PhiRInputs) : List F :=
  [x.accountHash 0, x.accountHash 1, x.ownersHash 0, x.ownersHash 1, x.propertyHash 0,
    x.propertyHash 1, x.propertyId 0, x.propertyId 1, x.bind]

def PhiAInputs.public (x : PhiAInputs) : List F :=
  [x.accountHash 0, x.accountHash 1, x.incomeHash 0, x.incomeHash 1, x.cB, x.amount, x.bind]

def PhiSInputs.public (x : PhiSInputs) : List F :=
  [x.propertyHash 0, x.propertyHash 1, x.tenantHash 0, x.tenantHash 1, x.dateHash 0, x.dateHash 1,
    x.propertyId 0, x.propertyId 1, x.cB, x.engagementDay, x.bind]

/-- What the message and blinder signals are is among the inputs of the hash in use. -/
def Hashed (S : Set Bytes) (n : ℕ) (message blinder : ℕ → F) : Prop :=
  ∀ m b : Bytes, m.length = n → b.length = 16 → Holds message m → Holds blinder b → m ++ b ∈ S

/-- So are the inputs of a commitment to an identifier. -/
def CommitsIn (T : Set (F × F)) (n : ℕ) (identifier : ℕ → F) (salt : F) : Prop :=
  ∀ m : Bytes, m.length = n → Holds identifier m → ((packed m : F), salt) ∈ T

section

variable {sha256 : Bytes → Bytes} {poseidon : F → F → F} (lib : Circomlib sha256 poseidon)
  (s : Committed) (S : Set Bytes) (T : Set (F × F))

/-- The public signals of an instance of `PhiR`. -/
def RegisterInstance (pub : List F) : Prop :=
  ∃ x : PhiRInputs, PhiR lib s.title.params x ∧ x.public = pub ∧
    Hashed S s.title.accountWidth x.account x.accountBlinder ∧
    Hashed S s.title.params.ownersLen x.owners x.ownersBlinder ∧
    Hashed S s.title.propertyIdWidth x.property x.propertyBlinder

def ApplyInstance (pub : List F) : Prop :=
  ∃ x : PhiAInputs, PhiA lib s.phiA x ∧ x.public = pub ∧
    Hashed S s.income.accountWidth x.account x.accountBlinder ∧
    Hashed S s.incomeWidth x.income x.incomeBlinder ∧
    CommitsIn T s.income.accountWidth x.account x.salt

def SettleInstance (pub : List F) : Prop :=
  ∃ x : PhiSInputs,
    PhiS lib s.title.propertyIdWidth s.income.accountWidth (s.pad.toNat : ℕ) x ∧ x.public = pub ∧
    Hashed S s.title.propertyIdWidth x.property x.propertyBlinder ∧
    Hashed S s.income.accountWidth x.tenant x.tenantBlinder ∧
    Hashed S 10 x.date x.dateBlinder ∧
    CommitsIn T s.income.accountWidth x.tenant x.salt

end

/-- A key whose proofs are of instances. -/
def Groth16Verifier.Sound {Proof : Type} (key : Groth16Verifier Proof)
    (instances : List F → Prop) : Prop :=
  ∀ proof pub, key.verifyProof proof pub = some true →
    instances (pub.map fun x : Fin BN254_R => ((x.val : ℕ) : F))

theorem Groth16Verifier.Sound.of_verify {Proof : Type} {key : Groth16Verifier Proof}
    {instances : List F → Prop} (hkey : key.Sound instances) {proof : Proof} (numbers : List ℕ)
    (h : key.verify proof (numbers.map toString) = .ok true) :
    instances (numbers.map (Nat.cast : ℕ → F)) := by
  simp only [Groth16Verifier.verify, bind_eq_ok, mapM_field (show BN254_R ≤ 2 ^ 256 by decide)] at h
  obtain ⟨_, -, pub, rfl, h⟩ := h
  cases hproof : key.verifyProof proof pub with
  | none =>
    rw [hproof] at h
    cases h
  | some valid =>
    rw [hproof] at h
    obtain rfl := Except.ok.inj h
    rw [List.map_map]
    exact hkey proof pub hproof

/-- The bytes behind signals are the ones they were made of. -/
theorem hashed_signals {S : Set Bytes} {n : ℕ} {m b : Bytes} (hm : m.length = n)
    (hb : b.length = 16) (h : m ++ b ∈ S) : Hashed S n (signals m) (signals b) := by
  intro m' b' hm' hb' hholds hblinder
  rwa [hholds.unique (holds_signals m) (hm'.trans hm.symm),
    hblinder.unique (holds_signals b) (hb'.trans hb.symm)]

theorem commitsIn_signals {T : Set (F × F)} {n : ℕ} {m : Bytes} {salt : F} (hm : m.length = n)
    (h : ((packed m : F), salt) ∈ T) : CommitsIn T n (signals m) salt := by
  intro m' hm' hholds
  rwa [hholds.unique (holds_signals m) (hm'.trans hm.symm)]

/-! ## The values of a session -/

/-- A hash that opens to a value. -/
def Opened (sha256 : Bytes → Bytes) (S : Set Bytes) (value : Bytes) (hash : Bytes32) : Prop :=
  ∃ blinder : Bytes, blinder.length = 16 ∧ value ++ blinder ∈ S ∧
    wordBytes hash = sha256 (value ++ blinder)

section

variable {sha256 : Bytes → Bytes} {S : Set Bytes} {hash : Bytes32}

/-- What the circuit opens is the value of the session, as long as the hash does not collide. -/
theorem Opens.eq_value (hS : Set.InjOn sha256 S) (hlen : ∀ m, (sha256 m).length = 32) {n : ℕ}
    {message blinder limbs : ℕ → F} {m value : Bytes} (h : Opens sha256 n message blinder limbs m)
    (hmem : Hashed S n message blinder) (hlimbs : IsLimbs limbs (wordBytes hash))
    (hvalue : Opened sha256 S value hash) : m = value := by
  obtain ⟨hm, hholds, b, hb, hblinder, hhash⟩ := h
  obtain ⟨b', hb', hmem', hopen⟩ := hvalue
  have hsame : sha256 (m ++ b) = wordBytes hash :=
    hhash.unique (hlen _) (length_wordBytes _) hlimbs
  exact (List.append_inj' (hS (hmem m b hm hb hholds hblinder) hmem' (hsame.trans hopen))
    (hb.trans hb'.symm)).1

theorem Exchange.Has.values {x : Exchange} {shape : ResponseShape} {hashes : List Bytes32}
    (h : x.Has sha256 S shape hashes) (values : List Bytes)
    (hvalues : shape.hidden.map (fun range => range.part x.received) = values) :
    List.Forall₂ (Opened sha256 S) values hashes := by
  rw [← hvalues]
  exact List.forall₂_map_left_iff.mpr h.hidden

end

/-- The numbers of the halves of a word. -/
def limbNumbers (w : Bytes32) : List ℕ := [(limbs (wordBytes w)).1, (limbs (wordBytes w)).2]

/-! ## What is on record -/

section

variable {Presentation VerifyingKey Proof : Type} [DecidableEq VerifyingKey]
  {sha256 : Bytes → Bytes} {poseidon : F → F → F} (lib : Circomlib sha256 poseidon)
  (library : AttestationLibrary Presentation VerifyingKey) (v : PolicyVerifier VerifyingKey Proof)
  (R : Registry) (credentials : Bytes → Option Registry.Credentials) (overflowChecks : Bool)
  (p : Pool Registry.Connection Registry.State (Except Registry.HandleError Registry.Response))
  (s : Committed) (S : Set Bytes) (T : Set (F × F))

/-- An owner of a property was shown its title, having logged in. -/
def Owned (propertyId : Bytes32) : Prop :=
  ∃ account, ∃ record ∈ R.fixtures.records,
    (∃ r, s.title.renderResponse account record = .ok r ∧
      R.ShownTo credentials overflowChecks p account r.bytes) ∧
    (∃ o ∈ record.owners, padded s.pad o s.title.accountWidth =
      padded s.pad account s.title.accountWidth) ∧
    s.title.propertyIdWord record.propertyId = .ok (wordBytes propertyId)

/-- The commitment of an application is to an account that was shown its income, having logged in,
and the income is at least the multiple of the amount. -/
def Earned (poseidon : F → F → F) (x : Apply) : Prop :=
  ∃ record ∈ R.fixtures.incomes,
    (∃ r, s.income.renderResponse record.account [record.monthlyIncome] = .ok r ∧
      R.ShownTo credentials overflowChecks p record.account r.bytes) ∧
    (∃ salt, ((packed (padded s.pad record.account s.income.accountWidth) : F), salt) ∈ T ∧
      (x.cB.toNat : F) = poseidon (packed (padded s.pad record.account s.income.accountWidth))
        salt) ∧
    IsDecimal (padded s.pad record.monthlyIncome s.incomeWidth) ∧
    s.multiple * x.txData.amount.toNat ≤
      decimalValue (padded s.pad record.monthlyIncome s.incomeWidth)

/-- A tenancy of the property of a settlement was shown to an account that had logged in, and is of
a tenant that the commitment is to, and no earlier than the engagement day. -/
def Tenanted (poseidon : F → F → F) (x : Settle) : Prop :=
  ∃ n ∈ R.fixtures.tenancies,
    (∃ account r, s.tenancy.renderResponse account n.values = .ok r ∧
      R.ShownTo credentials overflowChecks p account r.bytes) ∧
    s.tenancy.word "propertyId" n.propertyId = .ok (wordBytes x.txData.propertyId) ∧
    (∃ salt, ((packed (padded s.pad n.tenant s.income.accountWidth) : F), salt) ∈ T ∧
      (x.cB.toNat : F) = poseidon (packed (padded s.pad n.tenant s.income.accountWidth)) salt) ∧
    ∃ policy tauLock day d, v.settlePolicies x.policyId = some policy ∧ v.tauLock = some tauLock ∧
      statementDay tauLock policy.utcOffsetSecs x.expiresAt = .ok day ∧ d.year < 10000 ∧
      padded s.pad n.recordDate 10 = dateText d ∧ day ≤ d.ymd

/-- What a statement is about is on record, and the record was shown. -/
def Grounded (poseidon : F → F → F) : Statement → Prop
  | .register x => Owned R credentials overflowChecks p s x.txData.propertyId
  | .apply x => Earned R credentials overflowChecks p s T poseidon x
  | .settle x => Tenanted v R credentials overflowChecks p s T poseidon x

/-- What the policy verifier relies on: it knows the registry by its layouts and its name, proofs
are of instances, and the presentations that verify are about sessions with the registry. The hash
does not collide on its inputs in use, and the clock of the notary is not at the end of time. -/
structure Trust : Prop where
  title : R.layout = s.title
  income : R.phases.income = some s.income
  tenancy : R.phases.tenancy = some s.tenancy
  routes : R.Routes
  serves : Threads.Runs (R.serve credentials overflowChecks) Registry.idle p
  register : ∀ id policy, v.policies id = some policy → policy.layout = s.title ∧
    policy.verifier.Sound (RegisterInstance lib s S)
  apply : ∀ id policy, v.applyPolicies id = some policy → policy.layout = s.income ∧
    policy.verifier.Sound (ApplyInstance lib s S T)
  settle : ∀ id policy, v.settlePolicies id = some policy → policy.layout = s.tenancy ∧
    policy.verifier.Sound (SettleInstance lib s S T)
  session : ∀ presentation output, library.verifyingKey presentation = v.attestationKey →
    library.Verifies v.rootCerts presentation output →
    output.serverName = some s.title.serverName →
      ∃ x, Registry.Session p x ∧ output.About sha256 S x
  clock : ∀ presentation output, library.Verifies v.rootCerts presentation output →
    ∀ tAtt, tAttOf output = .ok tAtt → tAtt.toNat + 5 < 2 ^ 64
  sha256 : Set.InjOn sha256 S

variable {lib library v R credentials overflowChecks p s S T}

/-- An accepted presentation is about a session that has the shape. -/
theorem Trust.exists_session
    (h : Trust lib library v R credentials overflowChecks p s S T) {shape : ResponseShape}
    (hs : shape.OfLayout) (hname : shape.serverName = s.title.serverName) {build : Build}
    {presentation : Presentation} {attested : AttestedShape}
    (hok : checkShape library build presentation (v.expectation shape) = .ok attested) :
    ∃ x, Registry.Session p x ∧ x.Has sha256 S shape attested.hiddenHashes := by
  obtain ⟨hkey, output, hverifies, hcheck⟩ := checkShape_eq_ok.mp hok
  have haccepted := (checkOutput_eq_ok hs.apart (h.clock presentation output hverifies)).mp hcheck
  obtain ⟨x, hx, habout⟩ :=
    h.session presentation output hkey hverifies (hname ▸ haccepted.identity)
  exact ⟨x, hx, haccepted.has hs.apart habout⟩

theorem line_notMem_of_padable {value : String} {width : ℕ} (h : Padable value width) :
    13 ∉ utf8 value := by
  intro hmem
  refine h.2.2.1 (List.any_eq_true.mpr ⟨13, hmem, by decide⟩)

theorem isTarget_of_isSubject {subject : String} (h : IsSubject subject) : IsTarget subject := by
  obtain ⟨-, -, hall⟩ := h
  have hnotMem {b : UInt8} (hb : ¬(isAsciiAlphanumeric b || b == 45) = true) : b ∉ utf8 subject :=
    fun hmem => hb (List.all_eq_true.mp hall b hmem)
  exact ⟨notMem_toList (b := 32) rfl (hnotMem (by decide)), hnotMem (by decide)⟩

variable {build : Build} {keccak256 : Bytes → Bytes32} {store : NonceStore}

theorem Trust.owned (h : Trust lib library v R credentials overflowChecks p s S T)
    {request : RegisterRequest Presentation Proof}
    (hp : v.PassesRegister keccak256 (checkShape library build) store request) :
    Owned R credentials overflowChecks p s request.statement.txData.propertyId := by
  obtain ⟨policy, shape, accountHash, ownersHash, propertyHash, hpolicy, -, hword, hshape, hcheck,
    hverify⟩ := hp
  obtain ⟨hlayout, hsound⟩ := h.register _ _ hpolicy
  rw [hlayout] at hword hshape
  obtain ⟨hpadding, hslots, hwidth, -⟩ := validate_eq_ok.mp s.title_valid
  have hs : shape.OfLayout := .title s.title_valid hshape
  obtain ⟨x, hx, hhas⟩ := h.exists_session hs (Layout.shape_serverName hshape) hcheck
  obtain ⟨-, hpadable, -⟩ := propertyIdWord_eq_ok hpadding.1 hword
  have htitle := h.title
  obtain ⟨account, record, r, hshown, hrecord, hr, hreceived, hhidden⟩ :=
    hx.shows_title h.serves h.routes (htitle ▸ s.title_valid) (htitle ▸ s.title_target)
      (line_notMem_of_padable hpadable) (htitle ▸ hshape) hhas
  rw [htitle] at hr
  have hview : ∃ r, s.title.renderResponse account record = .ok r ∧
    R.ShownTo credentials overflowChecks p account r.bytes := ⟨r, hr, hshown⟩
  obtain ⟨hren, rfl⟩ := (renderResponse_eq_ok s.title_valid).mp hr
  have hvalues := hhas.values [(s.title.values account record).account,
      (s.title.rendering (s.title.values account record)).part
        (s.title.rendering (s.title.values account record)).ranges.owners,
      (s.title.values account record).propertyId] (by
    rw [hhidden, hreceived, ← part_account hren.fits, ← part_propertyId hren.fits]
    rfl)
  obtain _ | ⟨hvalueA, _ | ⟨hvalueO, _ | ⟨hvalueP, -⟩⟩⟩ := hvalues
  obtain ⟨y, hphi, hpub, hmemA, hmemO, hmemP⟩ := hsound.of_verify
    (limbNumbers accountHash ++ limbNumbers ownersHash ++ limbNumbers propertyHash ++
      limbNumbers request.statement.txData.propertyId ++
      [packed (wordBytes (digest keccak256 (.register request.statement) v.domain)) % BN254_R])
    hverify
  simp only [PhiRInputs.public, limbNumbers, List.map_cons, List.map_nil, List.cons_append,
    List.nil_append, List.cons.injEq, and_true] at hpub
  obtain ⟨hA0, hA1, hO0, hO1, hP0, hP1, hword0, hword1, -⟩ := hpub
  obtain ⟨_, _, _, hopenA, hopenO, hopenP, hfirst, -, ⟨k, hk, hslot⟩, hlimbs⟩ :=
    (phiR_iff (p := s.title.params) hwidth s.title_width rfl rfl s.property_mem).mp hphi
  obtain rfl := hopenA.eq_value h.sha256 lib.length_sha256 hmemA ⟨hA0, hA1⟩ hvalueA
  obtain rfl := hopenO.eq_value h.sha256 lib.length_sha256 hmemO ⟨hO0, hO1⟩ hvalueO
  obtain rfl := hopenP.eq_value h.sha256 lib.length_sha256 hmemP ⟨hP0, hP1⟩ hvalueP
  have hslot' := (slice_part_slot hren.fits hk).symm.trans hslot
  obtain ⟨o, ho, howner⟩ := (exists_slot_iff hwidth hren hfirst).mp ⟨k, hk, hslot'⟩
  exact ⟨account, record, hrecord, hview, ⟨o, ho, howner⟩,
    (Committed.word_of_limbs hren.propertyId hlimbs ⟨hword0, hword1⟩).1⟩

theorem Trust.earned (h : Trust lib library v R credentials overflowChecks p s S T)
    {request : ApplyRequest Presentation Proof}
    (hp : v.PassesApply keccak256 (checkShape library build) store request) :
    Earned R credentials overflowChecks p s T poseidon request.statement := by
  obtain ⟨policy, shape, accountHash, incomeHash, hpolicy, -, hshape, hcheck, hamount, -,
    hverify⟩ := hp
  obtain ⟨hlayout, hsound⟩ := h.apply _ _ hpolicy
  rw [hlayout] at hshape
  have hs : shape.OfLayout := .record s.income_valid hshape
  have hname := (RecordLayout.shape_serverName hshape).trans s.server_eq.1
  obtain ⟨x, hx, hhas⟩ := h.exists_session hs hname hcheck
  obtain ⟨record, r, hshown, hrecord, hr, hreceived, hhidden⟩ :=
    hx.shows_income h.serves h.income s.income_valid s.income_target hshape hhas
  have hvalues := hhas.values
    [padded s.pad record.account s.income.accountWidth,
      padded s.pad record.monthlyIncome s.incomeWidth] (by
    rw [hhidden, hreceived, (RecordLayout.filled s.income_valid hr).map_values,
      RecordLayout.written, s.income_fields, s.income_paddingByte]
    rfl)
  obtain _ | ⟨hvalueA, _ | ⟨hvalueI, -⟩⟩ := hvalues
  obtain ⟨y, hphi, hpub, hmemA, hmemI, hmemC⟩ := hsound.of_verify
    (limbNumbers accountHash ++ limbNumbers incomeHash ++
      [request.statement.cB.toNat, request.statement.txData.amount.toNat,
        packed (wordBytes (digest keccak256 (.apply request.statement) v.domain)) % BN254_R])
    hverify
  simp only [PhiAInputs.public, limbNumbers, List.map_cons, List.map_nil, List.cons_append,
    List.nil_append, List.cons.injEq, and_true] at hpub
  obtain ⟨hA0, hA1, hI0, hI1, hcB, hamountEq, -⟩ := hpub
  obtain ⟨_, _, hopenA, hopenI, -, hcommit, -, hdecimal, hge⟩ := phiA_iff.mp hphi
  obtain rfl := hopenA.eq_value h.sha256 lib.length_sha256 hmemA ⟨hA0, hA1⟩ hvalueA
  obtain rfl := hopenI.eq_value h.sha256 lib.length_sha256 hmemI ⟨hI0, hI1⟩ hvalueI
  refine ⟨record, hrecord, ⟨r, hr, hshown⟩,
    ⟨y.salt, hmemC _ hopenA.1 hopenA.2.1, hcB.symm.trans hcommit⟩, hdecimal, ?_⟩
  have hproduct : s.phiA.MULTIPLE * y.amount =
      ((s.multiple * request.statement.txData.amount.toNat : ℕ) : F) := by
    rw [hamountEq, Nat.cast_mul]
    rfl
  have hincome : decimalValue (padded s.pad record.monthlyIncome s.incomeWidth) < 2 ^ CMP_BITS := by
    have hlt := decimalValue_lt hdecimal
    rw [hopenI.1] at hlt
    exact hlt.trans_le ((Nat.pow_le_pow_right (by decide) s.income_le).trans (by decide))
  have hsmall : s.multiple * request.statement.txData.amount.toNat < 2 ^ CMP_BITS :=
    (Nat.mul_le_mul_left _ hamount.le).trans_lt s.multiple_lt
  rw [hproduct] at hge
  exact flag_eq_one.mp ((lib.greaterEqThan_iff (by decide) hincome hsmall).mp hge).symm

/-- What the constraints of `PhiS` say about byte strings. -/
theorem phiS_iff {PROPERTY_W TENANT_W : ℕ} {PAD : F} {y : PhiSInputs}
    (hw : 17 ≤ PROPERTY_W ∧ PROPERTY_W ≤ 32) : PhiS lib PROPERTY_W TENANT_W PAD y ↔
      ∃ property tenant date : Bytes,
        Opens sha256 PROPERTY_W y.property y.propertyBlinder y.propertyHash property ∧
        Opens sha256 TENANT_W y.tenant y.tenantBlinder y.tenantHash tenant ∧
        Opens sha256 10 y.date y.dateBlinder y.dateHash date ∧
        IsLimbs y.propertyId (property ++ List.replicate (32 - PROPERTY_W) 0) ∧
        y.tenant 0 ≠ PAD ∧ y.cB = poseidon (packed tenant) y.salt ∧
        ∃ (d : Date) (day : ℕ), d.year < 10000 ∧ date = dateText d ∧ y.engagementDay = day ∧
          day < 2 ^ 27 ∧ day ≤ d.ymd := by
  have hymd {d : Date} (hy : d.year < 10000) : d.ymd < 2 ^ 27 :=
    lt_trans (Date.ymd_lt hy) (by decide)
  constructor
  · rintro ⟨_, _, _, _, hopenP, hopenT, hopenD, hword, hpad, hcommit, hdate, hrange, hge, rfl, -⟩
    obtain ⟨property, hP⟩ := openTo_iff.mp hopenP
    obtain ⟨tenant, hT⟩ := openTo_iff.mp hopenT
    obtain ⟨date, hD⟩ := openTo_iff.mp hopenD
    obtain ⟨d, hy, htext, rfl⟩ := (calendarDate_iff hD.2.1 hD.1).mp hdate
    obtain ⟨day, hday, heq⟩ := lib.num2Bits_range.mp ⟨_, hrange⟩
    rw [heq] at hge
    refine ⟨property, tenant, date, hP, hT, hD, ?_, notPadding_iff.mp hpad, ?_, d, day, hy, htext,
      heq, hday, flag_eq_one.mp ((lib.greaterEqThan_iff (by decide) (hymd hy) hday).mp hge).symm⟩
    · rw [← hP.1] at hword hw ⊢
      exact (propertyWord_iff hP.2.1 hw).mp hword
    · rw [← hT.1] at hcommit
      exact (commitmentTo_iff hT.2.1).mp hcommit
  · rintro ⟨property, tenant, date, hP, hT, hD, hword, hpad, hcommit, d, day, hy, htext, heq, hday,
      hle⟩
    obtain ⟨dayRange, hrange⟩ := lib.num2Bits_range.mpr ⟨day, hday, heq⟩
    refine ⟨d.ymd, dayRange, 1, y.bind * y.bind, openTo_iff.mpr ⟨_, hP⟩, openTo_iff.mpr ⟨_, hT⟩,
      openTo_iff.mpr ⟨_, hD⟩, ?_, notPadding_iff.mpr hpad, ?_,
      (calendarDate_iff hD.2.1 hD.1).mpr ⟨d, hy, htext, rfl⟩, hrange, ?_, rfl, rfl⟩
    · rw [← hP.1] at hword hw ⊢
      exact (propertyWord_iff hP.2.1 hw).mpr hword
    · rw [← hT.1]
      exact (commitmentTo_iff hT.2.1).mpr hcommit
    · rw [heq]
      exact (lib.greaterEqThan_iff (by decide) (hymd hy) hday).mpr (flag_eq_one.mpr hle).symm

theorem Trust.tenanted (h : Trust lib library v R credentials overflowChecks p s S T)
    {request : SettleRequest Presentation Proof}
    (hp : v.PassesSettle keccak256 (checkShape library build) store request) :
    Tenanted v R credentials overflowChecks p s T poseidon request.statement := by
  obtain ⟨policy, tauLock, day, shape, accountHash, propertyHash, tenantHash, dateHash, hpolicy,
    htau, -, hsubject, hday, hshape, hcheck, hday27, -, hverify⟩ := hp
  obtain ⟨hlayout, hsound⟩ := h.settle _ _ hpolicy
  rw [hlayout] at hshape
  have hs : shape.OfLayout := .record s.tenancy_valid hshape
  have hname := (RecordLayout.shape_serverName hshape).trans s.server_eq.2
  obtain ⟨x, hx, hhas⟩ := h.exists_session hs hname hcheck
  obtain ⟨account, n, r, hshown, hn, -, hr, hreceived, hhidden⟩ :=
    hx.shows_tenancy h.serves h.routes h.tenancy s.tenancy_valid s.tenancy_target
      (isTarget_of_isSubject hsubject) hshape hhas
  have hvalues := hhas.values
    [padded s.pad account s.tenancy.accountWidth,
      padded s.pad n.propertyId s.title.propertyIdWidth,
      padded s.pad n.tenant s.income.accountWidth, padded s.pad n.recordDate 10] (by
    rw [hhidden, hreceived, (RecordLayout.filled s.tenancy_valid hr).map_values,
      RecordLayout.written, s.tenancy_fields, s.tenancy_paddingByte]
    rfl)
  obtain _ | ⟨-, _ | ⟨hvalueP, _ | ⟨hvalueT, _ | ⟨hvalueD, -⟩⟩⟩⟩ := hvalues
  obtain ⟨y, hphi, hpub, hmemP, hmemT, hmemD, hmemC⟩ := hsound.of_verify
    (limbNumbers propertyHash ++ limbNumbers tenantHash ++ limbNumbers dateHash ++
      limbNumbers request.statement.txData.propertyId ++ [request.statement.cB.toNat, day,
        packed (wordBytes (digest keccak256 (.settle request.statement) v.domain)) % BN254_R])
    hverify
  simp only [PhiSInputs.public, limbNumbers, List.map_cons, List.map_nil, List.cons_append,
    List.nil_append, List.cons.injEq, and_true] at hpub
  obtain ⟨hP0, hP1, hT0, hT1, hD0, hD1, hword0, hword1, hcB, hdayEq, -⟩ := hpub
  obtain ⟨_, _, _, hopenP, hopenT, hopenD, hlimbs, -, hcommit, d, day', hy, hdate, hdayEq', hday27',
    hle⟩ := (phiS_iff s.property_mem).mp hphi
  obtain rfl := hopenP.eq_value h.sha256 lib.length_sha256 hmemP ⟨hP0, hP1⟩ hvalueP
  obtain rfl := hopenT.eq_value h.sha256 lib.length_sha256 hmemT ⟨hT0, hT1⟩ hvalueT
  obtain rfl := hopenD.eq_value h.sha256 lib.length_sha256 hmemD ⟨hD0, hD1⟩ hvalueD
  have h27 : 2 ^ 27 < BN254_R := by decide
  obtain rfl : day = day' := (natCast_inj (hday27.trans h27) (hday27'.trans h27)).mp
    (hdayEq.symm.trans hdayEq')
  have hword := Committed.word_of_limbs (Committed.padable_tenancy hr).1 hlimbs ⟨hword0, hword1⟩
  exact ⟨n, hn, ⟨account, r, hr, hshown⟩, hword.2,
    ⟨y.salt, hmemC _ hopenT.1 hopenT.2.1, hcB.symm.trans hcommit⟩, policy, tauLock, day, d,
    hpolicy, htau, hday, hy, hdate, hle⟩

/-- Whatever passes is on record. -/
theorem Trust.grounded (h : Trust lib library v R credentials overflowChecks p s S T)
    {request : Request Presentation Proof}
    (hp : v.Passes keccak256 (checkShape library build) store request) :
    Grounded v R credentials overflowChecks p s T poseidon request.statement := by
  cases request with
  | register request => exact h.owned hp
  | apply request => exact h.earned hp
  | settle request => exact h.tenanted hp

/-- Whatever is signed passed. -/
theorem Trust.grounded_of_signed (h : Trust lib library v R credentials overflowChecks p s S T)
    {requests : List (Request Presentation Proof)} {a : Served Presentation Proof ShapeError}
    (ha : a ∈ v.serve keccak256 (checkShape library build) store requests) {sigma : Bytes}
    (hsigma : a.result = .ok sigma) :
    Grounded v R credentials overflowChecks p s T poseidon a.request.statement := by
  have hsign := PolicyVerifier.sign_of_mem_serve ha
  obtain ⟨hp, -⟩ | ⟨-, e, hrefused⟩ := @PolicyVerifier.sign_cases _ _ _ _ keccak256
    (checkShape library build) v a.before a.request
  · exact h.grounded hp
  · cases hsigma.symm.trans (Prod.mk.inj (hsign.symm.trans hrefused)).1

end

/-- **What is signed is on record.** Whatever the requests, and whoever makes them, a statement that
the policy verifier signs is about a record of the registry that a connection with the token of an
account was shown: an owner registers the property, an account with the income applies, and a
settlement is of a tenancy that was recorded no earlier than the engagement day. -/
theorem signed_grounded {Presentation VerifyingKey Proof : Type} [DecidableEq VerifyingKey]
    {sha256 : Bytes → Bytes} {poseidon : F → F → F} (lib : Circomlib sha256 poseidon)
    (library : AttestationLibrary Presentation VerifyingKey) (v : PolicyVerifier VerifyingKey Proof)
    (R : Registry) (credentials : Bytes → Option Registry.Credentials) (overflowChecks : Bool)
    (p : Pool Registry.Connection Registry.State (Except Registry.HandleError Registry.Response))
    (s : Committed) (S : Set Bytes) (T : Set (F × F))
    (htrust : Trust lib library v R credentials overflowChecks p s S T)
    (keccak256 : Bytes → Bytes32) (build : Build) (store : NonceStore)
    (requests : List (Request Presentation Proof)) :
    ∀ a ∈ v.serve keccak256 (checkShape library build) store requests,
      ∀ sigma, a.result = .ok sigma →
        Grounded v R credentials overflowChecks p s T poseidon a.request.statement := by
  intro a ha sigma hsigma
  exact htrust.grounded_of_signed ha hsigma

/-! ## A market over the committed layouts -/

namespace Vectors

open Registry

/-- The parameters of the committed circuits. -/
def landCircuits : Committed where
  toSources := sources
  incomeWidth := 20
  multiple := 3
  income_fields := rfl
  tenancy_fields := rfl
  server_eq := ⟨rfl, rfl⟩
  title_width := by decide
  income_le := by decide
  multiple_lt := by decide
  title_target := ⟨by decide, by decide⟩
  income_target := ⟨by decide, by decide⟩
  tenancy_target := ⟨by decide, by decide⟩

/-! ### The registry -/

def tenantConnection : Connection :=
  ⟨[utf8 "POST /login HTTP/1.1\r\nContent-Length: 50\r\n\r\n", utf8 tenantBody],
    List.replicate 32 205⟩

def tenantToken : String := "cdcdcdcdcdcdcdcdcdcdcdcdcdcdcdcdcdcdcdcdcdcdcdcdcdcdcdcdcdcdcdcd"

def incomeSent : Bytes :=
  utf8 ("GET /income HTTP/1.1\r\nauthorization: Bearer " ++ tenantToken ++ "\r\n\r\n")

def notationSent : Bytes :=
  utf8 ("GET /tenancy/N-0001 HTTP/1.1\r\nauthorization: Bearer " ++ loginToken ++ "\r\n\r\n")

def tenantReads : Reads tenantConnection.chunks :=
  ⟨⟨"POST", "/login", [("Content-Length", "50")], utf8 tenantBody⟩, by decide +kernel⟩

def incomeReads : Reads [incomeSent] :=
  ⟨⟨"GET", "/income", [("authorization", "Bearer " ++ tenantToken)], []⟩, by decide +kernel⟩

def notationReads : Reads [notationSent] :=
  ⟨⟨"GET", "/tenancy/N-0001", [("authorization", "Bearer " ++ loginToken)], []⟩,
    by decide +kernel⟩

theorem source_income :
    landRegistry.source incomeReads.request.target = some (.income incomeLayout) :=
  Registry.source_income (R := landRegistry) rfl

theorem landRoutes : landRegistry.Routes where
  income l hl := by
    obtain rfl := Option.some.inj hl
    refine ⟨by decide +kernel, fun tenancy htenancy => ?_⟩
    obtain rfl := Option.some.inj htenancy
    decide +kernel
  tenancy l hl := by
    obtain rfl := Option.some.inj hl
    exact ⟨by decide +kernel, by decide +kernel⟩

theorem source_notation : landRegistry.source notationReads.request.target =
    some (.tenancy tenancyLayout "N-0001") :=
  landRoutes.source_tenancy rfl "N-0001"

/-- The records that the three sessions are about. -/
theorem exists_views : ∃ (title : Rendered) (income tenancy : RenderedRecord),
    titleLayout.renderResponse account titleRecord = .ok title ∧
    incomeLayout.renderResponse tenantAccount ["03500000000000000000"] = .ok income ∧
    tenancyLayout.renderResponse account ["TR-06-CANKAYA-000123", tenantAccount, "2026-10-21"] =
      .ok tenancy ∧
    landRegistry.view account (.title titleRecord.propertyId) = some title.bytes ∧
    landRegistry.view tenantAccount (.income incomeLayout) = some income.bytes ∧
    landRegistry.view account (.tenancy tenancyLayout "N-0001") = some tenancy.bytes := by
  obtain ⟨title, htitle, hview⟩ := exists_view_title
  obtain ⟨income, hincome⟩ := landRegistry.renders.income incomeLayout rfl
    ⟨tenantAccount, "03500000000000000000"⟩ (List.mem_cons_of_mem _ List.mem_cons_self)
  obtain ⟨tenancy, htenancy⟩ := landRegistry.renders.tenancy tenancyLayout rfl
    ⟨"N-0001", "TR-06-CANKAYA-000123", tenantAccount, "2026-10-21"⟩ List.mem_cons_self
    ⟨account, "owner-one"⟩ List.mem_cons_self
  refine ⟨title, income, tenancy, htitle, hincome, htenancy, hview, ?_, ?_⟩
  · have hfind : landRegistry.findIncome tenantAccount =
        some ⟨tenantAccount, "03500000000000000000"⟩ := by
      simp [findIncome, landRegistry, fixtures, tenantAccount]
    rw [view, hfind, Option.bind_some, hincome]
    rfl
  · have hfind : landRegistry.findTenancy "N-0001" =
        some ⟨"N-0001", "TR-06-CANKAYA-000123", tenantAccount, "2026-10-21"⟩ := by
      simp [findTenancy, landRegistry, fixtures]
    rw [view, hfind, Option.bind_some, htenancy]
    rfl

/-- The registry after two logins and the three requests. -/
def landPool (title income tenancy : Bytes) :
    Pool Connection Registry.State (Except HandleError Response) :=
  ⟨⟨[(tenantToken, tenantAccount), (loginToken, account)], [title, income, tenancy]⟩,
    [⟨loginConnection, .done (.ok (tokenResponse loginToken))⟩,
      ⟨tenantConnection, .done (.ok (tokenResponse tenantToken))⟩,
      ⟨titleConnection, .done (.ok ⟨title⟩)⟩, ⟨⟨[incomeSent], []⟩, .done (.ok ⟨income⟩)⟩,
      ⟨⟨[notationSent], []⟩, .done (.ok ⟨tenancy⟩)⟩]⟩

theorem runs_landPool {title income tenancy : Bytes}
    (htitle : landRegistry.view account (.title titleRecord.propertyId) = some title)
    (hincome : landRegistry.view tenantAccount (.income incomeLayout) = some income)
    (htenancy : landRegistry.view account (.tenancy tenancyLayout "N-0001") = some tenancy) :
    Threads.Runs (landRegistry.serve loginCredentials true) idle
      (landPool title income tenancy) := by
  have htoken : tokenOf tenantConnection.raw = tenantToken := by decide +kernel
  have hcreds : loginCredentials tenantReads.request.body = some ⟨tenantAccount, "tenant"⟩ := by
    decide +kernel
  have hbearer : bearer (titleReads.request.header "authorization") = some loginToken ∧
      bearer (incomeReads.request.header "authorization") = some tenantToken ∧
      bearer (notationReads.request.header "authorization") = some loginToken := by decide +kernel
  have htokens : [(tenantToken, tenantAccount), (loginToken, account)].lookup loginToken =
        some account ∧
      [(tenantToken, tenantAccount), (loginToken, account)].lookup tenantToken =
        some tenantAccount := by decide +kernel
  have hlogin := run_login (R := landRegistry) (s := loggedIn.shared) tenantReads.handle_eq
    ⟨rfl, rfl⟩ hcreds (by decide +kernel)
  rw [htoken] at hlogin
  exact (((runs_loggedIn.next hlogin).next (run_shown titleReads.handle_eq rfl hbearer.1 htokens.1
    source_title htitle)).next (run_shown (c := ⟨[incomeSent], []⟩) incomeReads.handle_eq rfl
      hbearer.2.1 htokens.2 source_income hincome)).next (run_shown (c := ⟨[notationSent], []⟩)
        notationReads.handle_eq rfl hbearer.2.2 htokens.1 source_notation htenancy)

/-! ### The sessions -/

def bytes16 (n : ℕ) : Bytes := (littleEndian 16 n).reverse

/-- The blinders of the session of the income. -/
def incomeBlinders : List Bytes :=
  [bytes16 0x71b6dcd19ac6b8a54e20de6030a40d66, bytes16 0xaa97b1d410e2879bd62b4a8e3f5968b2,
    bytes16 0x6b9f491477644c51981f6fe2fa1ed0a8, bytes16 0x764ecd4360fe1279874a248110707f62]

def notationBlinders : List Bytes :=
  [bytes16 0x41afbf342c927c94bfd0ab4e8f061183, bytes16 0x8b816267f758cade568c211db9e7376f,
    bytes16 0x05050505050505050505050505050505, bytes16 0xd5eda3896ec3b22c322a011ddf13e05c,
    bytes16 0x5e697687d1a7645e4e07dc20299421a7, bytes16 0xfc6fbe437cbc03799446891a1d0a95fc]

def incomeTexts : List Bytes :=
  [utf8 "GET /income HTTP/1.1",
    utf8 ("HTTP/1.1 200 OKContent-Type: application/json\"account\":\"record\":" ++
      "\"monthlyIncome\":"),
    utf8 tenantAccount, utf8 "03500000000000000000"]

def notationTexts : List Bytes :=
  [utf8 "GET /tenancy/N-0001 HTTP/1.1",
    utf8 ("HTTP/1.1 200 OKContent-Type: application/json\"account\":\"record\":" ++
      "\"propertyId\":\"tenant\":\"recordDate\":"),
    utf8 account, utf8 "TR-06-CANKAYA-000123", utf8 tenantAccount, utf8 "2026-10-21"]

/-- SHA-256 on what the three sessions commit to. -/
def landTexts : List (Bytes × Bytes32) :=
  sessionTexts ++ (List.zipWith (· ++ ·) incomeTexts incomeBlinders ++
    List.zipWith (· ++ ·) notationTexts notationBlinders).zip
  [0xe331c316cc44e674f1c9a2da1b76a26eab377fb8ed086f7004f645c30319106b,
    0x85b1823fa188a0c3331311c7a70b173d801b3de26f56c4e3114a131ae2224563,
    0xe440575eef4f9b37820044bcf883e660dc6491c70c86b1a909f975071dbac838,
    0x17577bc35c951de82b4de8f15e350c7d224c15eb7b3c976a307e4f13d33dc965,
    0xa687f23ab8f304b96af0dac64c637a6bc063ec4dd8a9e4279de2d763872d10c1,
    0x0a2ac187c551f7b60ea5687d0eccdd826e99c39925e46ab6d779ec733166f819,
    0x4acf57f51d693f430fd466dd494be9a67082ea162e0577e064f0d89180931a07,
    0xb4673f8c54e4630cb8d3d739482c4cd0d02b317aecccf2df2c53b8012667c7d1,
    0xc99a7cd6df30c5f562f416025e5efbe58113b04ecee0dc9b9be0c91cbe5a273a,
    0x43aec26b34770c290de7b5ed8b2a23c581f322fa983db29c82c7a6915fc3e5da]

def landWord (m : Bytes) : Bytes32 := (landTexts.lookup m).getD 0

def landSha256 (m : Bytes) : Bytes := wordBytes (landWord m)

/-- The inputs of the hash. -/
def landHashed : Set Bytes := {m | m ∈ landTexts.map Prod.fst}

theorem mem_landHashed {m : Bytes} (h : m ∈ landTexts.map Prod.fst) : m ∈ landHashed := h

theorem landSha256_injOn : Set.InjOn landSha256 landHashed := by
  have hall : ∀ m ∈ landTexts.map Prod.fst, ∀ m' ∈ landTexts.map Prod.fst,
      landWord m = landWord m' → m = m' := by decide +kernel
  exact fun m hm m' hm' heq => hall m hm m' hm' (wordBytes_injective heq)

/-- The session about a record. -/
theorem exists_recordSession {l : RecordLayout} (hl : l.validate = .ok ()) {account : String}
    {values : List String} {r : RenderedRecord} (hr : l.renderResponse account values = .ok r)
    (subject : String) (sent : Bytes) (hsent : utf8 (l.requestLine subject ++ "\r\n") <+: sent)
    (hlt : Template.width l.pieces < 2 ^ 32) (first second : Bytes) (rest : List Bytes)
    (hrest : rest.length = (l.written account values).length)
    (hblinders : ∀ b ∈ first :: second :: rest, b.length = 16) (tAtt time : Uint64)
    (hfits : tAtt.toNat + 5 < 2 ^ 64) (hbefore : time.toNat ≤ tAtt.toNat + 5)
    (hafter : tAtt.toNat ≤ time.toNat + (300 : Uint64).toNat) (word : Bytes → Bytes32) :
    ∃ (shape : ResponseShape) (output : PresentationOutput), l.shape subject = .ok shape ∧
      tAttOf output = .ok tAtt ∧
      (∀ build, checkOutput build output shape 300 = .ok ⟨tAtt,
        List.zipWith (fun value b => word (value ++ b)) (l.written account values) rest⟩) ∧
      output.About (fun m => wordBytes (word m)) {m | m ∈ List.zipWith (· ++ ·)
        (utf8 (l.requestLine subject) :: (Template.markedTexts l.pieces).flatten ::
          l.written account values) (first :: second :: rest)} ⟨sent, r.bytes⟩ := by
  obtain ⟨t, ht⟩ := RecordLayout.exists_template hl
  obtain ⟨shape, hshape⟩ : ∃ shape, l.shape subject = .ok shape := ⟨_, bind_eq_ok.mpr ⟨t, ht, rfl⟩⟩
  obtain ⟨hfollows, hline, -, hhidden⟩ := RecordLayout.follows hl hshape hr
  have hvalues : (shape.hidden.map fun range => range.part r.bytes) = l.written account values := by
    rw [hhidden, (RecordLayout.filled hl hr).map_values]
  have hlen : rest.length = shape.hidden.length := by
    rw [hrest, ← hvalues, List.length_map]
  have hproved : prover (first :: second :: rest) (commitConfig shape) =
      some (secretsOf (commitConfig shape) (first :: second :: rest)) := by
    refine prover_eq_some.mpr ⟨⟨?_, hblinders⟩, rfl⟩
    simp [commitConfig, hlen]
  have hs : shape.OfLayout := .record hl hshape
  have hlt' : shape.len < 2 ^ 32 := by
    rw [← hfollows.length, (RecordLayout.filled hl hr).length]
    exact hlt
  rw [← hline] at hsent
  obtain ⟨notarized, output, -, hpresents, hchecked, habout⟩ :=
    exists_session (x := ⟨sent, r.bytes⟩) hs hlt' hsent hfollows first
      second rest hlen (prover_proves _) hproved tAtt time 300 hfits hbefore hafter word
  rw [RecordLayout.committedTexts_eq hl hshape hr] at habout
  refine ⟨shape, output, hshape, hpresents.tAttOf_eq, fun build => ?_, habout⟩
  rw [hchecked build, hvalues]

/-! ### The circuits -/

/-- A key with proofs of one instance. -/
def instanceKey (numbers : List ℕ) : Groth16Verifier Unit where
  nPublic := numbers.length
  verifyProof _ pub := some (pub.map Fin.val = numbers)

theorem instanceKey_sound {numbers : List ℕ} {instances : List F → Prop}
    (h : instances (numbers.map Nat.cast)) : (instanceKey numbers).Sound instances := by
  intro proof pub hverify
  have hpub : pub.map Fin.val = numbers := of_decide_eq_true (Option.some.inj hverify)
  rw [← hpub, List.map_map] at h
  exact h

theorem instanceKey_verify {numbers : List ℕ} (h : ∀ n ∈ numbers, n < BN254_R) :
    (instanceKey numbers).verify () (numbers.map toString) = .ok true := by
  have hpub : numbers = (numbers.pmap Fin.mk h).map Fin.val := by
    rw [List.map_pmap]
    simp
  have hmap := (mapM_field (show BN254_R ≤ 2 ^ 256 by decide)).mpr hpub
  simp only [Groth16Verifier.verify, instanceKey, List.length_map, ensure, if_true, hmap, bind,
    Except.bind, ← hpub, decide_true]

/-- The number of the commitment to the account of the tenant. -/
def landCommitment : Bytes32 := 0x284499dc46404c73edbc0bee489dbab39fdb3dbc90ef863ddffe305d4f305eb7

def landSalt : F :=
  (6155700607483137768597558587982183853286003406201049487049546439071843840646 : ℕ)

/-- Poseidon on the account and the salt. -/
def landPoseidon (a b : F) : F :=
  if a = (packed (utf8 tenantAccount) : ℕ) ∧ b = landSalt then (landCommitment.toNat : ℕ) else 0

def landCircomlib : Circomlib landSha256 landPoseidon :=
  .documented _ _ (fun _ => length_wordBytes _) fun _ _ _ => False

/-- The inputs of Poseidon. -/
def landCommitted : Set (F × F) := {(((packed (utf8 tenantAccount) : ℕ) : F), landSalt)}

/-! ### The statements -/

def landRegister : Register := ⟨cTx, txData, policyIdR, owner, register.eta, register.tAtt⟩

def landApply : Apply :=
  ⟨1, cTx, txData, landCommitment, policyIdA, applicant, applyFor.eta, applyFor.tAtt⟩

def landSettle : Settle :=
  ⟨1, 1, cTx, txData, landCommitment, 1761209700, policyIdS, owner, settle.eta, settle.tAtt⟩

def landDomain : Domain := ⟨chainid, contract⟩

def landApplyDigest : Bytes32 :=
  0x96c5c9937d461780743cbc2df52d670f0902f0cc212ae1ce70fb90e5ce51df82

def landSettleDigest : Bytes32 :=
  0xf593fea7c5956dd2fc155a018ed6c8d3f39c619679179f50fe855237e4cc0745

/-- The Keccak-256 hashes for the statements with the commitment. -/
def landHashes : List (Bytes × Bytes32) :=
  let applyType := 0xac971b5a279b5956a0fea8edda0301ed8b2457fcf48cc5ae877a77fcca6d9352
  let settleType := 0xc7f81a220b787573505743fb8e18492f46233b65162bfcc4ebd413b62766fc74
  let applyHash := 0xf581dde102844036ee6d723575fa8d711dda14108db2d1af2bb7558aeff619bf
  let settleHash := 0x729b5a14d85f0a12f0a7a6bcf9242d7ded03685ca1904484a65081f830db0c18
  [(abiEncode (applyType :: { applyFor with cB := landCommitment }.words), applyHash),
    (abiEncode (settleType :: { settle with cB := landCommitment }.words), settleHash),
    (typedDataInput separator applyHash, landApplyDigest),
    (typedDataInput separator settleHash, landSettleDigest)]

def landKeccak (x : Bytes) : Bytes32 := ((hashes ++ landHashes).lookup x).getD 0

/-- A statement with its digest and a signature of the test key on it. -/
structure Signable (x : Statement) where
  out : Bytes32
  sigma : Bytes
  digest_eq : digest landKeccak x landDomain = out

/-- The signature is that of `test-vectors/notary-signature.json`. -/
def signableR : Signable (.register landRegister) where
  out := registerDigest
  sigma := wordBytes 0xae9301e3c48ffcedc5e2fb76a80b30fb346ee47eff3569ed5ab18c8d840ee264 ++
    wordBytes 0x2836546dea6ebc2503505e87534ec965d946c68353635d16c21bdf79ac39b5e4 ++ [0x1b]
  digest_eq := by decide +kernel

def signableA : Signable (.apply landApply) where
  out := landApplyDigest
  sigma := wordBytes 0x4b03d26f8a25306cf1747ca6cf54b7759e0d81e8484661179149a2053bce69d8 ++
    wordBytes 0x2738fed294504baa662d3039751d2d8cff4f9bd55e64dbcf23377f142ad41769 ++ [0x1c]
  digest_eq := by decide +kernel

def signableS : Signable (.settle landSettle) where
  out := landSettleDigest
  sigma := wordBytes 0x81843c00d14a51b2dc717a78f4a34b0340f8b7324e4a80e56294ad349fae0f68 ++
    wordBytes 0x1dc630899d1c4c0ef5f41415d1b4adb32bfce9d744ec07ec409453fcdb5c9e85 ++ [0x1b]
  digest_eq := by decide +kernel

def landSignatures : List (Bytes32 × Bytes) :=
  [(signableR.out, signableR.sigma), (signableA.out, signableA.sigma),
    (signableS.out, signableS.sigma)]

/-! ### The instances -/

def titleHash (i : ℕ) (value : Bytes) : Bytes32 :=
  landWord (value ++ List.replicate 16 (UInt8.ofNat i))

def landR : PhiRInputs where
  accountHash := limbSignals (wordBytes (titleHash 2 (utf8 account)))
  ownersHash := limbSignals (wordBytes (titleHash 3 (utf8 ownersText)))
  propertyHash := limbSignals (wordBytes (titleHash 4 (utf8 titleRecord.propertyId)))
  propertyId := limbSignals (wordBytes txData.propertyId)
  bind := (packed (wordBytes signableR.out) % BN254_R : ℕ)
  account := signals (utf8 account)
  owners := signals (utf8 ownersText)
  property := signals (utf8 titleRecord.propertyId)
  accountBlinder := signals (List.replicate 16 2)
  ownersBlinder := signals (List.replicate 16 3)
  propertyBlinder := signals (List.replicate 16 4)

def registerNumbers : List ℕ :=
  limbNumbers (titleHash 2 (utf8 account)) ++ limbNumbers (titleHash 3 (utf8 ownersText)) ++
    limbNumbers (titleHash 4 (utf8 titleRecord.propertyId)) ++ limbNumbers txData.propertyId ++
    [packed (wordBytes signableR.out) % BN254_R]

/-- The word of the property. -/
theorem land_word : IsLimbs (limbSignals (wordBytes txData.propertyId))
    (utf8 titleRecord.propertyId ++ List.replicate 12 0) := by
  have hword : wordBytes txData.propertyId =
      utf8 titleRecord.propertyId ++ List.replicate 12 0 := by decide +kernel
  rw [hword]
  exact isLimbs_limbSignals _

theorem register_instance :
    RegisterInstance landCircomlib landCircuits landHashed (registerNumbers.map Nat.cast) := by
  refine ⟨landR, (phiR_iff (by decide) (by decide) rfl rfl (by decide)).mpr
    ⟨utf8 account, utf8 ownersText, utf8 titleRecord.propertyId,
      (opens_signals_iff (by decide +kernel) rfl).mpr rfl,
      (opens_signals_iff (by decide +kernel) rfl).mpr rfl,
      (opens_signals_iff (by decide +kernel) rfl).mpr rfl, by decide +kernel, ?_,
      ⟨0, by decide, by decide +kernel⟩, land_word⟩, rfl, ?_, ?_, ?_⟩
  · have hseparators : ∀ k < 3, slice (utf8 ownersText) (k * 19 + 16) 3 = slotSeparator := by
      decide +kernel
    exact fun k hk => hseparators k (Nat.lt_of_succ_lt_succ hk)
  · exact hashed_signals (by decide +kernel) rfl (mem_landHashed (by decide +kernel))
  · exact hashed_signals (by decide +kernel) rfl (mem_landHashed (by decide +kernel))
  · exact hashed_signals (by decide +kernel) rfl (mem_landHashed (by decide +kernel))

def accountHash : Bytes32 :=
  landWord (utf8 tenantAccount ++ bytes16 0x6b9f491477644c51981f6fe2fa1ed0a8)

def incomeHash : Bytes32 :=
  landWord (utf8 "03500000000000000000" ++ bytes16 0x764ecd4360fe1279874a248110707f62)

def landA : PhiAInputs where
  accountHash := limbSignals (wordBytes accountHash)
  incomeHash := limbSignals (wordBytes incomeHash)
  cB := (landCommitment.toNat : ℕ)
  amount := (txData.amount.toNat : ℕ)
  bind := (packed (wordBytes signableA.out) % BN254_R : ℕ)
  account := signals (utf8 tenantAccount)
  income := signals (utf8 "03500000000000000000")
  accountBlinder := signals (bytes16 0x6b9f491477644c51981f6fe2fa1ed0a8)
  incomeBlinder := signals (bytes16 0x764ecd4360fe1279874a248110707f62)
  salt := landSalt

def applyNumbers : List ℕ :=
  limbNumbers accountHash ++ limbNumbers incomeHash ++
    [landCommitment.toNat, txData.amount.toNat, packed (wordBytes signableA.out) % BN254_R]

theorem land_commitment :
    ((landCommitment.toNat : ℕ) : F) = landPoseidon (packed (utf8 tenantAccount) : ℕ) landSalt := by
  rw [landPoseidon, if_pos ⟨rfl, rfl⟩]

theorem tenant_first : signals (utf8 tenantAccount) 0 ≠ ((landCircuits.pad.toNat : ℕ) : F) := by
  have hlt : (digits (utf8 tenantAccount)).getD 0 0 < BN254_R := by decide +kernel
  show (((digits (utf8 tenantAccount)).getD 0 0 : ℕ) : F) ≠ _
  rw [ne_eq, natCast_inj hlt (by decide +kernel)]
  decide +kernel

theorem apply_instance : ApplyInstance landCircomlib landCircuits landHashed landCommitted
    (applyNumbers.map Nat.cast) := by
  refine ⟨landA, phiA_iff.mpr ⟨utf8 tenantAccount, utf8 "03500000000000000000",
    (opens_signals_iff (by decide +kernel) (by decide)).mpr rfl,
    (opens_signals_iff (by decide +kernel) (by decide)).mpr rfl, tenant_first, land_commitment, ?_,
    by decide +kernel, ?_⟩, rfl, ?_, ?_, ?_⟩
  · show ((txData.amount.toNat : ℕ) : F).val < 2 ^ PHI_A_AMOUNT_BITS
    rw [ZMod.val_natCast_of_lt (by decide)]
    decide
  · have hproduct : landCircuits.phiA.MULTIPLE * landA.amount = ((3 * 10 ^ 18 : ℕ) : F) := by
      rw [Nat.cast_mul]
      rfl
    rw [hproduct, landCircomlib.greaterEqThan_iff (by decide) (by decide) (by decide)]
    exact (flag_eq_one.mpr (by decide)).symm
  · exact hashed_signals (by decide +kernel) (by decide) (mem_landHashed (by decide +kernel))
  · exact hashed_signals (by decide +kernel) (by decide) (mem_landHashed (by decide +kernel))
  · exact commitsIn_signals (by decide +kernel) rfl

def propertyHash : Bytes32 :=
  landWord (utf8 "TR-06-CANKAYA-000123" ++ bytes16 0xd5eda3896ec3b22c322a011ddf13e05c)

def tenantHash : Bytes32 :=
  landWord (utf8 tenantAccount ++ bytes16 0x5e697687d1a7645e4e07dc20299421a7)

def dateHash : Bytes32 := landWord (utf8 "2026-10-21" ++ bytes16 0xfc6fbe437cbc03799446891a1d0a95fc)

def landS : PhiSInputs where
  propertyHash := limbSignals (wordBytes propertyHash)
  tenantHash := limbSignals (wordBytes tenantHash)
  dateHash := limbSignals (wordBytes dateHash)
  propertyId := limbSignals (wordBytes txData.propertyId)
  cB := (landCommitment.toNat : ℕ)
  engagementDay := (20251009 : ℕ)
  bind := (packed (wordBytes signableS.out) % BN254_R : ℕ)
  property := signals (utf8 "TR-06-CANKAYA-000123")
  tenant := signals (utf8 tenantAccount)
  date := signals (utf8 "2026-10-21")
  propertyBlinder := signals (bytes16 0xd5eda3896ec3b22c322a011ddf13e05c)
  tenantBlinder := signals (bytes16 0x5e697687d1a7645e4e07dc20299421a7)
  dateBlinder := signals (bytes16 0xfc6fbe437cbc03799446891a1d0a95fc)
  salt := landSalt

def settleNumbers : List ℕ :=
  limbNumbers propertyHash ++ limbNumbers tenantHash ++ limbNumbers dateHash ++
    limbNumbers txData.propertyId ++ [landCommitment.toNat, 20251009,
      packed (wordBytes signableS.out) % BN254_R]

theorem settle_instance : SettleInstance landCircomlib landCircuits landHashed landCommitted
    (settleNumbers.map Nat.cast) := by
  refine ⟨landS, (phiS_iff (by decide)).mpr ⟨utf8 "TR-06-CANKAYA-000123", utf8 tenantAccount,
    utf8 "2026-10-21", (opens_signals_iff (by decide +kernel) (by decide)).mpr rfl,
    (opens_signals_iff (by decide +kernel) (by decide)).mpr rfl,
    (opens_signals_iff (by decide +kernel) (by decide)).mpr rfl, land_word, tenant_first,
    land_commitment, ⟨2026, 10, 21, by decide, by decide⟩, 20251009, by decide, by decide, rfl,
    by decide, by decide⟩, rfl, ?_, ?_, ?_, ?_⟩
  · exact hashed_signals (by decide +kernel) (by decide) (mem_landHashed (by decide +kernel))
  · exact hashed_signals (by decide +kernel) (by decide) (mem_landHashed (by decide +kernel))
  · exact hashed_signals (by decide +kernel) (by decide) (mem_landHashed (by decide +kernel))
  · exact commitsIn_signals (by decide +kernel) rfl

/-! ### The policy verifier -/

def landVerifier : PolicyVerifier ℕ Unit where
  policies id := if id = policyIdR then some ⟨titleLayout, instanceKey registerNumbers⟩ else none
  applyPolicies id := if id = policyIdA then some ⟨incomeLayout, instanceKey applyNumbers⟩ else none
  settlePolicies id :=
    if id = policyIdS then some ⟨tenancyLayout, instanceKey settleNumbers, 10800⟩ else none
  tauLock := some 1209600
  attestationKey := 7
  rootCerts := []
  maxSessionSecs := 300
  key digest := landSignatures.lookup digest
  domain := landDomain

def landRequests : List (Request ℕ Unit) :=
  [.register ⟨0, titleRecord.propertyId, landRegister, ()⟩, .apply ⟨1, landApply, ()⟩,
    .settle ⟨2, "N-0001", landSettle, ()⟩]

/-- An output is about a session with the registry, and is accepted with some hashes. -/
def Attests (p : Pool Connection Registry.State (Except HandleError Response))
    (output : PresentationOutput) (shape : ResponseShape) (attested : AttestedShape) : Prop :=
  (∃ x, Session p x ∧ output.About landSha256 landHashed x) ∧ tAttOf output = .ok attested.tAtt ∧
    ∀ build, checkOutput build output shape 300 = .ok attested

/-- The presentations of the sessions of the three phases. -/
structure Presented (p : Pool Connection Registry.State (Except HandleError Response))
    (title income tenancy : PresentationOutput) : Prop where
  runs : Threads.Runs (landRegistry.serve loginCredentials true) idle p
  title : ∃ shape, titleLayout.shape titleRecord.propertyId = .ok shape ∧
    Attests p title shape ⟨1760000000, [titleHash 2 (utf8 account), titleHash 3 (utf8 ownersText),
      titleHash 4 (utf8 titleRecord.propertyId)]⟩
  income : ∃ shape, incomeLayout.shape "" = .ok shape ∧
    Attests p income shape ⟨1760000100, [accountHash, incomeHash]⟩
  tenancy : ∃ shape, tenancyLayout.shape "N-0001" = .ok shape ∧
    Attests p tenancy shape ⟨1760500000,
      [landWord (utf8 account ++ List.replicate 16 5), propertyHash, tenantHash, dateHash]⟩

theorem exists_presented : ∃ p title income tenancy, Presented p title income tenancy := by
  obtain ⟨title, income, tenancy, htitle, hincome, htenancy, hviewT, hviewI, hviewN⟩ := exists_views
  obtain ⟨shapeT, r, _, outputT, -, hshapeT, hr, -, -, -, hpresents, hcheckT, haboutT⟩ :=
    exists_titleSession landWord
  obtain rfl := Except.ok.inj (htitle.symm.trans hr)
  obtain ⟨shapeI, outputI, hshapeI, htAttI, hcheckI, haboutI⟩ := exists_recordSession
    sources.income_valid hincome "" incomeSent (by decide +kernel)
    (by decide +kernel) incomeBlinders[0] incomeBlinders[1] (incomeBlinders.drop 2) rfl
    (by decide +kernel) 1760000100 1760000070 (by decide) (by decide) (by decide) landWord
  obtain ⟨shapeN, outputN, hshapeN, htAttN, hcheckN, haboutN⟩ := exists_recordSession
    sources.tenancy_valid htenancy "N-0001" notationSent (by decide +kernel)
    (by decide +kernel) notationBlinders[0] notationBlinders[1] (notationBlinders.drop 2) rfl
    (by decide +kernel) 1760500000 1760499970 (by decide) (by decide) (by decide) landWord
  refine ⟨landPool title.bytes income.bytes tenancy.bytes, outputT, outputI, outputN,
    runs_landPool hviewT hviewI hviewN,
    ⟨shapeT, hshapeT, ⟨⟨titleSent, title.bytes⟩, ⟨2, titleConnection, ?_, rfl⟩, ?_⟩,
      hpresents.tAttOf_eq, hcheckT⟩,
    ⟨shapeI, hshapeI, ⟨⟨incomeSent, income.bytes⟩, ⟨3, ⟨[incomeSent], []⟩, ?_, rfl⟩, ?_⟩,
      htAttI, fun build => ?_⟩,
    shapeN, hshapeN, ⟨⟨notationSent, tenancy.bytes⟩, ⟨4, ⟨[notationSent], []⟩, ?_, rfl⟩, ?_⟩,
      htAttN, fun build => ?_⟩
  · exact (show titleConnection.chunks.flatten = titleSent by decide +kernel) ▸ List.prefix_rfl
  · exact haboutT.mono fun m hm => by
      rw [landHashed, landTexts, List.map_append]
      exact List.mem_append_left _ hm
  · exact List.prefix_rfl
  · have hall : ∀ m ∈ List.zipWith (· ++ ·) (utf8 (incomeLayout.requestLine "") ::
          (Template.markedTexts incomeLayout.pieces).flatten ::
          incomeLayout.written tenantAccount ["03500000000000000000"])
        (incomeBlinders[0] :: incomeBlinders[1] :: incomeBlinders.drop 2),
        m ∈ landTexts.map Prod.fst := by decide +kernel
    exact haboutI.mono hall
  · rw [hcheckI build]
    exact congrArg (fun hashes => Except.ok (AttestedShape.mk 1760000100 hashes))
      (by decide +kernel)
  · exact List.prefix_rfl
  · have hall : ∀ m ∈ List.zipWith (· ++ ·) (utf8 (tenancyLayout.requestLine "N-0001") ::
          (Template.markedTexts tenancyLayout.pieces).flatten :: tenancyLayout.written account
            ["TR-06-CANKAYA-000123", tenantAccount, "2026-10-21"])
        (notationBlinders[0] :: notationBlinders[1] :: notationBlinders.drop 2),
        m ∈ landTexts.map Prod.fst := by decide +kernel
    exact haboutN.mono hall
  · rw [hcheckN build]
    exact congrArg (fun hashes => Except.ok (AttestedShape.mk 1760500000 hashes))
      (by decide +kernel)

section

variable {p : Pool Connection Registry.State (Except HandleError Response)}
  {title income tenancy : PresentationOutput}

/-- The library whose presentations are about the three sessions. -/
def landLibrary (title income tenancy : PresentationOutput) : AttestationLibrary ℕ ℕ :=
  ⟨fun _ => 7, fun _ => some fun i => [title, income, tenancy][i]?⟩

theorem Presented.attests (h : Presented p title income tenancy) {i : ℕ}
    {output : PresentationOutput}
    (hverifies : (landLibrary title income tenancy).Verifies [] i output) :
    ∃ shape attested, Attests p output shape attested ∧ attested.tAtt.toNat + 5 < 2 ^ 64 := by
  obtain ⟨_, ⟨⟩, hget⟩ := hverifies
  have hmem : output ∈ [title, income, tenancy] := List.mem_of_getElem? hget
  simp only [List.mem_cons, List.not_mem_nil, or_false] at hmem
  obtain rfl | rfl | rfl := hmem
  · obtain ⟨shape, -, hattests⟩ := h.title
    exact ⟨shape, _, hattests, by decide⟩
  · obtain ⟨shape, -, hattests⟩ := h.income
    exact ⟨shape, _, hattests, by decide⟩
  · obtain ⟨shape, -, hattests⟩ := h.tenancy
    exact ⟨shape, _, hattests, by decide⟩

/-- What the policy verifier relies on holds. -/
theorem Presented.trust (h : Presented p title income tenancy) :
    Trust landCircomlib (landLibrary title income tenancy) landVerifier landRegistry
      loginCredentials true p landCircuits landHashed landCommitted where
  title := rfl
  income := rfl
  tenancy := rfl
  routes := landRoutes
  serves := h.runs
  register id policy hpolicy := by
    obtain ⟨-, hsome⟩ := Option.ite_none_right_eq_some.mp hpolicy
    obtain rfl := Option.some.inj hsome
    exact ⟨rfl, instanceKey_sound register_instance⟩
  apply id policy hpolicy := by
    obtain ⟨-, hsome⟩ := Option.ite_none_right_eq_some.mp hpolicy
    obtain rfl := Option.some.inj hsome
    exact ⟨rfl, instanceKey_sound apply_instance⟩
  settle id policy hpolicy := by
    obtain ⟨-, hsome⟩ := Option.ite_none_right_eq_some.mp hpolicy
    obtain rfl := Option.some.inj hsome
    exact ⟨rfl, instanceKey_sound settle_instance⟩
  session i output _ hverifies _ := by
    obtain ⟨-, -, ⟨hsession, -⟩, -⟩ := h.attests hverifies
    exact hsession
  clock i output hverifies tAtt htAtt := by
    obtain ⟨-, attested, ⟨-, htime, -⟩, hlt⟩ := h.attests hverifies
    rwa [Except.ok.inj (htAtt.symm.trans htime)]
  sha256 := landSha256_injOn

/-- The record of nonces at first. -/
def landStore : NonceStore := ⟨⟨[], []⟩, ∅⟩

theorem Presented.checks {shape : ResponseShape} {attested : AttestedShape} {i : ℕ}
    {output : PresentationOutput} (hget : [title, income, tenancy][i]? = some output)
    (hattests : Attests p output shape attested) :
    checkShape (landLibrary title income tenancy) .release i (landVerifier.expectation shape) =
      .ok attested :=
  checkShape_eq_ok.mpr ⟨rfl, output, ⟨_, rfl, hget⟩, hattests.2.2 _⟩

theorem sign_land {store : NonceStore} {request : Request ℕ Unit}
    (hp : landVerifier.Passes landKeccak (checkShape (landLibrary title income tenancy) .release)
      store request) (e : Signable request.statement)
    (hsigma : landSignatures.lookup e.out = some e.sigma) :
    landVerifier.sign landKeccak (checkShape (landLibrary title income tenancy) .release) store
        request = (.ok e.sigma, store.add (nonceOf request.statement.eta)) := by
  obtain ⟨-, hsign⟩ | ⟨hno, -⟩ := @PolicyVerifier.sign_cases _ _ _ _ landKeccak
    (checkShape (landLibrary title income tenancy) .release) landVerifier store request
  · rw [← e.digest_eq] at hsigma
    rw [hsign]
    exact congrArg (·, _) (context_eq_ok.mpr hsigma)
  · exact absurd hp hno

theorem Presented.passes_register (h : Presented p title income tenancy) :
    landVerifier.Passes landKeccak (checkShape (landLibrary title income tenancy) .release)
      landStore (.register ⟨0, titleRecord.propertyId, landRegister, ()⟩) := by
  obtain ⟨shape, hshape, hattests⟩ := h.title
  refine ⟨_, shape, _, _, _, rfl, by decide +kernel, by decide +kernel, hshape,
    Presented.checks rfl hattests, ?_⟩
  show (instanceKey registerNumbers).verify () (_ ++ [bindValue (digest landKeccak
    (.register landRegister) landDomain)]) = _
  rw [signableR.digest_eq]
  exact instanceKey_verify (by decide +kernel)

theorem Presented.passes_apply (h : Presented p title income tenancy) (store : NonceStore)
    (hfresh : nonceOf landApply.eta ∉ store.seen) :
    landVerifier.Passes landKeccak (checkShape (landLibrary title income tenancy) .release) store
      (.apply ⟨1, landApply, ()⟩) := by
  obtain ⟨shape, hshape, hattests⟩ := h.income
  refine ⟨_, shape, _, _, rfl, hfresh, hshape, Presented.checks rfl hattests, by decide, by decide,
    ?_⟩
  show (instanceKey applyNumbers).verify () (_ ++ [_, _, bindValue (digest landKeccak
    (.apply landApply) landDomain)]) = _
  rw [signableA.digest_eq]
  exact instanceKey_verify (by decide +kernel)

theorem Presented.passes_settle (h : Presented p title income tenancy) (store : NonceStore)
    (hfresh : nonceOf landSettle.eta ∉ store.seen) :
    landVerifier.Passes landKeccak (checkShape (landLibrary title income tenancy) .release) store
      (.settle ⟨2, "N-0001", landSettle, ()⟩) := by
  obtain ⟨shape, hshape, hattests⟩ := h.tenancy
  refine ⟨_, 1209600, 20251009, shape, _, _, _, _, rfl, rfl, hfresh, by decide +kernel,
    by decide +kernel, hshape, Presented.checks rfl hattests, by decide, by decide, ?_⟩
  show (instanceKey settleNumbers).verify () (_ ++ [_, _, bindValue (digest landKeccak
    (.settle landSettle) landDomain)]) = _
  rw [signableS.digest_eq]
  exact instanceKey_verify (by decide +kernel)

/-- The three statements are signed. -/
theorem Presented.signs (h : Presented p title income tenancy) :
    (landVerifier.serve landKeccak (checkShape (landLibrary title income tenancy) .release)
      landStore landRequests).map (fun a => (a.request.statement, a.result.toOption)) =
      [(.register landRegister, some signableR.sigma), (.apply landApply, some signableA.sigma),
        (.settle landSettle, some signableS.sigma)] := by
  have hlookup : landSignatures.lookup signableR.out = some signableR.sigma ∧
      landSignatures.lookup signableA.out = some signableA.sigma ∧
      landSignatures.lookup signableS.out = some signableS.sigma := by decide +kernel
  have hregister := sign_land h.passes_register signableR hlookup.1
  have happly := sign_land (h.passes_apply (landStore.add (nonceOf landRegister.eta))
    (by decide +kernel)) signableA hlookup.2.1
  have hsettle := sign_land (h.passes_settle ((landStore.add (nonceOf landRegister.eta)).add
    (nonceOf landApply.eta)) (by decide +kernel)) signableS hlookup.2.2
  simp only [Request.statement, Statement.eta] at hregister happly hsettle
  simp only [PolicyVerifier.serve, landRequests, hregister, happly, hsettle, List.map_cons,
    List.map_nil, Request.statement]
  rfl

end

end Vectors

open Registry Vectors in
/-- The three statements of a settlement over the committed layouts are signed, and are about
records. -/
theorem signed_grounded_land : ∃ (p : Pool Connection Registry.State (Except HandleError Response))
      (library : AttestationLibrary ℕ ℕ),
    (landVerifier.serve landKeccak (checkShape library .release) landStore landRequests).map
        (fun a => (a.request.statement, a.result.toOption)) =
      [(.register landRegister, some signableR.sigma), (.apply landApply, some signableA.sigma),
        (.settle landSettle, some signableS.sigma)] ∧
    Owned landRegistry loginCredentials true p landCircuits txData.propertyId ∧
    Earned landRegistry loginCredentials true p landCircuits landCommitted landPoseidon landApply ∧
    Tenanted landVerifier landRegistry loginCredentials true p landCircuits landCommitted
      landPoseidon landSettle := by
  obtain ⟨p, title, income, tenancy, h⟩ := exists_presented
  have hsigns := h.signs
  have hgrounded := signed_grounded landCircomlib (landLibrary title income tenancy) landVerifier
    landRegistry loginCredentials true p landCircuits landHashed landCommitted h.trust landKeccak
    .release landStore landRequests
  have hall : ∀ x sigma, (x, some sigma) ∈ [(Statement.register landRegister, some signableR.sigma),
      (.apply landApply, some signableA.sigma), (.settle landSettle, some signableS.sigma)] →
      Grounded landVerifier landRegistry loginCredentials true p landCircuits landCommitted
        landPoseidon x := by
    intro x sigma hmem
    rw [← hsigns] at hmem
    obtain ⟨a, ha, heq⟩ := List.mem_map.mp hmem
    obtain ⟨rfl, hresult⟩ := Prod.mk.inj heq
    cases hok : a.result with
    | error e =>
      rw [hok] at hresult
      cases hresult
    | ok out => exact hgrounded a ha out hok
  exact ⟨p, landLibrary title income tenancy, hsigns,
    hall (.register landRegister) signableR.sigma (by simp),
    hall (.apply landApply) signableA.sigma (by simp),
    hall (.settle landSettle) signableS.sigma (by simp)⟩

end Pprev
