import Pprev.Circuit.PhiS
import Pprev.Notary.Commitment
import Pprev.Offchain.Ownership
import Pprev.Offchain.Record

/-!
# Identity and property across the phases

The identifier that a counterparty commits to at Apply, and the property of a listing, are found
again at Settle: the circuits link two phases exactly if the padded values of the rendered responses
are equal.
-/

namespace Pprev

open Evm Slice

/-- Layouts of the sources of the three phases with one padding, one width of identifiers and one
width of properties. -/
structure Sources where
  title : Layout
  income : RecordLayout
  tenancy : RecordLayout
  /-- Positions of the tenant and of the property among the fields of a tenancy notation. -/
  tenant : ℕ
  property : ℕ
  title_valid : title.validate = .ok ()
  income_valid : income.validate = .ok ()
  tenancy_valid : tenancy.validate = .ok ()
  padding_eq : income.padding = title.padding ∧ tenancy.padding = title.padding
  tenant_eq : tenancy.indexOf "tenant" = .ok tenant
  property_eq : tenancy.indexOf "propertyId" = .ok property
  account_width : tenancy.widthOf "tenant" = .ok income.accountWidth
  account_le : income.accountWidth ≤ 31
  property_width : tenancy.widthOf "propertyId" = .ok title.propertyIdWidth
  property_mem : 17 ≤ title.propertyIdWidth ∧ title.propertyIdWidth ≤ 32

theorem exists_field {l : RecordLayout} {key : String} {i width : ℕ} (hi : l.indexOf key = .ok i)
    (hw : l.widthOf key = .ok width) : ∃ field, l.fields[i]? = some field ∧ field.width = width := by
  have hlt : i < l.fields.length := by
    unfold RecordLayout.indexOf at hi
    split at hi
    next j hj =>
      obtain rfl : j = i := Except.ok.inj hi
      exact (List.findIdx?_eq_some_iff_findIdx_eq.mp hj).1
    next => cases hi
  refine ⟨l.fields[i], List.getElem?_eq_getElem hlt, ?_⟩
  simp only [RecordLayout.widthOf, hi, bind, Except.bind, Except.ok.injEq] at hw
  rw [← hw, List.getD_eq_getElem _ _ hlt]

theorem Range.Shows.part {r : RenderedRecord} {range : Range} {value : Bytes}
    (h : range.Shows r.bytes value) : r.part range = value := h.2

/-- The account in a rendered record. -/
def RenderedRecord.accountPart (r : RenderedRecord) : Bytes := r.part r.ranges.account

namespace Sources

variable (s : Sources)

/-- The tenant in a rendered notation. -/
def tenantPart (r : RenderedRecord) : Bytes := r.part (r.ranges.fields.getD s.tenant ⟨0, 0⟩)

/-- The property in a rendered notation. -/
def propertyPart (r : RenderedRecord) : Bytes := r.part (r.ranges.fields.getD s.property ⟨0, 0⟩)

/-- The padding byte of the layouts. -/
def pad : UInt8 := s.title.paddingByte

theorem length_padding : (utf8 s.title.padding).length = 1 := (validate_eq_ok.mp s.title_valid).1.1

theorem income_padding : (utf8 s.income.padding).length = 1 := by
  rw [s.padding_eq.1, s.length_padding]

theorem tenancy_padding : (utf8 s.tenancy.padding).length = 1 := by
  rw [s.padding_eq.2, s.length_padding]

theorem income_paddingByte : s.income.paddingByte = s.pad := by
  rw [RecordLayout.paddingByte, s.padding_eq.1, pad, Layout.paddingByte]

theorem tenancy_paddingByte : s.tenancy.paddingByte = s.pad := by
  rw [RecordLayout.paddingByte, s.padding_eq.2, pad, Layout.paddingByte]

variable {s}

theorem accountPart_eq {account : String} {values : List String} {r : RenderedRecord}
    (h : s.income.renderResponse account values = .ok r) :
    Padable account s.income.accountWidth ∧
      r.accountPart = padded s.pad account s.income.accountWidth := by
  obtain ⟨⟨hpadable, hshows⟩, -⟩ := renderResponse_shows s.income_padding h
  rw [s.income_paddingByte] at hshows
  exact ⟨hpadable, hshows.part⟩

theorem fieldPart_eq {key account value : String} {values : List String} {r : RenderedRecord}
    {i width : ℕ} (hi : s.tenancy.indexOf key = .ok i) (hw : s.tenancy.widthOf key = .ok width)
    (h : s.tenancy.renderResponse account values = .ok r) (hvalue : values[i]? = some value) :
    Padable value width ∧
      r.part (r.ranges.fields.getD i ⟨0, 0⟩) = padded s.pad value width := by
  obtain ⟨field, hfield, rfl⟩ := exists_field hi hw
  obtain ⟨hpadable, range, hrange, hshows⟩ := shows_field s.tenancy_padding h hfield hvalue
  rw [s.tenancy_paddingByte] at hshows
  rw [List.getD_eq_getElem?_getD, hrange]
  exact ⟨hpadable, hshows.part⟩

theorem tenantPart_eq {account tenant : String} {values : List String} {r : RenderedRecord}
    (h : s.tenancy.renderResponse account values = .ok r)
    (hvalue : values[s.tenant]? = some tenant) :
    Padable tenant s.income.accountWidth ∧
      s.tenantPart r = padded s.pad tenant s.income.accountWidth :=
  fieldPart_eq s.tenant_eq s.account_width h hvalue

theorem propertyPart_eq {account property : String} {values : List String} {r : RenderedRecord}
    (h : s.tenancy.renderResponse account values = .ok r)
    (hvalue : values[s.property]? = some property) :
    Padable property s.title.propertyIdWidth ∧
      s.propertyPart r = padded s.pad property s.title.propertyIdWidth :=
  fieldPart_eq s.property_eq s.property_width h hvalue

/-- Two values are padded to one exactly if their bytes are. -/
theorem pad_eq_iff {account tenant : String} {width : ℕ} (haccount : Padable account width)
    (htenant : Padable tenant width) :
    s.tenancy.pad tenant width = s.income.pad account width ↔
      padded s.pad tenant width = padded s.pad account width := by
  obtain ⟨a, ha⟩ := RecordLayout.exists_pad s.income_padding haccount
  obtain ⟨t, ht⟩ := RecordLayout.exists_pad s.tenancy_padding htenant
  have ha' := ((RecordLayout.pad_eq_ok s.income_padding).mp ha).2
  have ht' := ((RecordLayout.pad_eq_ok s.tenancy_padding).mp ht).2
  rw [s.income_paddingByte] at ha'
  rw [s.tenancy_paddingByte] at ht'
  rw [ha, ht, ← ha', ← ht', utf8_injective.eq_iff, Except.ok.injEq]

theorem titlePad_eq_iff {property other : String} {width : ℕ} (hproperty : Padable property width)
    (hother : Padable other width) :
    (s.title.pad property width).toOption = (s.tenancy.pad other width).toOption ↔
      padded s.pad property width = padded s.pad other width := by
  obtain ⟨p, hp⟩ := exists_padValue s.length_padding hproperty
  obtain ⟨q, hq⟩ := RecordLayout.exists_pad s.tenancy_padding hother
  have hp' := ((pad_eq_ok s.length_padding).mp hp).2
  have hq' := ((RecordLayout.pad_eq_ok s.tenancy_padding).mp hq).2
  rw [s.tenancy_paddingByte] at hq'
  rw [Layout.pad, hp, hq, pad, ← hp', Except.toOption, Except.toOption, Option.some.injEq,
    ← utf8_injective.eq_iff, hq', pad]

/-- The words of a property for Register and for Settle are its padded bytes, zero-extended. -/
theorem word_eq {property : String} (h : Padable property s.title.propertyIdWidth) :
    s.title.propertyIdWord property = .ok (padded s.pad property s.title.propertyIdWidth ++
        List.replicate (32 - s.title.propertyIdWidth) 0) ∧
      s.tenancy.word "propertyId" property = .ok (padded s.pad property s.title.propertyIdWidth ++
        List.replicate (32 - s.title.propertyIdWidth) 0) := by
  obtain ⟨p, hp⟩ := exists_padValue s.length_padding h
  obtain ⟨q, hq⟩ := RecordLayout.exists_pad s.tenancy_padding h
  have hp' : utf8 p = padded s.pad _ _ := ((pad_eq_ok s.length_padding).mp hp).2
  have hq' := ((RecordLayout.pad_eq_ok s.tenancy_padding).mp hq).2
  have hlen : (padded s.pad property s.title.propertyIdWidth).length = s.title.propertyIdWidth :=
    length_padded h.2.2.2
  rw [s.tenancy_paddingByte] at hq'
  constructor
  · simp only [Layout.propertyIdWord, Layout.pad, hp, ensure, if_pos s.property_mem.2, bind,
      Except.bind, hp', hlen]
  · simp only [RecordLayout.word, s.property_width, hq, ensure, if_pos s.property_mem.2, bind,
      Except.bind, hq', hlen]

/-! ## The links -/

section

variable {sha256 : Bytes → Bytes} {poseidon : F → F → F} (lib : Circomlib sha256 poseidon)

/-- The commitment to a rendered account is the only one that the circuit accepts for it. -/
theorem commitment_unique {account : String} {values : List String} {r : RenderedRecord}
    (h : s.income.renderResponse account values = .ok r) {salt : Bytes} (hsalt : salt.length = 32)
    (hlt : packed salt < BN254_R) :
    ∃ a cB, s.income.pad account s.income.accountWidth = .ok a ∧ utf8 a = r.accountPart ∧
      counterparty_commitment poseidon (utf8 a) salt = .ok cB ∧ cB.toNat < BN254_R ∧
      (cB.toNat : F) = poseidon (packed r.accountPart) (packed salt) ∧
      ∀ x : F, CommitmentTo lib s.income.accountWidth (signals r.accountPart) (packed salt) x ↔
        x = cB.toNat := by
  obtain ⟨hpadable, hpart⟩ := accountPart_eq h
  obtain ⟨a, ha⟩ := RecordLayout.exists_pad s.income_padding hpadable
  have hbytes := ((RecordLayout.pad_eq_ok s.income_padding).mp ha).2
  rw [s.income_paddingByte, ← hpart] at hbytes
  have hlen : r.accountPart.length = s.income.accountWidth := by
    rw [hpart, length_padded hpadable.2.2.2]
  have hword : ((wordOfElement (poseidon (packed r.accountPart) (packed salt))).toNat : F) =
      poseidon (packed r.accountPart) (packed salt) := by
    rw [toNat_wordOfElement, ZMod.natCast_zmod_val]
  refine ⟨a, wordOfElement (poseidon (packed r.accountPart) (packed salt)), ha, hbytes, ?_, ?_,
    hword, fun x => ?_⟩
  · rw [counterparty_commitment_eq_ok hsalt, hbytes, hlen]
    exact ⟨s.account_le, hlt, rfl⟩
  · rw [toNat_wordOfElement]
    exact ZMod.val_lt _
  · rw [hword, ← hlen]
    exact commitmentTo_iff (holds_signals _)

/-- As long as Poseidon does not collide, a tenant opens the commitment to an account exactly if
they pad to one value. -/
theorem tenant_iff {S : Set (F × F)} (hS : Set.InjOn (fun p => poseidon p.1 p.2) S)
    {account : String} {values : List String} {r : RenderedRecord}
    (h : s.income.renderResponse account values = .ok r) {salt cB : F}
    (hcB : cB = poseidon (packed r.accountPart) salt)
    (hmem : ((packed r.accountPart : F), salt) ∈ S) {account' tenant : String}
    {values' : List String} {r' : RenderedRecord}
    (h' : s.tenancy.renderResponse account' values' = .ok r')
    (htenant : values'[s.tenant]? = some tenant) :
    (∃ salt', ((packed (s.tenantPart r') : F), salt') ∈ S ∧
        CommitmentTo lib s.income.accountWidth (signals (s.tenantPart r')) salt' cB) ↔
      s.tenancy.pad tenant s.income.accountWidth = s.income.pad account s.income.accountWidth := by
  obtain ⟨hpadable, hpart⟩ := accountPart_eq h
  obtain ⟨hpadable', hpart'⟩ := tenantPart_eq h' htenant
  have hlen : r.accountPart.length = s.income.accountWidth := by
    rw [hpart, length_padded hpadable.2.2.2]
  have hlen' : (s.tenantPart r').length = s.income.accountWidth := by
    rw [hpart', length_padded hpadable'.2.2.2]
  have hcommitment (salt' : F) :
      CommitmentTo lib s.income.accountWidth (signals (s.tenantPart r')) salt' cB ↔
        cB = poseidon (packed (s.tenantPart r')) salt' := by
    rw [← hlen']
    exact commitmentTo_iff (holds_signals _)
  rw [pad_eq_iff hpadable hpadable', ← hpart, ← hpart']
  constructor
  · rintro ⟨salt', hmem', hopen⟩
    have hpair := hS hmem' hmem (((hcommitment salt').mp hopen).symm.trans hcB)
    have hpacked := (natCast_inj (packed_lt_order (hlen'.trans_le s.account_le))
      (packed_lt_order (hlen.trans_le s.account_le))).mp (Prod.mk.inj hpair).1
    exact packed_inj (hlen'.trans hlen.symm) hpacked
  · intro hsame
    rw [hsame] at hcommitment ⊢
    exact ⟨salt, hmem, (hcommitment salt).mpr hcB⟩

/-- The property word that a circuit accepts for a part is the part, zero-extended. -/
theorem propertyWord_part_iff {x propertyId : ℕ → F} {m : Bytes} (hx : Holds x m)
    (hlen : m.length = s.title.propertyIdWidth) :
    PropertyWord s.title.propertyIdWidth x propertyId ↔
      IsLimbs propertyId (m ++ List.replicate (32 - s.title.propertyIdWidth) 0) := by
  have hmem := s.property_mem
  rw [← hlen] at hmem ⊢
  exact propertyWord_iff hx hmem

end

end Sources

/-- A notation that the circuit accepts with one property word is accepted with another exactly if
the word is that of its property. -/
theorem phiS_propertyId {sha256 : Bytes → Bytes} {poseidon : F → F → F}
    {lib : Circomlib sha256 poseidon} {PROPERTY_W TENANT_W : ℕ} {PAD : F} {y : PhiSInputs}
    (h : PhiS lib PROPERTY_W TENANT_W PAD y) {propertyId : ℕ → F} :
    PhiS lib PROPERTY_W TENANT_W PAD { y with propertyId := propertyId } ↔
      PropertyWord PROPERTY_W y.property propertyId := by
  obtain ⟨recordDate, dayRange, notBefore, bindSquared, hP, hT, hD, -, hrest⟩ := h
  constructor
  · rintro ⟨-, -, -, -, -, -, -, hword, -⟩
    exact hword
  · exact fun hword => ⟨recordDate, dayRange, notBefore, bindSquared, hP, hT, hD, hword, hrest⟩

/-- Identity and property are linked across the phases. The account of an income record has one
commitment, which a tenant opens exactly if it pads to the account, as long as Poseidon does not
collide on the inputs `S` in use; and what the circuit of Register accepts as the property of a
title the circuit of Settle accepts for a notation exactly if its property pads to that of the
title. -/
theorem linked {sha256 : Bytes → Bytes} {poseidon : F → F → F} (lib : Circomlib sha256 poseidon)
    (s : Sources) {S : Set (F × F)} (hS : Set.InjOn (fun p => poseidon p.1 p.2) S) :
    (∀ account values r salt, s.income.renderResponse account values = .ok r → salt.length = 32 →
      packed salt < BN254_R → ∃ a cB, s.income.pad account s.income.accountWidth = .ok a ∧
        counterparty_commitment poseidon (utf8 a) salt = .ok cB ∧ cB.toNat < BN254_R ∧
        (∀ x : F, CommitmentTo lib s.income.accountWidth (signals r.accountPart) (packed salt) x ↔
          x = cB.toNat) ∧
        (((packed r.accountPart : F), (packed salt : F)) ∈ S → ∀ account' tenant values' r',
          s.tenancy.renderResponse account' values' = .ok r' →
          values'[s.tenant]? = some tenant →
          ((∃ salt', ((packed (s.tenantPart r') : F), salt') ∈ S ∧
              CommitmentTo lib s.income.accountWidth (signals (s.tenantPart r')) salt' cB.toNat) ↔
            s.tenancy.pad tenant s.income.accountWidth =
              s.income.pad account s.income.accountWidth))) ∧
    (∀ account record r limit p x, s.title.renderResponse account record = .ok r →
      PhiRParams.fromLayout limit s.title = .ok p → Holds x.property (r.part r.ranges.propertyId) →
      PhiR lib p x → ∀ account' property values' r' y,
        s.tenancy.renderResponse account' values' = .ok r' →
        values'[s.property]? = some property → Holds y.property (s.propertyPart r') →
        PhiS lib s.title.propertyIdWidth s.income.accountWidth (s.pad.toNat : ℕ) y →
        (PhiS lib s.title.propertyIdWidth s.income.accountWidth (s.pad.toNat : ℕ)
            { y with propertyId := x.propertyId } ↔
          (s.title.pad record.propertyId s.title.propertyIdWidth).toOption =
            (s.tenancy.pad property s.title.propertyIdWidth).toOption)) ∧
    (∀ property, Padable property s.title.propertyIdWidth →
      (s.title.propertyIdWord property).toOption =
        (s.tenancy.word "propertyId" property).toOption) := by
  refine ⟨?_, ?_, fun property h => ?_⟩
  · intro account values r salt h hsalt hlt
    obtain ⟨a, cB, ha, -, hcommitment, hcB, hhash, hunique⟩ :=
      Sources.commitment_unique lib h hsalt hlt
    exact ⟨a, cB, ha, hcommitment, hcB, hunique, fun hmem account' tenant values' r' h' htenant =>
      Sources.tenant_iff lib hS h hhash hmem h' htenant⟩
  · intro account record r limit p x h hp hx hphiR account' property values' r' y h' hproperty hy hphiS
    obtain ⟨hren, rfl⟩ := (renderResponse_eq_ok s.title_valid).mp h
    obtain ⟨-, rfl⟩ := (fromLayout_eq_ok s.title_valid).mp hp
    obtain ⟨hpadable', hpart'⟩ := Sources.propertyPart_eq h' hproperty
    rw [part_propertyId hren.fits] at hx
    obtain ⟨-, -, -, -, -, -, -, -, -, -, -, -, -, -, hword, -⟩ := hphiR
    have hlen : (s.title.values account record).propertyId.length = s.title.propertyIdWidth :=
      hren.fits.propertyId
    have hlen' : (s.propertyPart r').length = s.title.propertyIdWidth := by
      rw [hpart', length_padded hpadable'.2.2.2]
    have hlimbs := (Sources.propertyWord_part_iff hx hlen).mp hword
    rw [Sources.titlePad_eq_iff hren.propertyId hpadable', ← hpart',
      phiS_propertyId hphiS, Sources.propertyWord_part_iff hy hlen']
    have hmem := s.property_mem
    have hzeros {m : Bytes} (hm : m.length = s.title.propertyIdWidth) :
        (m ++ List.replicate (32 - s.title.propertyIdWidth) 0).length = 32 := by
      rw [List.length_append, List.length_replicate]
      omega
    constructor
    · intro hlimbs'
      exact List.append_cancel_right (hlimbs.unique (hzeros hlen) (hzeros hlen') hlimbs')
    · intro hsame
      rwa [← hsame]
  · rw [(s.word_eq h).1, (s.word_eq h).2]
    rfl

/-! ## The committed layouts -/

namespace Vectors

/-- The layout of `policies/layouts/income-v1.json`. -/
def incomeLayout : RecordLayout where
  id := "income-v1"
  serverName := "registry.pprev.test"
  pathPrefix := "/income"
  statusLine := "HTTP/1.1 200 OK"
  contentType := "application/json"
  padding := " "
  accountWidth := 16
  fields := [⟨"monthlyIncome", 20⟩]

/-- The layout of `policies/layouts/tenancy-v1.json`. -/
def tenancyLayout : RecordLayout where
  id := "tenancy-v1"
  serverName := "registry.pprev.test"
  pathPrefix := "/tenancy/"
  statusLine := "HTTP/1.1 200 OK"
  contentType := "application/json"
  padding := " "
  accountWidth := 16
  fields := [⟨"propertyId", 20⟩, ⟨"tenant", 16⟩, ⟨"recordDate", 10⟩]

def sources : Sources where
  title := titleLayout
  income := incomeLayout
  tenancy := tenancyLayout
  tenant := 1
  property := 0
  title_valid := by decide +kernel
  income_valid := by decide +kernel
  tenancy_valid := by decide +kernel
  padding_eq := ⟨rfl, rfl⟩
  tenant_eq := by decide +kernel
  property_eq := by decide +kernel
  account_width := by decide +kernel
  account_le := by decide
  property_width := by decide +kernel
  property_mem := by decide

end Vectors

open Vectors in
/-- The holder of an account opens the commitment to it as the tenant of a notation. -/
theorem linked_account : ∃ r r' cB, sources.income.renderResponse account ["00000000000003000000"] =
      .ok r ∧
    sources.tenancy.renderResponse "" ["TR-06-CANKAYA-000123", account, "2028-02-29"] = .ok r' ∧
    counterparty_commitment vectorPoseidon (utf8 account) (List.replicate 32 0) = .ok cB ∧
    ∃ salt', CommitmentTo notationCircomlib 16 (signals (sources.tenantPart r')) salt'
      cB.toNat := by
  obtain ⟨r, hr⟩ : ∃ r, incomeLayout.renderResponse account ["00000000000003000000"] = .ok r :=
    exists_renderRecord (by decide) (by decide +kernel) rfl (by decide +kernel)
  obtain ⟨r', hr'⟩ : ∃ r', tenancyLayout.renderResponse ""
      ["TR-06-CANKAYA-000123", account, "2028-02-29"] = .ok r' :=
    exists_renderRecord (by decide) (by decide +kernel) rfl (by decide +kernel)
  have hzero : packed (List.replicate 32 0) = 0 := packed_replicate 32
  obtain ⟨a, cB, ha, hcommitment, -, -, htenant⟩ :=
    (linked notationCircomlib sources (Set.injOn_singleton _ _)).1 account _ r
      (List.replicate 32 0) hr rfl (by rw [hzero]; decide)
  have haccount : incomeLayout.pad account 16 = .ok account := by decide +kernel
  obtain rfl : account = a := Except.ok.inj (haccount.symm.trans ha)
  obtain ⟨salt', -, hopen⟩ := (htenant rfl "" account _ r' hr' rfl).mpr rfl
  exact ⟨r, r', cB, hr, hr', hcommitment, salt', hopen⟩

end Pprev
