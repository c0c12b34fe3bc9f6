import Pprev.Circuit.Date
import Pprev.Contract.Encoding

/-!
# Rental settlement

The template of `phi_s.circom`: a tenancy notation on the property names the identity that was
committed to and is dated no earlier than the engagement day.
-/

namespace Pprev

open Evm Gregorian

/-- The input signals of `PhiS`, the public ones first. -/
structure PhiSInputs where
  propertyHash : ℕ → F
  tenantHash : ℕ → F
  dateHash : ℕ → F
  propertyId : ℕ → F
  cB : F
  engagementDay : F
  bind : F
  property : ℕ → F
  tenant : ℕ → F
  date : ℕ → F
  propertyBlinder : ℕ → F
  tenantBlinder : ℕ → F
  dateBlinder : ℕ → F
  salt : F

/-- The assertions of the template. -/
def PhiSAsserts (PROPERTY_W TENANT_W : ℕ) : Prop :=
  varLe PROPERTY_W 32 ∧ varLt 16 PROPERTY_W ∧ varLe TENANT_W 31

section

variable {sha256 : Bytes → Bytes} {poseidon : F → F → F} (lib : Circomlib sha256 poseidon)

/-- The constraints of the template hold for some values of the signals that are no inputs. -/
def PhiS (PROPERTY_W TENANT_W : ℕ) (PAD : F) (x : PhiSInputs) : Prop :=
  ∃ (recordDate : F) (dayRange : ℕ → F) (notBefore bindSquared : F),
    OpenTo lib PROPERTY_W x.property x.propertyBlinder x.propertyHash ∧
    OpenTo lib TENANT_W x.tenant x.tenantBlinder x.tenantHash ∧
    OpenTo lib 10 x.date x.dateBlinder x.dateHash ∧
    PropertyWord PROPERTY_W x.property x.propertyId ∧
    NotPadding lib (x.tenant 0) PAD ∧
    CommitmentTo lib TENANT_W x.tenant x.salt x.cB ∧
    CalendarDate lib x.date recordDate ∧
    lib.Num2Bits 27 x.engagementDay dayRange ∧
    lib.GreaterEqThan 27 recordDate x.engagementDay notBefore ∧ notBefore = 1 ∧
    bindSquared = x.bind * x.bind

variable {lib}

theorem phiS_asserts {PROPERTY_W TENANT_W : ℕ} (hp : 17 ≤ PROPERTY_W ∧ PROPERTY_W ≤ 32)
    (ht : TENANT_W ≤ 31) : PhiSAsserts PROPERTY_W TENANT_W := by
  have h32 : 32 ≤ BN254_R / 2 := by decide
  have hle := (varLe_natCast (a := PROPERTY_W) (b := 32) (by omega) (by omega)).mpr hp.2
  have hlt := (varLt_natCast (a := 16) (b := PROPERTY_W) (by omega) (by omega)).mpr hp.1
  have hle' := (varLe_natCast (a := TENANT_W) (b := 31) (by omega) (by omega)).mpr ht
  exact ⟨by exact_mod_cast hle, by exact_mod_cast hlt, by exact_mod_cast hle'⟩

variable (lib)

/-- The circuit decides settlement: its constraints hold exactly for byte strings that open the
commitments, name the property and the committed identity, and spell a date no earlier than the
engagement day. -/
theorem tenancy (PROPERTY_W TENANT_W : ℕ) (PAD : UInt8)
    (hp : 17 ≤ PROPERTY_W ∧ PROPERTY_W ≤ 32) (ht : TENANT_W ≤ 31) :
    PhiSAsserts PROPERTY_W TENANT_W ∧
    ∀ x, PhiS lib PROPERTY_W TENANT_W (PAD.toNat : ℕ) x ↔ ∃ property tenant date : Bytes,
      Opens sha256 PROPERTY_W x.property x.propertyBlinder x.propertyHash property ∧
      Opens sha256 TENANT_W x.tenant x.tenantBlinder x.tenantHash tenant ∧
      Opens sha256 10 x.date x.dateBlinder x.dateHash date ∧
      IsLimbs x.propertyId (property ++ List.replicate (32 - PROPERTY_W) 0) ∧
      x.tenant 0 ≠ (PAD.toNat : ℕ) ∧
      x.cB = poseidon (packed tenant) x.salt ∧
      ∃ (d : Date) (engagementDay : ℕ), d.year < 10000 ∧ date = dateText d ∧
        x.engagementDay = engagementDay ∧ engagementDay < 2 ^ 27 ∧ engagementDay ≤ d.ymd := by
  refine ⟨phiS_asserts hp ht, fun x => ?_⟩
  have hcmp {d : Date} (hy : d.year < 10000) {e : ℕ} (he : e < 2 ^ 27) (out : F) :
      lib.GreaterEqThan 27 d.ymd e out ↔ out = flag (e ≤ d.ymd) :=
    lib.greaterEqThan_iff (by omega) (lt_trans (Date.ymd_lt hy) (by decide)) he
  constructor
  · rintro ⟨recordDate, dayRange, notBefore, bindSquared, hopenP, hopenT, hopenD, hword, hpad, hcb,
      hdate, hrange, hge, rfl, -⟩
    obtain ⟨property, hP⟩ := openTo_iff.mp hopenP
    obtain ⟨tenant, hT⟩ := openTo_iff.mp hopenT
    obtain ⟨date, hD⟩ := openTo_iff.mp hopenD
    obtain ⟨d, hy, htext, rfl⟩ := (calendarDate_iff hD.2.1 hD.1).mp hdate
    obtain ⟨e, he, heq⟩ := lib.num2Bits_range.mp ⟨_, hrange⟩
    refine ⟨property, tenant, date, hP, hT, hD, ?_, notPadding_iff.mp hpad, ?_, d, e, hy, htext, heq,
      he, ?_⟩
    · rw [← hP.1] at hword hp ⊢
      exact (propertyWord_iff hP.2.1 hp).mp hword
    · rw [← hT.1] at hcb
      exact (commitmentTo_iff hT.2.1).mp hcb
    · rw [heq] at hge
      exact flag_eq_one.mp ((hcmp hy he _).mp hge).symm
  · rintro ⟨property, tenant, date, hP, hT, hD, hword, hpad, hcb, d, e, hy, htext, heq, he, hle⟩
    obtain ⟨dayRange, hrange⟩ := lib.num2Bits_range.mpr ⟨e, he, heq⟩
    refine ⟨d.ymd, dayRange, 1, x.bind * x.bind, openTo_iff.mpr ⟨_, hP⟩, openTo_iff.mpr ⟨_, hT⟩,
      openTo_iff.mpr ⟨_, hD⟩, ?_, notPadding_iff.mpr hpad, ?_,
      (calendarDate_iff hD.2.1 hD.1).mpr ⟨d, hy, htext, rfl⟩, hrange, ?_, rfl, rfl⟩
    · rw [← hP.1] at hword hp ⊢
      exact (propertyWord_iff hP.2.1 hp).mpr hword
    · rw [← hT.1]
      exact (commitmentTo_iff hT.2.1).mpr hcb
    · rw [heq]
      exact (hcmp hy he _).mpr (flag_eq_one.mpr hle).symm

end

/-! ## The parameters of the committed main component -/

namespace Vectors

/-- The identifier and the salt of circomlib's test vector for the two-input Poseidon. -/
def tenantBytes : Bytes := List.replicate 15 0 ++ [1]

def notationProperty : Bytes := utf8 "TR-06-CANKAYA-000123"

def leapDay : Date := ⟨2028, 2, 29, by decide, by decide⟩

/-- SHA-256 on the values of a tenancy notation, each with a blinder of one repeated byte. -/
def notationHashes : List (Bytes × Bytes32) :=
  [(notationProperty ++ List.replicate 16 1,
      0x2107b0d767d2cba3251380dd649ba141f4f7cde81a0a670b1c9f867f26ecf94e),
    (tenantBytes ++ List.replicate 16 2,
      0x9469c3608d92c6c965948fe8ed316dc29750406538b1cf0dcedce038b7f4cbe4),
    (utf8 "2028-02-29" ++ List.replicate 16 3,
      0x713862f6e0e7370f711149a7ed734f20bd9fac50a321696bd4cb2e265f7ac7ee)]

def notationSha256 (m : Bytes) : Bytes := wordBytes ((notationHashes.lookup m).getD 0)

/-- The digest of the inputs 1 and 2. -/
def vectorDigest : F :=
  7853200120776062878684798364095072458815029376092732009249414926327459813530

/-- Poseidon on the inputs 1 and 2. -/
def vectorPoseidon (a b : F) : F := if a = 1 ∧ b = 2 then vectorDigest else 0

def notationCircomlib : Circomlib notationSha256 vectorPoseidon :=
  .documented _ _ (fun _ => length_wordBytes _) fun _ _ _ => False

/-- The input signals for a notation dated on the engagement day. -/
def notationInputs : PhiSInputs where
  propertyHash := limbSignals (notationSha256 (notationProperty ++ List.replicate 16 1))
  tenantHash := limbSignals (notationSha256 (tenantBytes ++ List.replicate 16 2))
  dateHash := limbSignals (notationSha256 (utf8 "2028-02-29" ++ List.replicate 16 3))
  propertyId := limbSignals (notationProperty ++ List.replicate 12 0)
  cB := vectorDigest
  engagementDay := (20280229 : ℕ)
  bind := 0
  property := signals notationProperty
  tenant := signals tenantBytes
  date := signals (utf8 "2028-02-29")
  propertyBlinder := signals (List.replicate 16 1)
  tenantBlinder := signals (List.replicate 16 2)
  dateBlinder := signals (List.replicate 16 3)
  salt := 2

end Vectors

open Vectors in
/-- A notation dated on a leap day that is the engagement day has a witness. -/
theorem tenancy_leapDay : PhiS notationCircomlib 20 16 ((32 : UInt8).toNat : ℕ) notationInputs := by
  have hcommit : vectorPoseidon (packed tenantBytes) 2 = vectorDigest := by
    rw [show packed tenantBytes = 1 by decide, Nat.cast_one, vectorPoseidon, if_pos ⟨rfl, rfl⟩]
  refine ((tenancy notationCircomlib 20 16 32 (by decide) (by decide)).2 notationInputs).mpr
    ⟨_, _, _, (opens_signals_iff (by decide) rfl).mpr rfl,
      (opens_signals_iff (by decide) rfl).mpr rfl,
      (opens_signals_iff (by decide) rfl).mpr rfl, isLimbs_limbSignals _, ?_, hcommit.symm,
      leapDay, 20280229, by decide, by decide, rfl, by decide, by decide⟩
  show ((0 : ℕ) : F) ≠ (32 : ℕ)
  rw [ne_eq, natCast_inj (by decide) (by decide)]
  decide

end Pprev
