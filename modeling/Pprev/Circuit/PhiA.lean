import Pprev.Circuit.PhiS

/-!
# Rental eligibility

The template of `phi_a.circom`: the income of a notarised session is at least a multiple of the
rent, and the account holder is the identity that was committed to. The assertions of the template
are evaluated in the field; the comparison is one of natural numbers exactly if the product they
bound is small before it is reduced.
-/

namespace Pprev

open Evm Digits

/-- Template parameters of `PhiA`. Those that are sizes of arrays are machine words. -/
structure PhiAParams where
  ACCOUNT_W : ℕ
  INCOME_W : ℕ
  PAD : F
  MULTIPLE : F
  AMOUNT_BITS : ℕ
  sizes : ACCOUNT_W < 2 ^ 64 ∧ INCOME_W < 2 ^ 64 ∧ AMOUNT_BITS < 2 ^ 64

def CMP_BITS : ℕ := 100

/-- The input signals of `PhiA`, the public ones first. -/
structure PhiAInputs where
  accountHash : ℕ → F
  incomeHash : ℕ → F
  cB : F
  amount : F
  bind : F
  account : ℕ → F
  income : ℕ → F
  accountBlinder : ℕ → F
  incomeBlinder : ℕ → F
  salt : F

/-- The assertions of the template and of the decimal value in it. -/
def PhiAParams.Asserts (p : PhiAParams) : Prop :=
  varLe p.ACCOUNT_W 31 ∧
  varLt (10 ^ p.INCOME_W) (2 ^ CMP_BITS) ∧
  (varLt 0 p.MULTIPLE ∧ varLt (p.MULTIPLE * 2 ^ p.AMOUNT_BITS) (2 ^ CMP_BITS)) ∧
  varLe p.INCOME_W 75

/-- What the circuit is to decide: byte strings open the commitments, name the committed identity,
and spell an income of at least the multiple of the amount. -/
def PhiAParams.Eligible (p : PhiAParams) (sha256 : Bytes → Bytes) (poseidon : F → F → F)
    (x : PhiAInputs) : Prop :=
  ∃ account income : Bytes,
    Opens sha256 p.ACCOUNT_W x.account x.accountBlinder x.accountHash account ∧
    Opens sha256 p.INCOME_W x.income x.incomeBlinder x.incomeHash income ∧
    x.account 0 ≠ p.PAD ∧
    x.cB = poseidon (packed account) x.salt ∧
    x.amount.val < 2 ^ p.AMOUNT_BITS ∧
    IsDecimal income ∧
    p.MULTIPLE.val * x.amount.val ≤ decimalValue income

section

variable {sha256 : Bytes → Bytes} {poseidon : F → F → F} (lib : Circomlib sha256 poseidon)

/-- The constraints of the template hold for some values of the signals that are no inputs. -/
def PhiA (p : PhiAParams) (x : PhiAInputs) : Prop :=
  ∃ (incomeValue : F) (amountRange : ℕ → F) (enough bindSquared : F),
    OpenTo lib p.ACCOUNT_W x.account x.accountBlinder x.accountHash ∧
    OpenTo lib p.INCOME_W x.income x.incomeBlinder x.incomeHash ∧
    NotPadding lib (x.account 0) p.PAD ∧
    CommitmentTo lib p.ACCOUNT_W x.account x.salt x.cB ∧
    DecimalValue lib p.INCOME_W x.income incomeValue ∧
    lib.Num2Bits p.AMOUNT_BITS x.amount amountRange ∧
    lib.GreaterEqThan CMP_BITS incomeValue (p.MULTIPLE * x.amount) enough ∧ enough = 1 ∧
    bindSquared = x.bind * x.bind

variable {lib}

/-- The constraints in terms of byte strings, up to the comparison. -/
theorem phiA_iff {p : PhiAParams} {x : PhiAInputs} : PhiA lib p x ↔ ∃ account income : Bytes,
    Opens sha256 p.ACCOUNT_W x.account x.accountBlinder x.accountHash account ∧
    Opens sha256 p.INCOME_W x.income x.incomeBlinder x.incomeHash income ∧
    x.account 0 ≠ p.PAD ∧
    x.cB = poseidon (packed account) x.salt ∧
    x.amount.val < 2 ^ p.AMOUNT_BITS ∧
    IsDecimal income ∧
    lib.GreaterEqThan CMP_BITS (decimalValue income) (p.MULTIPLE * x.amount) 1 := by
  have hrange : (∃ out, lib.Num2Bits p.AMOUNT_BITS x.amount out) ↔
      x.amount.val < 2 ^ p.AMOUNT_BITS := by
    rw [lib.num2Bits_range]
    constructor
    · rintro ⟨v, hv, hx⟩
      rw [hx, ZMod.val_natCast]
      exact (Nat.mod_le _ _).trans_lt hv
    · exact fun h => ⟨_, h, (ZMod.natCast_zmod_val x.amount).symm⟩
  constructor
  · rintro ⟨incomeValue, amountRange, enough, bindSquared, hopenA, hopenI, hpad, hcb, hdec, hbits,
      hge, rfl, -⟩
    obtain ⟨account, hA⟩ := openTo_iff.mp hopenA
    obtain ⟨income, hI⟩ := openTo_iff.mp hopenI
    rw [← hA.1] at hcb
    rw [← hI.1] at hdec
    obtain ⟨hdigits, rfl⟩ := (decimalValue_iff hI.2.1).mp hdec
    exact ⟨account, income, hA, hI, notPadding_iff.mp hpad, (commitmentTo_iff hA.2.1).mp hcb,
      hrange.mp ⟨_, hbits⟩, hdigits, hge⟩
  · rintro ⟨account, income, hA, hI, hpad, hcb, hamount, hdigits, hge⟩
    obtain ⟨amountRange, hbits⟩ := hrange.mpr hamount
    refine ⟨decimalValue income, amountRange, 1, x.bind * x.bind, openTo_iff.mpr ⟨_, hA⟩,
      openTo_iff.mpr ⟨_, hI⟩, notPadding_iff.mpr hpad, ?_, ?_, hbits, hge, rfl, rfl⟩
    · rw [← hA.1]
      exact (commitmentTo_iff hA.2.1).mpr hcb
    · rw [← hI.1]
      exact (decimalValue_iff hI.2.1).mpr ⟨hdigits, rfl⟩

end

/-! ## The assertions -/

section

variable {p : PhiAParams}

/-- The bound on the digits is one of natural numbers. -/
theorem Asserts.income_lt (h : p.Asserts) : 10 ^ p.INCOME_W < 2 ^ CMP_BITS := by
  obtain ⟨-, hpow, -, hdigits⟩ := h
  have hsize : p.INCOME_W ≤ BN254_R / 2 := p.sizes.2.1.le.trans (by decide)
  have h75 : p.INCOME_W ≤ 75 := by
    have := (varLe_natCast (a := p.INCOME_W) (b := 75) hsize (by decide)).mp
      (by exact_mod_cast hdigits)
    exact this
  have hle : 10 ^ p.INCOME_W ≤ BN254_R / 2 :=
    (Nat.pow_le_pow_right (by omega) h75).trans (by decide)
  have := (varLt_natCast (a := 10 ^ p.INCOME_W) (b := 2 ^ CMP_BITS) hle (by decide)).mp
    (by push_cast; exact hpow)
  exact this

theorem Asserts.multiple_mem (h : p.Asserts) :
    0 < p.MULTIPLE.val ∧ p.MULTIPLE.val ≤ BN254_R / 2 := by
  have hpos : 0 < p.MULTIPLE.valMinAbs := by
    have := h.2.2.1.1
    rwa [varLt, ZMod.valMinAbs_zero] at this
  refine ⟨Nat.pos_of_ne_zero fun h0 => ?_, (ZMod.valMinAbs_nonneg_iff _).mp hpos.le⟩
  rw [(ZMod.val_eq_zero _).mp h0, ZMod.valMinAbs_zero] at hpos
  exact lt_irrefl _ hpos

/-- A product below half the order is compared as a natural number. -/
theorem Asserts.product_lt (h : p.Asserts)
    (hhalf : p.MULTIPLE.val * 2 ^ p.AMOUNT_BITS ≤ BN254_R / 2) :
    p.MULTIPLE.val * 2 ^ p.AMOUNT_BITS < 2 ^ CMP_BITS := by
  refine (varLt_natCast hhalf (by decide)).mp ?_
  push_cast
  rw [ZMod.natCast_zmod_val]
  exact h.2.2.1.2

/-- The least multiple that is not small stays below the order. -/
theorem exists_multiple {m bound half order n : ℕ} (hpos : 0 < m) (hm : m ≤ half)
    (hbound : 2 * bound ≤ half) (horder : bound + half < order) (hn : 0 < n) (hbig : half < m * n) :
    ∃ a, a < n ∧ bound ≤ m * a ∧ m * a < order := by
  have hdiv := Nat.div_add_mod (bound + m - 1) m
  have hmod := Nat.mod_lt (bound + m - 1) hpos
  refine ⟨(bound + m - 1) / m, ?_, by omega, by omega⟩
  by_contra hge
  have hle : m * n ≤ m * ((bound + m - 1) / m) := Nat.mul_le_mul_left _ (by omega)
  rcases (by omega : n = 1 ∨ 2 ≤ n) with rfl | htwo
  · omega
  · have : m * 2 ≤ m * n := Nat.mul_le_mul_left _ htwo
    omega

/-- A product that is not small before it is reduced comes from an amount below the bound. -/
theorem Asserts.exists_amount (h : p.Asserts)
    (hbig : ¬p.MULTIPLE.val * 2 ^ p.AMOUNT_BITS < 2 ^ CMP_BITS) :
    ∃ a, a < 2 ^ p.AMOUNT_BITS ∧ 2 ^ CMP_BITS ≤ p.MULTIPLE.val * a ∧
      p.MULTIPLE.val * a < BN254_R := by
  obtain ⟨hpos, hhalf⟩ := multiple_mem h
  exact exists_multiple hpos hhalf (by decide) (by decide) (Nat.two_pow_pos _)
    (Nat.lt_of_not_le (mt (product_lt h) hbig))

end

/-- The circuit decides eligibility, whatever its comparators do on operands that are not small,
exactly if the product that the template bounds is small before it is reduced. -/
theorem eligibility (p : PhiAParams) (h : p.Asserts) (sha256 : Bytes → Bytes)
    (hlen : ∀ m, (sha256 m).length = 32) (poseidon : F → F → F) :
    (∀ (lib : Circomlib sha256 poseidon) (x : PhiAInputs),
      PhiA lib p x ↔ p.Eligible sha256 poseidon x) ↔
    p.MULTIPLE.val * 2 ^ p.AMOUNT_BITS < 2 ^ CMP_BITS := by
  have hincome := Asserts.income_lt h
  have hvalue {income : Bytes} (hI : income.length = p.INCOME_W) (hdec : IsDecimal income) :
      decimalValue income < 2 ^ CMP_BITS := (decimalValue_lt hdec).trans (hI ▸ hincome)
  have hproduct (x : PhiAInputs) :
      p.MULTIPLE * x.amount = (p.MULTIPLE.val * x.amount.val : ℕ) := by
    rw [Nat.cast_mul, ZMod.natCast_zmod_val, ZMod.natCast_zmod_val]
  constructor
  · intro hall
    by_contra hbig
    obtain ⟨a, ha, hge, hlt⟩ := Asserts.exists_amount h hbig
    obtain ⟨hpos, -⟩ := Asserts.multiple_mem h
    have har : a < BN254_R := (Nat.le_mul_of_pos_left a hpos).trans_lt hlt
    -- comparators that accept every operand that is not small accept an income of zero
    let lib : Circomlib sha256 poseidon := .documented _ _ hlen fun _ _ out => out = 1
    let first : UInt8 := if p.PAD = 0 then 1 else 0
    have hfirst : ((first.toNat : ℕ) : F) ≠ p.PAD := by
      by_cases hpad : p.PAD = 0
      · simp only [first, if_pos hpad, hpad]
        exact fun heq => zero_ne_one (by rw [← heq]; exact Nat.cast_one)
      · simp only [first, if_neg hpad]
        exact fun heq => hpad (by rw [← heq]; exact Nat.cast_zero)
    let account : Bytes := List.replicate p.ACCOUNT_W first
    let income : Bytes := List.replicate p.INCOME_W 48
    let blinder : Bytes := List.replicate 16 0
    let x : PhiAInputs := {
      accountHash := limbSignals (sha256 (account ++ blinder))
      incomeHash := limbSignals (sha256 (income ++ blinder))
      cB := poseidon (packed account) 0
      amount := (a : ℕ)
      bind := 0
      account := fun _ => (first.toNat : ℕ)
      income := signals income
      accountBlinder := signals blinder
      incomeBlinder := signals blinder
      salt := 0 }
    have hval : x.amount.val = a := ZMod.val_natCast_of_lt har
    have hprod : ¬(p.MULTIPLE * x.amount).val < 2 ^ CMP_BITS := by
      rw [hproduct, hval, ZMod.val_natCast_of_lt hlt]
      exact Nat.not_lt.mpr hge
    have hholds : Holds x.account account := by
      intro i hi
      rw [length_digits] at hi
      simp [x, account, digits, List.getElem_replicate, List.getD_eq_getElem?_getD,
        show i < p.ACCOUNT_W by simpa [account] using hi]
    have hdigits : IsDecimal income := fun b hb => by
      rw [List.eq_of_mem_replicate hb]
      decide
    have hphi : PhiA lib p x := phiA_iff.mpr ⟨account, income,
      ⟨List.length_replicate, hholds, blinder, List.length_replicate, holds_signals _,
        isLimbs_limbSignals _⟩,
      (opens_signals_iff List.length_replicate List.length_replicate).mpr rfl, hfirst, rfl,
      hval.symm ▸ ha, hdigits, (if_neg fun hlt => hprod hlt.2).mpr rfl⟩
    obtain ⟨_, income', _, hI, _, _, _, hdec, hle⟩ := (hall lib x).mp hphi
    have hsmall := hvalue hI.1 hdec
    rw [hval] at hle
    omega
  · intro hsmall lib x
    rw [phiA_iff]
    refine exists_congr fun account => exists_congr fun income => ?_
    simp only [and_congr_right_iff]
    intro hA hI hpad hcb hamount hdec
    have hlt : p.MULTIPLE.val * x.amount.val < 2 ^ CMP_BITS :=
      (Nat.mul_le_mul_left _ hamount.le).trans_lt hsmall
    rw [hproduct, lib.greaterEqThan_iff (by decide) (hvalue hI.1 hdec) hlt, eq_comm, flag_eq_one]

/-! ## The parameters of the committed main component, and parameters that wrap around -/

/-- Parameters whose assertions are about small numbers, up to the product. -/
theorem asserts_of_small {p : PhiAParams} {m : ℕ} (hm : p.MULTIPLE = m)
    (haccount : p.ACCOUNT_W ≤ 31) (hincome : p.INCOME_W ≤ 30) (hpos : 0 < m)
    (hhalf : m ≤ BN254_R / 2) (hprod : varLt (p.MULTIPLE * 2 ^ p.AMOUNT_BITS) (2 ^ CMP_BITS)) :
    p.Asserts := by
  have h75 : 75 ≤ BN254_R / 2 := by decide
  have hpow : 10 ^ p.INCOME_W ≤ 10 ^ 30 := Nat.pow_le_pow_right (by omega) hincome
  have h1 := (varLe_natCast (a := p.ACCOUNT_W) (b := 31) (by omega) (by omega)).mpr haccount
  have h2 := (varLt_natCast (a := 10 ^ p.INCOME_W) (b := 2 ^ CMP_BITS)
    (hpow.trans (by decide)) (by decide)).mpr (hpow.trans_lt (by decide))
  have h3 := (varLt_natCast (a := 0) (b := m) (by omega) hhalf).mpr hpos
  have h4 := (varLe_natCast (a := p.INCOME_W) (b := 75) (by omega) h75).mpr (by omega)
  push_cast at h2
  refine ⟨by exact_mod_cast h1, h2, ⟨?_, hprod⟩, by exact_mod_cast h4⟩
  rw [hm]
  exact_mod_cast h3

namespace Vectors

/-- The parameters of `main_income_v1.circom`. -/
def incomeParams : PhiAParams := ⟨16, 20, (32 : ℕ), (3 : ℕ), 96, by decide⟩

/-- SHA-256 on an account and two incomes, each with a blinder of one repeated byte. -/
def incomeHashes : List (Bytes × Bytes32) :=
  [(tenantBytes ++ List.replicate 16 1,
      0x538c74bcb2acd59148a04423b1cfcc53532fcb58e936978faeec40ac891d4655),
    (utf8 "00000000000000000300" ++ List.replicate 16 2,
      0x342b32834a6b039f4fead287cea8ed4237c7e94b74a508430684654cafc8d189),
    (utf8 "00000000000000000002" ++ List.replicate 16 2,
      0xfd27b84f33b84258a49bb38fc4a407da2b4c0420d2bd06b373be4adfb9684e7f)]

def incomeSha256 (m : Bytes) : Bytes := wordBytes ((incomeHashes.lookup m).getD 0)

def incomeCircomlib : Circomlib incomeSha256 vectorPoseidon :=
  .documented _ _ (fun _ => length_wordBytes _) fun _ _ _ => False

/-- The input signals for an income and an amount. -/
def incomeInputs (income : Bytes) (amount : ℕ) : PhiAInputs where
  accountHash := limbSignals (incomeSha256 (tenantBytes ++ List.replicate 16 1))
  incomeHash := limbSignals (incomeSha256 (income ++ List.replicate 16 2))
  cB := vectorDigest
  amount := amount
  bind := 0
  account := signals tenantBytes
  income := signals income
  accountBlinder := signals (List.replicate 16 1)
  incomeBlinder := signals (List.replicate 16 2)
  salt := 2

theorem vectorPoseidon_tenant : vectorPoseidon (packed tenantBytes) 2 = vectorDigest := by
  rw [show packed tenantBytes = 1 by decide, Nat.cast_one, vectorPoseidon, if_pos ⟨rfl, rfl⟩]

theorem tenant_not_padding : signals tenantBytes 0 ≠ ((32 : ℕ) : F) := by
  show ((0 : ℕ) : F) ≠ (32 : ℕ)
  rw [ne_eq, natCast_inj (by decide) (by decide)]
  decide

/-- Parameters whose product is negative once it is reduced. -/
def wrapParams : PhiAParams := ⟨16, 20, (32 : ℕ), (3 : ℕ), 253, by decide⟩

/-- A third of two more than the field order. -/
def wrapAmount : ℕ := 7296080957279758407415468581752425029516121466805344781232734728858602831873

end Vectors

open Vectors in
/-- The committed main component accepts an income of three times the amount. -/
theorem eligibility_income : PhiA incomeCircomlib incomeParams
    (incomeInputs (utf8 "00000000000000000300") 100) := by
  have hprod : varLt (incomeParams.MULTIPLE * 2 ^ incomeParams.AMOUNT_BITS) (2 ^ CMP_BITS) := by
    have := (varLt_natCast (a := 3 * 2 ^ 96) (b := 2 ^ CMP_BITS) (by decide) (by decide)).mpr
      (by decide)
    simp only [Nat.cast_mul, Nat.cast_pow, Nat.cast_ofNat] at this
    simpa only [incomeParams, Nat.cast_ofNat] using this
  have hasserts : incomeParams.Asserts :=
    asserts_of_small (m := 3) rfl (by decide) (by decide) (by decide) (by decide) hprod
  have hM : incomeParams.MULTIPLE.val = 3 := ZMod.val_natCast_of_lt (by decide)
  have ha : (incomeInputs (utf8 "00000000000000000300") 100).amount.val = 100 :=
    ZMod.val_natCast_of_lt (by decide)
  have hall := (eligibility incomeParams hasserts incomeSha256 (fun _ => length_wordBytes _)
    vectorPoseidon).mpr (by rw [hM]; decide)
  refine (hall incomeCircomlib _).mpr ⟨tenantBytes, utf8 "00000000000000000300",
    (opens_signals_iff (by decide) rfl).mpr rfl, (opens_signals_iff (by decide) rfl).mpr rfl,
    tenant_not_padding, vectorPoseidon_tenant.symm, ?_, by decide +kernel, ?_⟩
  · rw [ha]
    decide
  · rw [hM, ha]
    decide

open Vectors in
/-- With a multiple of 3 and 253 bits the assertions pass, and an income of 2 is accepted for an
amount of 76 digits: three times the amount is 2 modulo the field order. -/
theorem eligibility_wraps : wrapParams.Asserts ∧
    PhiA incomeCircomlib wrapParams (incomeInputs (utf8 "00000000000000000002") wrapAmount) ∧
    ¬wrapParams.Eligible incomeSha256 vectorPoseidon
      (incomeInputs (utf8 "00000000000000000002") wrapAmount) := by
  have hM : wrapParams.MULTIPLE.val = 3 := ZMod.val_natCast_of_lt (by decide)
  have ha : (incomeInputs (utf8 "00000000000000000002") wrapAmount).amount.val = wrapAmount :=
    ZMod.val_natCast_of_lt (by decide)
  have hreduced : wrapParams.MULTIPLE * 2 ^ wrapParams.AMOUNT_BITS =
      ((3 * 2 ^ 253 - BN254_R : ℕ) : F) := by
    rw [Nat.cast_sub (by decide), ZMod.natCast_self, sub_zero]
    simp only [wrapParams, Nat.cast_mul, Nat.cast_pow, Nat.cast_ofNat]
  have hproduct : wrapParams.MULTIPLE *
      (incomeInputs (utf8 "00000000000000000002") wrapAmount).amount = (2 : ℕ) := by
    show ((3 : ℕ) : F) * (wrapAmount : ℕ) = (2 : ℕ)
    rw [← Nat.cast_mul, ZMod.natCast_eq_natCast_iff']
    decide
  refine ⟨asserts_of_small (m := 3) rfl (by decide) (by decide) (by decide) (by decide) ?_, ?_, ?_⟩
  · -- the product is above half the order, so it counts as negative
    have hbound := valMinAbs_natCast (a := 2 ^ CMP_BITS) (by decide)
    rw [Nat.cast_pow, Nat.cast_ofNat] at hbound
    rw [varLt, hreduced, ZMod.valMinAbs_natCast_of_half_lt (by decide) (by decide), hbound]
    decide
  · refine phiA_iff.mpr ⟨tenantBytes, utf8 "00000000000000000002",
      (opens_signals_iff (by decide) rfl).mpr rfl, (opens_signals_iff (by decide) rfl).mpr rfl,
      tenant_not_padding, vectorPoseidon_tenant.symm, ?_, by decide +kernel, ?_⟩
    · rw [ha]
      decide
    · rw [hproduct, show decimalValue (utf8 "00000000000000000002") = 2 by decide]
      exact (incomeCircomlib.greaterEqThan_iff (by decide) (by decide) (by decide)).mpr
        (flag_eq_one.mpr le_rfl).symm
  · rintro ⟨_, income, _, hI, _, _, _, hdec, hle⟩
    have hvalue := decimalValue_lt hdec
    rw [hI.1] at hvalue
    rw [hM, ha] at hle
    exact absurd (hle.trans_lt hvalue) (by decide)

end Pprev
