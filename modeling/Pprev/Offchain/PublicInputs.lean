import Pprev.Circuit.Decimal
import Pprev.Contract.Types
import Pprev.Offchain.Layout

/-!
# Public inputs

The public inputs of the predicates as the policy verifier builds them, from `field.rs` and
`circuit.rs`: texts of decimal numbers. The Groth16 verifier of `groth16.rs` reads each text as an
element of the scalar field and refuses numbers at or above its order.
-/

namespace Pprev

open Evm Digits

/-! ## Words as public inputs -/

/-- The two halves of a word as texts, most significant first. -/
def limbTexts (word : Bytes32) : List String :=
  [toString (limbs (wordBytes word)).1, toString (limbs (wordBytes word)).2]

/-- The digest as a number, modulo the field order. -/
def bindValue (digest : Bytes32) : String := toString (packed (wordBytes digest) % BN254_R)

inductive PublicInputError where
  /-- a commitment is not 32 bytes -/
  | commitment
  /-- `txData.amount` exceeds 96 bits -/
  | amount
  /-- the engagement day exceeds 27 bits -/
  | engagementDay
  /-- `c_B` is not below the field order -/
  | cB
  deriving DecidableEq

/-- A number below the field order, which a word encodes. -/
def fieldElement (word : Bytes32) : Except PublicInputError String := do
  let value := packed (wordBytes word)
  ensure (value < BN254_R) .cB
  .ok (toString value)

/-! ## The public side of an instance -/

def PHI_A_AMOUNT_BITS : ℕ := 96

structure PhiRPublic where
  accountHash : Bytes32
  ownersHash : Bytes32
  propertyHash : Bytes32
  /-- `txData.propertyId` -/
  propertyId : Bytes32
  digest : Bytes32

structure PhiAPublic where
  accountHash : Bytes32
  incomeHash : Bytes32
  cB : String
  amount : String
  digest : Bytes32

structure PhiSPublic where
  propertyHash : Bytes32
  tenantHash : Bytes32
  dateHash : Bytes32
  propertyId : Bytes32
  cB : String
  /-- Y * 10000 + M * 100 + D -/
  engagementDay : ℕ
  digest : Bytes32

namespace PhiRPublic

/-- Two limbs per commitment, two limbs of `txData.propertyId`, `bind`. -/
def inputs (x : PhiRPublic) : List String :=
  [x.accountHash, x.ownersHash, x.propertyHash, x.propertyId].flatMap limbTexts ++
    [bindValue x.digest]

end PhiRPublic

namespace PhiAPublic

def new (accountHash incomeHash cB : Bytes32) (amount : Uint256) (digest : Bytes32) :
    Except PublicInputError PhiAPublic := do
  ensure (amount.toNat < 2 ^ PHI_A_AMOUNT_BITS) .amount
  .ok ⟨accountHash, incomeHash, ← fieldElement cB, toString amount.toNat, digest⟩

/-- Two limbs per commitment, `c_B`, the amount, `bind`. -/
def inputs (x : PhiAPublic) : List String :=
  limbTexts x.accountHash ++ limbTexts x.incomeHash ++ [x.cB] ++ [x.amount] ++ [bindValue x.digest]

end PhiAPublic

namespace PhiSPublic

def new (propertyHash tenantHash dateHash propertyId cB : Bytes32) (engagementDay : ℕ)
    (digest : Bytes32) : Except PublicInputError PhiSPublic := do
  ensure (engagementDay < 2 ^ 27) .engagementDay
  .ok ⟨propertyHash, tenantHash, dateHash, propertyId, ← fieldElement cB, engagementDay, digest⟩

/-- Two limbs per commitment, two limbs of `txData.propertyId`, `c_B`, the engagement day,
`bind`. -/
def inputs (x : PhiSPublic) : List String :=
  [x.propertyHash, x.tenantHash, x.dateHash, x.propertyId].flatMap limbTexts ++ [x.cB] ++
    [toString x.engagementDay] ++ [bindValue x.digest]

end PhiSPublic

/-! ## The Groth16 verifier -/

inductive Groth16Error where
  /-- not a decimal number -/
  | decimal (s : String)
  /-- the number exceeds 256 bits -/
  | bits (s : String)
  /-- the number is not below the field modulus -/
  | modulus (s : String)
  /-- the key expects another number of public inputs -/
  | inputs (given expected : ℕ)
  /-- the verification itself failed -/
  | verification
  deriving DecidableEq

/-- A decimal text as an element of the prime field of order `p`. -/
def field (p : ℕ) (s : String) : Except Groth16Error (Fin p) := do
  ensure (utf8 s ≠ [] ∧ IsDecimal (utf8 s)) (.decimal s)
  let n := decimalValue (utf8 s)
  ensure (n < 2 ^ 256) (.bits s)
  if h : n < p then .ok ⟨n, h⟩ else .error (.modulus s)

/-- A verifying key: the number of its public inputs, and its check of a proof, which may fail. -/
structure Groth16Verifier (Proof : Type) where
  nPublic : ℕ
  verifyProof : Proof → List (Fin BN254_R) → Option Bool

def Groth16Verifier.verify {Proof : Type} (key : Groth16Verifier Proof) (proof : Proof)
    (pub : List String) : Except Groth16Error Bool := do
  ensure (pub.length = key.nPublic) (.inputs pub.length key.nPublic)
  match key.verifyProof proof (← pub.mapM (field BN254_R)) with
  | some valid => .ok valid
  | none => .error .verification

/-! ## Words as numbers -/

theorem ofDigits_div_mod (b x n : ℕ) :
    Nat.ofDigits b ((List.range n).map fun j => x / b ^ j % b) = x % b ^ n := by
  induction n with
  | zero => simp [Nat.mod_one]
  | succ n ih =>
    rw [List.range_succ, List.map_append, Nat.ofDigits_append, ih, List.length_map,
      List.length_range, List.map_singleton, Nat.ofDigits_singleton, Nat.mod_pow_succ]

/-- The number of the bytes of a word. -/
theorem packed_wordBytes (w : Bytes32) : packed (wordBytes w) = w.toNat := by
  have hbytes : (digits (wordBytes w)).reverse =
      (List.range 32).map fun j => w.toNat / 256 ^ j % 256 := by
    refine List.ext_getElem (by simp) fun j hj hj' => ?_
    have hj : j < 32 := by simpa using hj'
    have hsub : 31 - (32 - 1 - j) = j := by omega
    simp [digits, wordBytes, hsub, Nat.shiftRight_eq_div_pow, pow_mul]
  rw [packed, bigEndian, hbytes, ofDigits_div_mod]
  exact Nat.mod_eq_of_lt w.isLt

theorem limbs_wordBytes (w : Bytes32) :
    limbs (wordBytes w) = (w.toNat / 2 ^ 128, w.toNat % 2 ^ 128) := by
  have hlt := limbs_lt (length_wordBytes w)
  unfold limbs at hlt ⊢
  set hi := packed ((wordBytes w).take 16)
  set lo := packed ((wordBytes w).drop 16)
  have hsplit : w.toNat = hi * 2 ^ 128 + lo := by
    rw [← packed_wordBytes, ← List.take_append_drop 16 (wordBytes w), packed_append,
      List.length_drop, length_wordBytes]
    rfl
  simp only at hlt
  exact Prod.ext (by simp only; omega) (by simp only; omega)

theorem fieldElement_eq_ok {word : Bytes32} {s : String} :
    fieldElement word = .ok s ↔ word.toNat < BN254_R ∧ s = toString word.toNat := by
  simp only [fieldElement, packed_wordBytes, bind_eq_ok, ensure_eq_ok, exists_const,
    Except.ok.injEq]
  exact and_congr_right fun _ => eq_comm

theorem PhiAPublic.new_eq_ok {accountHash incomeHash cB : Bytes32} {amount : Uint256}
    {digest : Bytes32} {x : PhiAPublic} :
    PhiAPublic.new accountHash incomeHash cB amount digest = .ok x ↔
      amount.toNat < 2 ^ PHI_A_AMOUNT_BITS ∧ cB.toNat < BN254_R ∧
        x = ⟨accountHash, incomeHash, toString cB.toNat, toString amount.toNat, digest⟩ := by
  simp only [PhiAPublic.new, bind_eq_ok, ensure_eq_ok, exists_const,
    fieldElement_eq_ok, Except.ok.injEq]
  constructor
  · rintro ⟨hamount, s, ⟨hcB, rfl⟩, rfl⟩
    exact ⟨hamount, hcB, rfl⟩
  · rintro ⟨hamount, hcB, rfl⟩
    exact ⟨hamount, _, ⟨hcB, rfl⟩, rfl⟩

theorem PhiSPublic.new_eq_ok {propertyHash tenantHash dateHash propertyId cB : Bytes32} {day : ℕ}
    {digest : Bytes32} {x : PhiSPublic} :
    PhiSPublic.new propertyHash tenantHash dateHash propertyId cB day digest = .ok x ↔
      day < 2 ^ 27 ∧ cB.toNat < BN254_R ∧
        x = ⟨propertyHash, tenantHash, dateHash, propertyId, toString cB.toNat, day, digest⟩ := by
  simp only [PhiSPublic.new, bind_eq_ok, ensure_eq_ok, exists_const, fieldElement_eq_ok,
    Except.ok.injEq]
  constructor
  · rintro ⟨hday, s, ⟨hcB, rfl⟩, rfl⟩
    exact ⟨hday, hcB, rfl⟩
  · rintro ⟨hday, hcB, rfl⟩
    exact ⟨hday, _, ⟨hcB, rfl⟩, rfl⟩

/-! ## Numbers as texts -/

/-- The bytes of a number's text spell it. -/
theorem decimal_toString (n : ℕ) :
    utf8 (toString n) ≠ [] ∧ IsDecimal (utf8 (toString n)) ∧
      decimalValue (utf8 (toString n)) = n := by
  rw [Nat.toString_eq_repr]
  induction n using Nat.strong_induction_on with
  | _ n ih =>
    have hdigit (d : ℕ) (hd : d < 10) : utf8 d.repr ≠ [] ∧ IsDecimal (utf8 d.repr) ∧
        decimalValue (utf8 d.repr) = d ∧ (utf8 d.repr).length = 1 := by
      revert d
      decide +kernel
    by_cases h : n < 10
    · exact ⟨(hdigit n h).1, (hdigit n h).2.1, (hdigit n h).2.2.1⟩
    · obtain ⟨hne, hdec, hval⟩ := ih (n / 10) (by omega)
      obtain ⟨-, hdec', hval', hlen⟩ := hdigit (n % 10) (Nat.mod_lt _ (by omega))
      rw [Nat.repr_eq_repr_append_repr (by omega), utf8_append]
      refine ⟨List.append_ne_nil_of_left_ne_nil hne _, fun b hb => ?_, ?_⟩
      · exact (List.mem_append.mp hb).elim (hdec b) (hdec' b)
      · rw [decimalValue_append, hval, hval', hlen]
        omega

theorem field_eq_ok {p : ℕ} {s : String} {x : Fin p} :
    field p s = .ok x ↔ (utf8 s ≠ [] ∧ IsDecimal (utf8 s)) ∧ decimalValue (utf8 s) < 2 ^ 256 ∧
      decimalValue (utf8 s) = x.val := by
  simp only [field, bind_eq_ok, ensure_eq_ok, exists_const]
  refine and_congr_right fun _ => and_congr_right fun _ => ?_
  split_ifs with h
  · rw [Except.ok.injEq, Fin.ext_iff]
  · refine iff_of_false (fun hx => ?_) fun hx => h (hx ▸ x.isLt)
    cases hx

/-- The text of a number is read as the number if this is below the field order, else refused. -/
theorem field_toString {p n : ℕ} (hp : p ≤ 2 ^ 256) {x : Fin p} :
    field p (toString n) = .ok x ↔ n = x.val := by
  obtain ⟨hne, hdec, hval⟩ := decimal_toString n
  rw [field_eq_ok, hval]
  exact ⟨fun h => h.2.2, fun h => ⟨⟨hne, hdec⟩, h ▸ x.isLt.trans_le hp, h⟩⟩

/-- Texts of numbers below the field order are all read, as these numbers. -/
theorem mapM_field {p : ℕ} (hp : p ≤ 2 ^ 256) {numbers : List ℕ} {out : List (Fin p)} :
    (numbers.map toString).mapM (field p) = .ok out ↔ numbers = out.map Fin.val := by
  induction numbers generalizing out with
  | nil => cases out <;> simp [pure, Except.pure]
  | cons n numbers ih =>
    simp only [List.map_cons, List.mapM_cons, bind_eq_ok, field_toString hp, ih, pure, Except.pure,
      Except.ok.injEq]
    constructor
    · rintro ⟨x, rfl, out, rfl, rfl⟩
      rfl
    · cases out with
      | nil => simp
      | cons x out =>
        intro h
        obtain ⟨hn, hnumbers⟩ := List.cons_eq_cons.mp h
        exact ⟨x, hn, out, hnumbers, rfl⟩

end Pprev
