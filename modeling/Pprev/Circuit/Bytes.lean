import Pprev.Circuit.Circomlib
import Pprev.Data.Slice
import Mathlib.Tactic.Choose

/-!
# Byte strings in circuits

The templates of `lib/bytes.circom`. Signals that open a commitment are bytes, and the commitment
is the SHA-256 hash of these bytes.
-/

namespace Pprev

open Evm Finset Digits Slice

/-- The signals are the bytes of the sequence. -/
def Holds (x : ℕ → F) (m : Bytes) : Prop := Carries x (digits m)

/-- The signals of a sequence of bytes. -/
def signals (m : Bytes) (i : ℕ) : F := ((digits m).getD i 0 : ℕ)

theorem holds_signals (m : Bytes) : Holds (signals m) m := fun _ _ => rfl

theorem Holds.eq_signals {x : ℕ → F} {m : Bytes} (h : Holds x m) {i : ℕ} (hi : i < m.length) :
    x i = signals m i := h i (by rwa [length_digits])

theorem Holds.of_append {x : ℕ → F} {m m' : Bytes} (h : Holds x (m ++ m')) :
    Holds x m ∧ Holds (fun i => x (m.length + i)) m' := by
  rw [Holds, digits_append] at h
  obtain ⟨h1, h2⟩ := h.of_append
  rw [length_digits] at h2
  exact ⟨h1, h2⟩

theorem Holds.sliced {x : ℕ → F} {m : Bytes} {start len : ℕ} (h : Holds x m)
    (hlen : start + len ≤ m.length) : Holds (fun i => x (start + i)) (slice m start len) := by
  intro i hi
  rw [length_digits, length_slice hlen] at hi
  show x (start + i) = _
  rw [h (start + i) (by rw [length_digits]; omega)]
  simp only [digits, Slice.slice, List.getD_eq_getElem?_getD, List.getElem?_map,
    List.getElem?_take_of_lt hi, List.getElem?_drop]

/-- A comparison of a signal that is a byte. -/
theorem Holds.eq_byte {x : ℕ → F} {m : Bytes} (h : Holds x m) {i : ℕ} (hi : i < m.length)
    (b : UInt8) : x i = (b.toNat : ℕ) ↔ m[i]? = some b := by
  rw [h i (by rwa [length_digits]), List.getElem?_eq_getElem hi, Option.some.injEq]
  rw [digits, List.getD_eq_getElem?_getD, List.getElem?_map, List.getElem?_eq_getElem hi]
  have hlt (b : UInt8) : b.toNat < BN254_R := b.toNat_lt.trans (by decide)
  rw [Option.map_some, Option.getD_some, natCast_inj (hlt _) (hlt _), UInt8.toNat_inj]

theorem Holds.unique {x : ℕ → F} {m m' : Bytes} (h : Holds x m) (h' : Holds x m')
    (hlen : m.length = m'.length) : m = m' := by
  refine List.ext_getElem hlen fun i hi hi' => ?_
  have hbyte := (h'.eq_byte hi' m[i]).mp ((h.eq_byte hi m[i]).mpr (List.getElem?_eq_getElem hi))
  rw [List.getElem?_eq_getElem hi', Option.some.injEq] at hbyte
  exact hbyte.symm

/-! ## The number of a sequence -/

/-- The bytes read as one number, most significant first. -/
def packed (m : Bytes) : ℕ := bigEndian 256 (digits m)

theorem packed_lt (m : Bytes) : packed m < 256 ^ m.length := by
  have h := bigEndian_lt (by omega) (lt_of_mem_digits (m := m))
  rwa [length_digits] at h

theorem packed_inj {m m' : Bytes} (hlen : m.length = m'.length) (h : packed m = packed m') :
    m = m' :=
  digits_injective (bigEndian_inj (by omega) (by simpa using hlen) lt_of_mem_digits
    lt_of_mem_digits h)

theorem packed_append (m m' : Bytes) :
    packed (m ++ m') = packed m * 256 ^ m'.length + packed m' := by
  rw [packed, digits_append, bigEndian_append, length_digits]
  rfl

/-- As long as a sequence has at most 31 bytes, its number is below the field order. -/
theorem packed_lt_order {m : Bytes} (h : m.length ≤ 31) : packed m < BN254_R :=
  calc packed m < 256 ^ m.length := packed_lt m
    _ ≤ 256 ^ 31 := Nat.pow_le_pow_right (by omega) h
    _ < BN254_R := by decide

/-- The two 128-bit halves of a big-endian 32-byte value, most significant first. -/
def limbs (word : Bytes) : ℕ × ℕ := (packed (word.take 16), packed (word.drop 16))

/-- The signals are the halves of a 32-byte value. -/
def IsLimbs (x : ℕ → F) (word : Bytes) : Prop := x 0 = (limbs word).1 ∧ x 1 = (limbs word).2

/-- The signals of the halves of a 32-byte value. -/
def limbSignals (word : Bytes) (i : ℕ) : F := if i = 0 then (limbs word).1 else (limbs word).2

theorem isLimbs_limbSignals (word : Bytes) : IsLimbs (limbSignals word) word := ⟨rfl, rfl⟩

theorem limbs_lt {word : Bytes} (h : word.length = 32) :
    (limbs word).1 < 2 ^ 128 ∧ (limbs word).2 < 2 ^ 128 := by
  have hhi := packed_lt (word.take 16)
  have hlo := packed_lt (word.drop 16)
  rw [List.length_take, h] at hhi
  rw [List.length_drop, h] at hlo
  exact ⟨hhi, hlo⟩

/-- The halves of a value determine it. -/
theorem limbs_inj {w w' : Bytes} (h : w.length = w'.length) (hlimbs : limbs w = limbs w') :
    w = w' := by
  obtain ⟨hhi, hlo⟩ := Prod.mk.inj hlimbs
  rw [← List.take_append_drop 16 w, ← List.take_append_drop 16 w',
    packed_inj (by rw [List.length_take, List.length_take, h]) hhi,
    packed_inj (by rw [List.length_drop, List.length_drop, h]) hlo]

theorem IsLimbs.unique {x : ℕ → F} {w w' : Bytes} (hw : w.length = 32) (hw' : w'.length = 32)
    (h : IsLimbs x w) (h' : IsLimbs x w') : w = w' := by
  have hlt := limbs_lt hw
  have hlt' := limbs_lt hw'
  have h128 : 2 ^ 128 < BN254_R := by decide
  have hhi := (natCast_inj (by omega) (by omega)).mp (h.1.symm.trans h'.1)
  have hlo := (natCast_inj (by omega) (by omega)).mp (h.2.symm.trans h'.2)
  exact limbs_inj (hw.trans hw'.symm) (Prod.ext hhi hlo)

/-! ## The templates -/

section

variable {sha256 : Bytes → Bytes} {poseidon : F → F → F} (lib : Circomlib sha256 poseidon)

def BytesToBitsMsbFirst (n : ℕ) (bytes bits : ℕ → F) : Prop :=
  ∃ dec : ℕ → ℕ → F, ∀ i < n,
    lib.Num2Bits 8 (bytes i) (dec i) ∧ ∀ j < 8, bits (8 * i + j) = dec i (7 - j)

def OpenCommitment (n : ℕ) (message blinder limbs : ℕ → F) : Prop :=
  ∃ (bytes bits out : ℕ → F) (hi lo : F),
    (∀ i < n, bytes i = message i) ∧
    (∀ i < 16, bytes (n + i) = blinder i) ∧
    BytesToBitsMsbFirst lib (n + 16) bytes bits ∧
    lib.Sha256 (8 * (n + 16)) bits out ∧
    lib.Bits2Num 128 (fun i => out (127 - i)) hi ∧
    lib.Bits2Num 128 (fun i => out (255 - i)) lo ∧
    limbs 0 = hi ∧ limbs 1 = lo

def PackBytes (n : ℕ) (bytes : ℕ → F) (out : F) : Prop :=
  out = (List.range n).foldl (fun acc i => acc * 256 + bytes i) 0

variable {lib}

theorem bytesToBits_iff {n : ℕ} {bytes bits : ℕ → F} : BytesToBitsMsbFirst lib n bytes bits ↔
    ∃ m : Bytes, m.length = n ∧ Holds bytes m ∧ ∀ i < 8 * n, bits i = (bit (digits m) i : ℕ) := by
  constructor
  · rintro ⟨dec, h⟩
    have hbytes : ∀ i, ∃ v : ℕ, i < n →
        v < 2 ^ 8 ∧ bytes i = v ∧ ∀ j < 8, dec i j = (v / 2 ^ j % 2 : ℕ) := by
      intro i
      by_cases hi : i < n
      · obtain ⟨v, hv⟩ := lib.exists_num2Bits (h i hi).1
        exact ⟨v, fun _ => hv⟩
      · exact ⟨0, fun h => absurd h hi⟩
    choose v hv using hbytes
    have hget : ∀ i < n, (digits ((List.range n).map fun i => UInt8.ofNat (v i))).getD i 0 = v i := by
      intro i hi
      rw [digits, List.map_map, List.getD_eq_getElem?_getD, List.getElem?_map,
        List.getElem?_range hi]
      exact Nat.mod_eq_of_lt (hv i hi).1
    refine ⟨(List.range n).map fun i => UInt8.ofNat (v i), by simp, fun i hi => ?_, fun k hk => ?_⟩
    · have hi : i < n := by simpa using hi
      rw [hget i hi, (hv i hi).2.1]
    · have hi : k / 8 < n := by omega
      have hbit := (h _ hi).2 (k % 8) (by omega)
      rw [Nat.div_add_mod, (hv _ hi).2.2 _ (by omega)] at hbit
      rw [hbit, bit, hget _ hi]
  · rintro ⟨m, rfl, hm, hbits⟩
    refine ⟨fun i j => ((digits m).getD i 0 / 2 ^ j % 2 : ℕ), fun i hi => ⟨?_, fun j hj => ?_⟩⟩
    · rw [hm.eq_signals hi]
      refine lib.num2Bits_natCast (lt_of_mem_digits (m := m) _ ?_)
      rw [List.getD_eq_getElem _ _ (by rwa [length_digits])]
      exact List.getElem_mem _
    · rw [hbits _ (by omega), bit, show (8 * i + j) / 8 = i by omega,
        show (8 * i + j) % 8 = j by omega]

theorem packBytes_iff {bytes : ℕ → F} {m : Bytes} {out : F} (h : Holds bytes m) :
    PackBytes m.length bytes out ↔ out = packed m := by
  have hfold := Carries.foldl 256 h
  rw [length_digits] at hfold
  unfold PackBytes
  rw [packed, ← hfold]
  rfl

/-- Bits of bytes, read from the last one up, are their number. -/
theorem sum_bits_eq {m : Bytes} {x : ℕ → F}
    (hx : ∀ i < 8 * m.length, x i = (bit (digits m) i : ℕ)) :
    ∑ i ∈ range (8 * m.length), x (8 * m.length - 1 - i) * 2 ^ i = packed m := by
  have hsum := congrArg (Nat.cast : ℕ → F) (sum_bit (lt_of_mem_digits (m := m)))
  rw [length_digits, Nat.cast_sum] at hsum
  rw [packed, ← hsum]
  refine sum_congr rfl fun i hi => ?_
  have hi := mem_range.mp hi
  rw [hx _ (by omega)]
  push_cast
  rfl

/-- The bits of a digest, read from the last one of each half up, are its limbs. -/
theorem sum_bits_limbs {h : Bytes} (hlen : h.length = 32) {out : ℕ → F}
    (hout : ∀ i < 256, out i = (bit (digits h) i : ℕ)) :
    ∑ i ∈ range 128, out (127 - i) * 2 ^ i = (limbs h).1 ∧
      ∑ i ∈ range 128, out (255 - i) * 2 ^ i = (limbs h).2 := by
  have htake : 8 * (h.take 16).length = 128 := by simp [hlen]
  have hdrop : 8 * (h.drop 16).length = 128 := by simp [hlen]
  rw [← List.take_append_drop 16 h, digits_append] at hout
  constructor
  · have hsum := sum_bits_eq (m := h.take 16) (x := out) fun i hi => by
      rw [hout i (by omega), bit_append_left (by rwa [length_digits])]
    rwa [htake] at hsum
  · have hsum := sum_bits_eq (m := h.drop 16) (x := fun i => out (128 + i)) fun i hi => by
      have hright := bit_append_right (digits (h.take 16)) (digits (h.drop 16)) i
      rw [length_digits, htake] at hright
      rw [hout _ (by omega), hright]
    rw [hdrop] at hsum
    rw [limbs, ← hsum]
    refine sum_congr rfl fun i hi => ?_
    have hi := mem_range.mp hi
    rw [show 128 + (128 - 1 - i) = 255 - i by omega]

/-- The message signals are the bytes of a sequence that opens a public hash with the bytes that the
blinder signals are. -/
def Opens (sha256 : Bytes → Bytes) (n : ℕ) (message blinder hash : ℕ → F) (m : Bytes) : Prop :=
  m.length = n ∧ Holds message m ∧
    ∃ b : Bytes, b.length = 16 ∧ Holds blinder b ∧ IsLimbs hash (sha256 (m ++ b))

/-- The signals of a sequence and of its hash open to this sequence alone. -/
theorem opens_signals_iff {sha256 : Bytes → Bytes} {n : ℕ} {m b m' : Bytes} (hm : m.length = n)
    (hb : b.length = 16) :
    Opens sha256 n (signals m) (signals b) (limbSignals (sha256 (m ++ b))) m' ↔ m' = m := by
  constructor
  · rintro ⟨hlen, hholds, -⟩
    exact hholds.unique (holds_signals m) (hlen.trans hm.symm)
  · rintro rfl
    exact ⟨hm, holds_signals _, b, hb, holds_signals b, isLimbs_limbSignals _⟩

/-- Signals open a commitment exactly if they are bytes and it is their hash. -/
theorem openCommitment_iff {n : ℕ} {message blinder hash : ℕ → F} :
    OpenCommitment lib n message blinder hash ↔ ∃ m, Opens sha256 n message blinder hash m := by
  constructor
  · rintro ⟨bytes, bits, out, hi, lo, hmsg, hbl, hbits, hsha, hhi, hlo, h0, h1⟩
    obtain ⟨mb, hlen, hmb, hbits⟩ := bytesToBits_iff.mp hbits
    rw [← hlen] at hsha hbits
    have hout := (lib.sha256_iff hbits).mp hsha
    have hbit : ∀ i < 256, out i = 0 ∨ out i = 1 := fun i hi => by
      rcases bit_lt_two (digits (sha256 mb)) i with h | h <;> simp [hout i hi, h]
    obtain ⟨hsumhi, hsumlo⟩ := sum_bits_limbs (lib.length_sha256 _) hout
    have hparts := hmb
    rw [← List.take_append_drop n mb] at hparts
    obtain ⟨hm, hb⟩ := hparts.of_append
    rw [List.length_take, hlen, Nat.min_eq_left (by omega)] at hb
    refine ⟨mb.take n, by simp [hlen], fun i hi => ?_, mb.drop n, by simp [hlen], fun i hi => ?_,
      ?_, ?_⟩
    · rw [← hmsg i (by simpa [hlen] using hi), hm i hi]
    · rw [← hbl i (by simpa [hlen] using hi)]
      exact hb i hi
    · rw [List.take_append_drop, h0, (lib.bits2Num_iff fun i _ => hbit _ (by omega)).mp hhi, hsumhi]
    · rw [List.take_append_drop, h1, (lib.bits2Num_iff fun i _ => hbit _ (by omega)).mp hlo, hsumlo]
  · rintro ⟨m, rfl, hm, b, hb, hbl, h0, h1⟩
    have hlen : (m ++ b).length = m.length + 16 := by rw [List.length_append, hb]
    have hbit : ∀ i, ((bit (digits (sha256 (m ++ b))) i : ℕ) : F) = 0 ∨
        ((bit (digits (sha256 (m ++ b))) i : ℕ) : F) = 1 := fun i => by
      rcases bit_lt_two (digits (sha256 (m ++ b))) i with h | h <;> simp [h]
    obtain ⟨hsumhi, hsumlo⟩ := sum_bits_limbs (lib.length_sha256 (m ++ b)) fun _ _ => rfl
    have hmb := (holds_signals (m ++ b)).of_append
    refine ⟨signals (m ++ b), fun i => (bit (digits (m ++ b)) i : ℕ),
      fun i => (bit (digits (sha256 (m ++ b))) i : ℕ), hash 0, hash 1, fun i hi => ?_,
      fun i hi => ?_, bytesToBits_iff.mpr ⟨m ++ b, hlen, holds_signals _, fun _ _ => rfl⟩, ?_, ?_,
      ?_, rfl, rfl⟩
    · rw [hmb.1.eq_signals hi, hm.eq_signals hi]
    · rw [hbl.eq_signals (by omega)]
      exact hmb.2.eq_signals (by omega)
    · rw [← hlen]
      exact (lib.sha256_iff fun _ _ => rfl).mpr fun _ _ => rfl
    · exact (lib.bits2Num_iff fun i _ => hbit _).mpr (h0.trans hsumhi.symm)
    · exact (lib.bits2Num_iff fun i _ => hbit _).mpr (h1.trans hsumlo.symm)

variable (lib)

/-- The gadget by which each circuit opens an attested commitment. -/
def OpenTo (n : ℕ) (message blinder hash : ℕ → F) : Prop :=
  ∃ limbs : ℕ → F, OpenCommitment lib n message blinder limbs ∧ ∀ i < 2, limbs i = hash i

/-- The gadget by which a circuit compares a committed property identifier, zero-padded to 32
bytes, with the public one. -/
def PropertyWord (PROPERTY_W : ℕ) (property propertyId : ℕ → F) : Prop :=
  ∃ propertyHi propertyLo : F,
    PackBytes 16 property propertyHi ∧
    PackBytes (PROPERTY_W - 16) (fun i => property (16 + i)) propertyLo ∧
    propertyHi = propertyId 0 ∧ propertyLo * 256 ^ (32 - PROPERTY_W) = propertyId 1

/-- The gadget by which a circuit compares a commitment to an identifier with the public one. -/
def CommitmentTo (n : ℕ) (identifier : ℕ → F) (salt cB : F) : Prop :=
  ∃ packed commitment : F,
    PackBytes n identifier packed ∧ lib.Poseidon packed salt commitment ∧ commitment = cB

/-- The gadget by which a circuit refuses an empty identifier. -/
def NotPadding (first PAD : F) : Prop := ∃ out, lib.IsEqual first PAD out ∧ out = 0

variable {lib}

theorem openTo_iff {n : ℕ} {message blinder hash : ℕ → F} :
    OpenTo lib n message blinder hash ↔ ∃ m, Opens sha256 n message blinder hash m := by
  constructor
  · rintro ⟨limbs, hopen, hlimbs⟩
    obtain ⟨m, hlen, hm, b, hb, hbl, h0, h1⟩ := openCommitment_iff.mp hopen
    exact ⟨m, hlen, hm, b, hb, hbl, (hlimbs 0 (by omega)).symm.trans h0,
      (hlimbs 1 (by omega)).symm.trans h1⟩
  · exact fun h => ⟨hash, openCommitment_iff.mpr h, fun _ _ => rfl⟩

theorem notPadding_iff {first PAD : F} : NotPadding lib first PAD ↔ first ≠ PAD := by
  constructor
  · rintro ⟨out, hout, h0⟩
    rwa [lib.isEqual_iff.mp hout, flag_eq_zero] at h0
  · exact fun h => ⟨0, lib.isEqual_iff.mpr (flag_eq_zero.mpr h).symm, rfl⟩

theorem commitmentTo_iff {identifier : ℕ → F} {m : Bytes} {salt cB : F}
    (h : Holds identifier m) :
    CommitmentTo lib m.length identifier salt cB ↔ cB = poseidon (packed m) salt := by
  constructor
  · rintro ⟨p, commitment, hp, hc, rfl⟩
    rw [lib.poseidon_iff.mp hc, (packBytes_iff h).mp hp]
  · rintro rfl
    exact ⟨_, _, (packBytes_iff h).mpr rfl, lib.poseidon_iff.mpr rfl, rfl⟩

theorem packed_replicate (n : ℕ) : packed (List.replicate n 0) = 0 := by
  induction n with
  | zero => rfl
  | succ n ih => rw [List.replicate_succ', packed_append, ih]; rfl

theorem propertyWord_iff {property propertyId : ℕ → F} {m : Bytes} (h : Holds property m)
    (hw : 16 < m.length ∧ m.length ≤ 32) : PropertyWord m.length property propertyId ↔
      IsLimbs propertyId (m ++ List.replicate (32 - m.length) 0) := by
  have hlen : (m.take 16).length = 16 := by simp; omega
  rw [← List.take_append_drop 16 m] at h
  obtain ⟨hhi, hlo⟩ := h.of_append
  rw [hlen] at hlo
  have hpackhi (out) : PackBytes 16 property out ↔ out = packed (m.take 16) := by
    rw [← packBytes_iff hhi, hlen]
  have hpacklo (out) : PackBytes (m.length - 16) (fun i => property (16 + i)) out ↔
      out = packed (m.drop 16) := by
    rw [← packBytes_iff hlo, List.length_drop]
  have hdrop : packed ((m ++ List.replicate (32 - m.length) 0).drop 16) =
      packed (m.drop 16) * 256 ^ (32 - m.length) := by
    rw [List.drop_append_of_le_length (by omega), packed_append, packed_replicate,
      List.length_replicate, Nat.add_zero]
  unfold PropertyWord IsLimbs limbs
  simp only [hpackhi, hpacklo, hdrop, List.take_append_of_le_length hw.1.le]
  constructor
  · rintro ⟨hi, lo, rfl, rfl, h0, h1⟩
    refine ⟨h0.symm, ?_⟩
    rw [← h1]
    push_cast
    rfl
  · rintro ⟨h0, h1⟩
    refine ⟨_, _, rfl, rfl, h0.symm, ?_⟩
    rw [h1]
    push_cast
    rfl

end

end Pprev
