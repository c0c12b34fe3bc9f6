import Pprev.Circuit.Decimal
import Pprev.Data.Gregorian

/-!
# Dates in circuits

The templates of `lib/date.circom`: bytes that are the text `YYYY-MM-DD` of a valid date, and the
number that spells it.
-/

namespace Pprev

open Evm Finset Digits Slice Gregorian

/-- The last decimal digits of a number. -/
def decimalText : ℕ → ℕ → Bytes
  | 0, _ => []
  | k + 1, n => decimalText k (n / 10) ++ [UInt8.ofNat (48 + n % 10)]

/-- The text `YYYY-MM-DD` of a date. -/
def dateText (d : Date) : Bytes :=
  decimalText 4 d.year ++ [45] ++ decimalText 2 d.month ++ [45] ++ decimalText 2 d.day

theorem toNat_digit (n : ℕ) : (UInt8.ofNat (48 + n % 10)).toNat = 48 + n % 10 := by
  rw [UInt8.toNat_ofNat', Nat.mod_eq_of_lt (by omega)]

@[simp] theorem length_decimalText (k n : ℕ) : (decimalText k n).length = k := by
  induction k generalizing n with
  | zero => rfl
  | succ k ih => rw [decimalText, List.length_append, ih, List.length_singleton]

theorem isDecimal_decimalText (k n : ℕ) : IsDecimal (decimalText k n) := by
  induction k generalizing n with
  | zero => exact fun b hb => absurd hb List.not_mem_nil
  | succ k ih =>
    intro b hb
    rcases List.mem_append.mp hb with hb | hb
    · exact ih _ b hb
    · rw [List.mem_singleton.mp hb, toNat_digit]
      omega

theorem decimalValue_singleton (b : UInt8) : decimalValue [b] = b.toNat - 48 := by
  simp [decimalValue, bigEndian, digits]

theorem decimalValue_decimalText {k n : ℕ} (h : n < 10 ^ k) : decimalValue (decimalText k n) = n := by
  induction k generalizing n with
  | zero =>
    rw [pow_zero, Nat.lt_one_iff] at h
    rw [h]
    rfl
  | succ k ih =>
    rw [pow_succ] at h
    rw [decimalText, decimalValue_append, ih (by omega), decimalValue_singleton, toNat_digit,
      List.length_singleton]
    omega

theorem decimalText_decimalValue {m : Bytes} (h : IsDecimal m) :
    decimalText m.length (decimalValue m) = m := by
  induction m using List.reverseRecOn with
  | nil => rfl
  | append_singleton m b ih =>
    have hb := h b (by simp)
    have hm : IsDecimal m := fun c hc => h c (List.mem_append_left _ hc)
    rw [List.length_append, List.length_singleton, decimalText, decimalValue_append,
      decimalValue_singleton, List.length_singleton, pow_one,
      show (decimalValue m * 10 + (b.toNat - 48)) / 10 = decimalValue m by omega,
      show 48 + (decimalValue m * 10 + (b.toNat - 48)) % 10 = b.toNat by omega, ih hm,
      UInt8.ofNat_toNat]

theorem decimalValue_pair (a b : UInt8) :
    decimalValue [a, b] = (a.toNat - 48) * 10 + (b.toNat - 48) := by
  simp only [decimalValue, bigEndian, digits, List.map_cons, List.map_nil, List.reverse_cons,
    List.reverse_nil, List.nil_append, List.cons_append, Nat.ofDigits_cons, Nat.ofDigits_nil]
  omega

/-- A text is that of a date if its digits are those of the year, month and day. -/
theorem eq_dateText_iff {t : Bytes} (hlen : t.length = 10) {d : Date} (hy : d.year < 10000) :
    t = dateText d ↔
      (t[4]? = some 45 ∧ t[7]? = some 45) ∧
      (IsDecimal (slice t 0 2) ∧ IsDecimal (slice t 2 2) ∧ IsDecimal (slice t 5 2) ∧
        IsDecimal (slice t 8 2)) ∧
      decimalValue (slice t 0 2) * 100 + decimalValue (slice t 2 2) = d.year ∧
      decimalValue (slice t 5 2) = d.month ∧ decimalValue (slice t 8 2) = d.day := by
  have hday := d.day_le
  have hmonth := d.month_mem
  match t, hlen with
  | [a0, a1, a2, a3, a4, a5, a6, a7, a8, a9], _ =>
    simp only [Slice.slice, List.drop_zero, List.drop_succ_cons, List.take_succ_cons, List.take_zero,
      IsDecimal, List.forall_mem_cons, decimalValue_pair, dateText, decimalText, List.nil_append,
      List.cons_append, List.cons.injEq, and_true, ← UInt8.toNat_inj, toNat_digit,
      List.getElem?_cons_succ, List.getElem?_cons_zero, Option.some.injEq,
      List.not_mem_nil, false_implies, implies_true]
    have h45 : (45 : UInt8).toNat = 45 := rfl
    rw [h45]
    omega

section

variable {sha256 : Bytes → Bytes} {poseidon : F → F → F} (lib : Circomlib sha256 poseidon)

def DivisibleBy4 (x out : F) : Prop :=
  ∃ (bits : ℕ → F), lib.Num2Bits 7 x bits ∧ lib.IsZero (bits 0 + 2 * bits 1) out

/-- The months that are one day short. -/
def short : List ℕ := [4, 6, 9, 11]

def CalendarDate (date : ℕ → F) (ymd : F) : Prop :=
  ∃ (c y m d monthZero monthMax yDiv4 cDiv4 yZero leapInCentury leapCentury leap : F)
    (isShort : ℕ → F) (shortMonth isFebruary februaryCut monthLength dayZero dayMax : F),
    date 4 = 45 ∧ date 7 = 45 ∧
    DecimalValue lib 2 (fun i => date (0 + i)) c ∧
    DecimalValue lib 2 (fun i => date (2 + i)) y ∧
    DecimalValue lib 2 (fun i => date (5 + i)) m ∧
    DecimalValue lib 2 (fun i => date (8 + i)) d ∧
    lib.IsZero m monthZero ∧ monthZero = 0 ∧
    lib.LessThan 7 m 13 monthMax ∧ monthMax = 1 ∧
    DivisibleBy4 lib y yDiv4 ∧
    DivisibleBy4 lib c cDiv4 ∧
    lib.IsZero y yZero ∧
    leapInCentury = yDiv4 * (1 - yZero) ∧
    leapCentury = cDiv4 * yZero ∧
    leap = leapInCentury + leapCentury ∧
    (∀ i < 4, lib.IsEqual m (short.getD i 0 : ℕ) (isShort i)) ∧
    shortMonth = ∑ i ∈ range 4, isShort i ∧
    lib.IsEqual m 2 isFebruary ∧
    februaryCut = isFebruary * (3 - leap) ∧
    monthLength = 31 - shortMonth - februaryCut ∧
    lib.IsZero d dayZero ∧ dayZero = 0 ∧
    lib.LessThan 7 d (monthLength + 1) dayMax ∧ dayMax = 1 ∧
    ymd = (c * 100 + y) * 10000 + m * 100 + d

variable {lib}

theorem divisibleBy4_iff {v : ℕ} (hv : v < 100) {out : F} :
    DivisibleBy4 lib v out ↔ out = flag (v % 4 = 0) := by
  have hlow {bits : ℕ → F} (h : ∀ i < 7, bits i = (v / 2 ^ i % 2 : ℕ)) :
      bits 0 + 2 * bits 1 = (v % 4 : ℕ) := by
    rw [h 0 (by omega), h 1 (by omega)]
    have hsum : v % 4 = v / 2 ^ 0 % 2 + 2 * (v / 2 ^ 1 % 2) := by omega
    rw [hsum]
    push_cast
    rfl
  have hzero : ((v % 4 : ℕ) : F) = 0 ↔ v % 4 = 0 := by
    have h := natCast_inj (a := v % 4) (b := 0) (lt_trans (by omega) two_pow_lt) (by decide)
    rwa [Nat.cast_zero] at h
  constructor
  · rintro ⟨bits, hbits, hz⟩
    obtain ⟨w, hw, hvw, hout⟩ := lib.exists_num2Bits hbits
    obtain rfl : v = w :=
      (natCast_inj (lt_trans (by omega) two_pow_lt) (lt_trans (by omega) two_pow_lt)).mp hvw
    rw [lib.isZero_iff.mp hz, hlow hout]
    exact flag_congr hzero
  · rintro rfl
    refine ⟨_, lib.num2Bits_natCast (by omega), lib.isZero_iff.mpr ?_⟩
    rw [hlow fun _ _ => rfl]
    exact (flag_congr hzero).symm

theorem flag_add {p q : Prop} [Decidable p] [Decidable q] (h : ¬(p ∧ q)) :
    flag p + flag q = flag (p ∨ q) := by
  unfold flag
  by_cases hp : p <;> by_cases hq : q <;> simp_all

theorem flag_mul {p q : Prop} [Decidable p] [Decidable q] : flag p * flag q = flag (p ∧ q) := by
  unfold flag
  by_cases hp : p <;> by_cases hq : q <;> simp [hp, hq]

/-- The split of the leap rule at the century. -/
theorem leap_eq {c y : ℕ} (hy : y < 100) : flag (y % 4 = 0) * (1 - flag (y = 0)) +
    flag (c % 4 = 0) * flag (y = 0) = flag (IsLeap (c * 100 + y)) := by
  rw [flag_mul_not, flag_mul, flag_add (by omega)]
  refine flag_congr ?_
  unfold IsLeap
  omega

/-- The length of a month, computed in the field. -/
theorem monthLength_eq {m : ℕ} (y : ℕ) (hm : m ≤ 12) :
    31 - ∑ i ∈ range 4, flag (m = short.getD i 0) - flag (m = 2) * (3 - flag (IsLeap y)) =
      (monthLength y m : F) := by
  have hshort : ∑ i ∈ range 4, flag (m = short.getD i 0) =
      flag (m = 4 ∨ m = 6 ∨ m = 9 ∨ m = 11) := by
    simp only [sum_range_succ, range_zero, sum_empty, zero_add, short, List.getD_cons_zero,
      List.getD_cons_succ]
    rw [flag_add (by omega), flag_add (by omega), flag_add (by omega)]
    exact flag_congr (by omega)
  rw [hshort, monthLength]
  by_cases h2 : m = 2
  · have hlong : ¬(m = 4 ∨ m = 6 ∨ m = 9 ∨ m = 11) := by omega
    rw [flag_eq_zero.mpr hlong, flag_eq_one.mpr h2, if_pos h2]
    by_cases hleap : IsLeap y
    · rw [flag_eq_one.mpr hleap, if_pos hleap]
      norm_num
    · rw [flag_eq_zero.mpr hleap, if_neg hleap]
      norm_num
  · rw [flag_eq_zero.mpr h2, if_neg h2]
    by_cases hs : m = 4 ∨ m = 6 ∨ m = 9 ∨ m = 11
    · rw [flag_eq_one.mpr hs, if_pos hs]
      norm_num
    · rw [flag_eq_zero.mpr hs, if_neg hs]
      norm_num

/-- A part of bytes is decimal. -/
theorem decimalPart_iff {x : ℕ → F} {t : Bytes} {start n : ℕ} {out : F} (h : Holds x t)
    (hlen : start + n ≤ t.length) : DecimalValue lib n (fun i => x (start + i)) out ↔
      IsDecimal (slice t start n) ∧ out = decimalValue (slice t start n) := by
  rw [← decimalValue_iff (h.sliced hlen), length_slice hlen]

theorem isZero_natCast {v : ℕ} (hv : v < 2 ^ 253) {out : F} :
    lib.IsZero v out ↔ out = flag (v = 0) := by
  have h := natCast_inj (a := v) (b := 0) (hv.trans two_pow_lt) (by decide)
  rw [Nat.cast_zero] at h
  rw [lib.isZero_iff, flag_congr h]

theorem isEqual_natCast {v w : ℕ} (hv : v < 2 ^ 253) (hw : w < 2 ^ 253) {out : F} :
    lib.IsEqual v w out ↔ out = flag (v = w) := by
  rw [lib.isEqual_iff, flag_congr (natCast_inj (hv.trans two_pow_lt) (hw.trans two_pow_lt))]

/-- The comparison of the month with the number of months. -/
theorem monthMax_iff {m : ℕ} (hm : m < 100) {out : F} :
    lib.LessThan 7 m 13 out ↔ out = flag (m < 13) := by
  have h : lib.LessThan 7 (m : F) (13 : ℕ) out ↔ out = flag (m < 13) :=
    lib.lessThan_iff (by omega) (by omega) (by omega)
  exact_mod_cast h

/-- The comparison of the day with the length of the month. -/
theorem dayMax_iff {y m d : ℕ} (hd : d < 100) {out : F} :
    lib.LessThan 7 d ((monthLength y m : F) + 1) out ↔ out = flag (d < monthLength y m + 1) := by
  have hle := monthLength_le y m
  have h : lib.LessThan 7 (d : F) (monthLength y m + 1 : ℕ) out ↔
      out = flag (d < monthLength y m + 1) :=
    lib.lessThan_iff (by omega) (by omega) (by omega)
  exact_mod_cast h

theorem isFebruary_iff {m : ℕ} (hm : m < 2 ^ 253) {out : F} :
    lib.IsEqual m 2 out ↔ out = flag (m = 2) := by
  have h : lib.IsEqual (m : F) (2 : ℕ) out ↔ out = flag (m = 2) :=
    isEqual_natCast hm (by decide)
  exact_mod_cast h

/-- The signals are the text of a valid date, which the output spells. -/
theorem calendarDate_iff {date : ℕ → F} {t : Bytes} {ymd : F} (h : Holds date t)
    (hlen : t.length = 10) : CalendarDate lib date ymd ↔
      ∃ d : Date, d.year < 10000 ∧ t = dateText d ∧ ymd = d.ymd := by
  have hbyte45 (i : ℕ) (hi : i < 10) : date i = 45 ↔ t[i]? = some 45 := by
    have := h.eq_byte (i := i) (by omega) 45
    rwa [show ((UInt8.toNat 45 : ℕ) : F) = 45 from rfl] at this
  have hlt {start : ℕ} (hd : IsDecimal (slice t start 2)) (hs : start + 2 ≤ 10) :
      decimalValue (slice t start 2) < 100 := by
    have := decimalValue_lt hd
    rwa [length_slice (by omega)] at this
  set C := decimalValue (slice t 0 2)
  set Y := decimalValue (slice t 2 2)
  set M := decimalValue (slice t 5 2)
  set D := decimalValue (slice t 8 2)
  have hbig {v : ℕ} (hv : v < 100) : v < 2 ^ 253 := lt_trans hv (by decide)
  have hshortlt : ∀ i < 4, short.getD i 0 < 100 := by decide
  constructor
  · rintro ⟨c, y, m, d, monthZero, monthMax, yDiv4, cDiv4, yZero, leapInCentury, leapCentury, leap,
      isShort, shortMonth, isFebruary, februaryCut, monthLen, dayZero, dayMax, h4, h7, hc, hy, hm,
      hd, hmz, rfl, hmm, rfl, hyd, hcd, hyz, rfl, rfl, rfl, hshort, rfl, hfeb, rfl, rfl, hdz, rfl,
      hdm, rfl, rfl⟩
    obtain ⟨hCdec, rfl⟩ := (decimalPart_iff h (by omega)).mp hc
    obtain ⟨hYdec, rfl⟩ := (decimalPart_iff h (by omega)).mp hy
    obtain ⟨hMdec, rfl⟩ := (decimalPart_iff h (by omega)).mp hm
    obtain ⟨hDdec, rfl⟩ := (decimalPart_iff h (by omega)).mp hd
    have hC : C < 100 := hlt hCdec (by omega)
    have hY : Y < 100 := hlt hYdec (by omega)
    have hM : M < 100 := hlt hMdec (by omega)
    have hD : D < 100 := hlt hDdec (by omega)
    have hM0 : M ≠ 0 := flag_eq_zero.mp ((isZero_natCast (hbig hM)).mp hmz).symm
    have hM13 : M < 13 := flag_eq_one.mp ((monthMax_iff hM).mp hmm).symm
    have hD0 : D ≠ 0 := flag_eq_zero.mp ((isZero_natCast (hbig hD)).mp hdz).symm
    have hsum : ∑ i ∈ range 4, isShort i = ∑ i ∈ range 4, flag (M = short.getD i 0) :=
      sum_congr rfl fun i hi => by
        have hi := mem_range.mp hi
        exact (isEqual_natCast (hbig hM) (hbig (hshortlt i hi))).mp (hshort i hi)
    rw [(divisibleBy4_iff hY).mp hyd, (divisibleBy4_iff hC).mp hcd,
      (isZero_natCast (hbig hY)).mp hyz, leap_eq hY, hsum, (isFebruary_iff (hbig hM)).mp hfeb,
      monthLength_eq _ (by omega)] at hdm
    have hDlen : D < monthLength (C * 100 + Y) M + 1 := flag_eq_one.mp ((dayMax_iff hD).mp hdm).symm
    refine ⟨⟨C * 100 + Y, M, D, by omega, by omega⟩, by show C * 100 + Y < 10000; omega, ?_, ?_⟩
    · exact (eq_dateText_iff hlen (by show C * 100 + Y < 10000; omega)).mpr
        ⟨⟨(hbyte45 4 (by omega)).mp h4, (hbyte45 7 (by omega)).mp h7⟩,
          ⟨hCdec, hYdec, hMdec, hDdec⟩, rfl, rfl, rfl⟩
    · unfold Date.ymd
      push_cast
      rfl
  · rintro ⟨d, hy, ht, rfl⟩
    obtain ⟨⟨h4, h7⟩, ⟨hCdec, hYdec, hMdec, hDdec⟩, hyear, hmonth, hday⟩ :=
      (eq_dateText_iff hlen hy).mp ht
    have hC : C < 100 := hlt hCdec (by omega)
    have hY : Y < 100 := hlt hYdec (by omega)
    have hM : M < 100 := hlt hMdec (by omega)
    have hD : D < 100 := hlt hDdec (by omega)
    have hmonth_mem := d.month_mem
    have hday_mem := d.day_mem
    rw [← hyear, ← hmonth, ← hday] at hday_mem
    rw [← hmonth] at hmonth_mem
    refine ⟨C, Y, M, D, 0, 1, flag (Y % 4 = 0), flag (C % 4 = 0), flag (Y = 0), _, _, _,
      fun i => flag (M = short.getD i 0), _, flag (M = 2), _, _, 0, 1,
      (hbyte45 4 (by omega)).mpr h4, (hbyte45 7 (by omega)).mpr h7,
      (decimalPart_iff h (by omega)).mpr ⟨hCdec, rfl⟩,
      (decimalPart_iff h (by omega)).mpr ⟨hYdec, rfl⟩,
      (decimalPart_iff h (by omega)).mpr ⟨hMdec, rfl⟩,
      (decimalPart_iff h (by omega)).mpr ⟨hDdec, rfl⟩,
      (isZero_natCast (hbig hM)).mpr (flag_eq_zero.mpr (by omega)).symm, rfl,
      (monthMax_iff hM).mpr (flag_eq_one.mpr (by omega)).symm, rfl,
      (divisibleBy4_iff hY).mpr rfl, (divisibleBy4_iff hC).mpr rfl,
      (isZero_natCast (hbig hY)).mpr rfl, rfl, rfl, rfl,
      fun i hi => (isEqual_natCast (hbig hM) (hbig (hshortlt i hi))).mpr rfl, rfl,
      (isFebruary_iff (hbig hM)).mpr rfl, rfl, rfl,
      (isZero_natCast (hbig hD)).mpr (flag_eq_zero.mpr (by omega)).symm, rfl, ?_, rfl, ?_⟩
    · rw [leap_eq hY, monthLength_eq _ (by omega)]
      exact (dayMax_iff hD).mpr (flag_eq_one.mpr (Nat.lt_succ_of_le hday_mem.2)).symm
    · unfold Date.ymd
      rw [← hyear, ← hmonth, ← hday]
      push_cast
      rfl

end

end Pprev
