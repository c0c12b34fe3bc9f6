import Pprev.Circuit.Date
import Pprev.Data.Arithmetic
import Pprev.Data.March
import Pprev.Offchain.Text

/-!
# Calendar days

The module `calendar.rs`, which finds the calendar date of a day and of the day of an engagement,
and the function of `mock.rs` that counts the days up to a date. A division of integers truncates;
an operation whose result is out of range fails with `overflow`.
-/

namespace Pprev

open Evm Gregorian

inductive CalendarError where
  | overflow
  | year
  | dateOutOfRange
  | precedesTauLock
  | timeOutOfRange
  | notADate
  deriving DecidableEq

/-- From the day of an era to the date, as the off-chain code and the baseline's verifier have it,
each with its integers. -/
def civilFromDoe {ε : Type} (int : ℤ → Except ε ℤ) (era doe : ℤ) : Except ε (ℤ × ℤ × ℤ) := do
  let yoe := (← int ((← int ((← int (doe - doe.tdiv 1460)) + doe.tdiv 36524))
    - doe.tdiv 146096)).tdiv 365
  let doy ← int (doe - (← int ((← int ((← int (365 * yoe)) + yoe.tdiv 4)) - yoe.tdiv 100)))
  let mp := (← int ((← int (5 * doy)) + 2)).tdiv 153
  let d ← int ((← int (doy - (← int ((← int (153 * mp)) + 2)).tdiv 5)) + 1)
  let m ← if mp < 10 then int (mp + 3) else int (mp - 9)
  let y ← int ((← int (yoe + (← int (era * 400)))) + if m ≤ 2 then 1 else 0)
  return (y, m, d)

def i64 : ℤ → Except CalendarError ℤ := Checked.int 64 .overflow

/-- The date of the day that comes `days` days after 1970-01-01. -/
def ymd_of_days (days : ℤ) : Except CalendarError ℕ := do
  let z ← i64 (days + 719468)
  let era := z / 146097
  let doe ← i64 (z - (← i64 (era * 146097)))
  let (y, m, d) ← civilFromDoe i64 era doe
  if 0 ≤ y ∧ y ≤ 9999 then
    let ymd ← i64 ((← i64 ((← i64 (y * 10000)) + (← i64 (m * 100)))) + d)
    if 0 ≤ ymd ∧ ymd < 2 ^ 32 then return ymd.toNat else throw .dateOutOfRange
  else
    throw .year

def SECS_PER_DAY : ℤ := 86400

/-- The local date of `expires_at - tau_lock`. -/
def engagement_day (expires_at tau_lock : Uint64) (utc_offset_secs : Int64) :
    Except CalendarError ℕ :=
  if expires_at.toNat < tau_lock.toNat then .error .precedesTauLock
  else
    let engaged := expires_at.toNat - tau_lock.toNat
    if ¬ Checked.Fits 64 engaged then .error .timeOutOfRange
    else
      let localTime := engaged + utc_offset_secs.toInt
      if ¬ Checked.Fits 64 localTime then .error .timeOutOfRange
      else ymd_of_days (localTime / SECS_PER_DAY)

/-- The days from 1970-01-01 to a date `YYYY-MM-DD`. The numbers have at most four digits, and no
operation on them is near the end of the range of its type. -/
def day_number (date : String) : Except CalendarError ℤ :=
  match (utf8 date).splitOn 45 with
  | [y, m, d] =>
    if y.length = 4 ∧ m.length = 2 ∧ d.length = 2 ∧ ∀ part ∈ [y, m, d], IsDecimal part then
      let y : ℤ := decimalValue y
      let m : ℤ := decimalValue m
      let d : ℤ := decimalValue d
      let leap := (y.tmod 4 = 0 ∧ y.tmod 100 ≠ 0) ∨ y.tmod 400 = 0
      let daysInMonth : List ℤ := [31, if leap then 29 else 28, 31, 30, 31, 30, 31, 31, 30, 31, 30, 31]
      if (1 ≤ m ∧ m ≤ 12) ∧ 1 ≤ d ∧ d ≤ daysInMonth.getD (m - 1).toNat 0 then
        let y := if m ≤ 2 then y - 1 else y
        let era := y / 400
        let yoe := y - era * 400
        let mp := (m + 9).tmod 12
        let doy := (153 * mp + 2).tdiv 5 + d - 1
        let doe := yoe * 365 + yoe.tdiv 4 - yoe.tdiv 100 + doy
        .ok (era * 146097 + doe - 719468)
      else .error .notADate
    else .error .notADate
  | _ => .error .notADate

/-! ## The date of a day -/

/-- Integers that no operation on days and years comes near the end of. -/
def Ample {ε : Type} (int : ℤ → Except ε ℤ) : Prop :=
  ∀ x, -(2 ^ 60) ≤ x ∧ x < 2 ^ 60 → int x = .ok x

theorem Ample.of_bits {ε : Type} {bits : ℕ} (h : 64 ≤ bits) (overflow : ε) :
    Ample (Checked.int bits overflow) := fun _ hx =>
  Checked.int_eq_ok (.of_le hx (by omega))

theorem ample_i64 : Ample i64 := .of_bits le_rfl _

theorem civilFromDoe_eq {ε : Type} {int : ℤ → Except ε ℤ} (hint : Ample int) {era : ℤ}
    (hera : -(2 ^ 50) ≤ era ∧ era < 2 ^ 50) (p : Place) :
    civilFromDoe int era p.doe = .ok (p.year era, p.month, p.day) := by
  have hok (x : ℤ) (h : -(2 ^ 60) ≤ x) (h' : x < 2 ^ 60) : int x = .ok x := hint x ⟨h, h'⟩
  obtain ⟨hdoe0, hdoe⟩ := p.doe_mem
  obtain ⟨hdoy0, hdoy⟩ := p.doy_mem
  obtain ⟨hyoe0, hyoe⟩ := p.yoe_mem
  obtain ⟨hmp0, hmp⟩ := p.mp_mem
  have hmonth_mem := p.month_mem
  have hmonth := p.month_eq
  have hday := p.day_eq
  have hyear := p.yearOfEra_eq
  have hdoe' : p.doe = 365 * p.yoe + p.yoe / 4 - p.yoe / 100 + p.doy := rfl
  have hdoy' : p.doe - (365 * p.yoe + p.yoe / 4 - p.yoe / 100) = p.doy := by omega
  have hsum : 0 ≤ p.doe - p.doe / 1460 + p.doe / 36524 - p.doe / 146096 := by omega
  unfold civilFromDoe
  simp (disch := omega) only [hok, Int.tdiv_eq_ediv_of_nonneg, bind, Except.bind, hyear]
  rw [hdoy', hmonth, hday]
  unfold Place.year Place.month
  split_ifs <;> rfl

/-- The numbers of days that a time in seconds has. -/
def DayCount (days : ℤ) : Prop := ∃ time, Checked.Fits 64 time ∧ days = time / SECS_PER_DAY

theorem DayCount.bounds {days : ℤ} (h : DayCount days) : -(2 ^ 50) ≤ days ∧ days < 2 ^ 50 := by
  obtain ⟨time, ⟨hlow, hhigh⟩, rfl⟩ := h
  unfold SECS_PER_DAY
  omega

theorem ymd_of_days_eq {days : ℤ} (h : DayCount days) :
    (∃ v, Spells days v ∧ ymd_of_days days = .ok v) ∨
      (∀ v, ¬ Spells days v) ∧ ymd_of_days days = .error .year := by
  obtain ⟨hlow, hhigh⟩ := h.bounds
  have hok (x : ℤ) (h : -(2 ^ 60) ≤ x) (h' : x < 2 ^ 60) : i64 x = .ok x := ample_i64 x ⟨h, h'⟩
  obtain ⟨p, hp⟩ := Place.exists_doe_eq (days + 719468)
  have hspells (v : ℕ) : Spells days v ↔ _ := spells_iff hp
  set era := (days + 719468) / 146097 with hera
  have hdoe : days + 719468 - era * 146097 = p.doe := by omega
  have hdate : civilFromDoe i64 era p.doe = .ok (p.year era, p.month, p.day) :=
    civilFromDoe_eq ample_i64 (by omega) p
  unfold ymd_of_days
  simp (disch := omega) only [hok, bind, Except.bind, ← hera, hdoe, hdate]
  by_cases hyear : 0 ≤ p.year era ∧ p.year era ≤ 9999
  · obtain ⟨hday, hday'⟩ := p.day_mem
    have hmonth := p.month_mem
    rw [if_pos hyear]
    simp (disch := omega) only [hok]
    rw [if_pos (by omega)]
    exact .inl ⟨_, (hspells _).mpr ⟨hyear, by omega⟩, rfl⟩
  · rw [if_neg hyear]
    exact .inr ⟨fun v hv => hyear ((hspells v).mp hv).1, rfl⟩

theorem ymd_of_days_eq_ok {days : ℤ} (h : DayCount days) {v : ℕ} :
    ymd_of_days days = .ok v ↔ Spells days v := by
  obtain ⟨w, hw, hok⟩ | ⟨hnone, herror⟩ := ymd_of_days_eq h
  · rw [hok, Except.ok.injEq]
    constructor
    · rintro rfl
      exact hw
    · exact hw.unique
  · simp [herror, hnone]

/-! ## The day of a date -/

theorem notMem_of_isDecimal {m : Bytes} (h : IsDecimal m) : 45 ∉ m := by
  intro hmem
  exact absurd (h 45 hmem).1 (by decide)

theorem splitOn_dateText (d : Date) : (dateText d).splitOn 45 =
    [decimalText 4 d.year, decimalText 2 d.month, decimalText 2 d.day] := by
  have hdigits (k n : ℕ) : 45 ∉ decimalText k n := notMem_of_isDecimal (isDecimal_decimalText k n)
  rw [dateText, List.append_assoc, List.append_assoc, List.append_assoc, List.singleton_append,
    List.singleton_append, List.splitOn_append_cons_self_of_not_mem (hdigits _ _),
    List.splitOn_append_cons_self_of_not_mem (hdigits _ _), List.splitOn_eq_singleton (hdigits _ _)]

theorem filter_dateText (d : Date) : (dateText d).filter (· ≠ 45) =
    decimalText 4 d.year ++ decimalText 2 d.month ++ decimalText 2 d.day := by
  have hdigits (k n : ℕ) : (decimalText k n).filter (· ≠ 45) = decimalText k n := by
    rw [List.filter_eq_self]
    intro b hb
    have := (isDecimal_decimalText k n b hb).1
    simp only [ne_eq, decide_eq_true_eq]
    rintro rfl
    exact absurd this (by decide)
  simp only [dateText, List.filter_append, hdigits]
  simp

/-- The digits of a date spell its number. -/
theorem decimalValue_digits {d : Date} (h : d.year ≤ 9999) :
    decimalValue ((dateText d).filter (· ≠ 45)) = d.ymd := by
  have hday := d.day_le
  have hmonth := d.month_mem
  rw [filter_dateText, decimalValue_append, decimalValue_append,
    decimalValue_decimalText (by omega), decimalValue_decimalText (by omega),
    decimalValue_decimalText (by omega), length_decimalText, length_decimalText, Date.ymd]
  omega

/-- The lengths of months as they are listed. -/
theorem daysInMonth_eq {y m : ℕ} (h : 1 ≤ m ∧ m ≤ 12) (leap : Prop) [Decidable leap]
    (hleap : leap ↔ IsLeap y) :
    [31, if leap then 29 else 28, 31, 30, 31, 30, 31, 31, 30, 31, 30, 31].getD (m - 1) 0 =
      (monthLength y m : ℤ) := by
  obtain ⟨h1, h12⟩ := h
  interval_cases m
  all_goals simp [monthLength, hleap]

/-- The count of `day_number` is that of the lengths of years and months. -/
theorem dayCount_eq_unixDay (d : Date) {y m day : ℤ} (hy : y = d.year) (hm : m = d.month)
    (hday : day = d.day) :
    let y := if m ≤ 2 then y - 1 else y
    let era := y / 400
    let yoe := y - era * 400
    let mp := (m + 9).tmod 12
    let doy := (153 * mp + 2).tdiv 5 + day - 1
    let doe := yoe * 365 + yoe.tdiv 4 - yoe.tdiv 100 + doy
    era * 146097 + doe - 719468 = d.unixDay := by
  subst hy hm hday
  intro y era yoe mp doy doe
  have hy : y = d.marchYear := by
    simp only [y, Date.marchYear]
    split_ifs <;> omega
  have hmp : mp = d.place.mp := Int.tmod_eq_emod_of_nonneg (by omega)
  have hyoe : yoe = d.place.yoe := by
    rw [show d.place.yoe = d.marchYear % 400 from rfl, ← hy]
    omega
  obtain ⟨hyoe0, -⟩ := d.place.yoe_mem
  obtain ⟨hmp0, -⟩ := d.place.mp_mem
  have hdoy : doy = d.place.doy := by
    rw [show d.place.doy = (153 * d.place.mp + 2) / 5 + d.day - 1 from rfl, ← hmp]
    simp only [doy]
    rw [Int.tdiv_eq_ediv_of_nonneg (by omega)]
  have hdoe : doe = d.place.doe := by
    rw [show d.place.doe = 365 * d.place.yoe + d.place.yoe / 4 - d.place.yoe / 100 + d.place.doy
      from rfl, ← hyoe, ← hdoy]
    simp only [doe]
    rw [Int.tdiv_eq_ediv_of_nonneg (by omega), Int.tdiv_eq_ediv_of_nonneg (by omega)]
    ring
  rw [Date.unixDay, Date.ordinal_epoch, d.ordinal_eq_doe, ← hy, ← hdoe]
  simp only [era]
  ring

theorem leap_iff {y : ℕ} :
    ((y : ℤ).tmod 4 = 0 ∧ (y : ℤ).tmod 100 ≠ 0 ∨ (y : ℤ).tmod 400 = 0) ↔ IsLeap y := by
  rw [Int.tmod_eq_emod_of_nonneg (by omega), Int.tmod_eq_emod_of_nonneg (by omega),
    Int.tmod_eq_emod_of_nonneg (by omega)]
  unfold IsLeap
  omega

theorem day_number_eq_ok {s : String} {n : ℤ} :
    day_number s = .ok n ↔ ∃ d : Date, d.year ≤ 9999 ∧ utf8 s = dateText d ∧ n = d.unixDay := by
  constructor
  · intro h
    unfold day_number at h
    split at h
    next y m d hsplit =>
      by_cases hparts : y.length = 4 ∧ m.length = 2 ∧ d.length = 2 ∧
          ∀ part ∈ [y, m, d], IsDecimal part
      swap
      · rw [if_neg hparts] at h
        cases h
      rw [if_pos hparts] at h
      dsimp only at h
      obtain ⟨hylen, hmlen, hdlen, hdecimal⟩ := hparts
      simp only [List.forall_mem_cons, List.not_mem_nil, false_implies, implies_true, and_true]
        at hdecimal
      obtain ⟨hydec, hmdec, hddec⟩ := hdecimal
      by_cases hmonth : 1 ≤ decimalValue m ∧ decimalValue m ≤ 12
      swap
      · rw [if_neg (by omega)] at h
        cases h
      rw [show ((decimalValue m : ℤ) - 1).toNat = decimalValue m - 1 by omega,
        daysInMonth_eq hmonth _ leap_iff] at h
      by_cases hday : 1 ≤ decimalValue d ∧
          decimalValue d ≤ monthLength (decimalValue y) (decimalValue m)
      swap
      · rw [if_neg (by omega)] at h
        cases h
      rw [if_pos (by omega)] at h
      let date : Date := ⟨decimalValue y, decimalValue m, decimalValue d, hmonth, hday⟩
      have hylt := decimalValue_lt hydec
      rw [hylen] at hylt
      refine ⟨date, by simp only [date]; omega, ?_, ?_⟩
      · have htext : [45].intercalate ((utf8 s).splitOn 45) = utf8 s := List.intercalate_splitOn 45
        rw [hsplit] at htext
        rw [dateText, ← htext]
        simp only [date]
        rw [← hylen, decimalText_decimalValue hydec, ← hmlen, decimalText_decimalValue hmdec,
          hmlen, ← hdlen, decimalText_decimalValue hddec]
        simp [List.intercalate]
      · rw [← Except.ok.inj h]
        exact dayCount_eq_unixDay date rfl rfl rfl
    next => cases h
  · rintro ⟨d, hyear, hs, hn⟩
    have hmonth := d.month_mem
    have hday := d.day_mem
    have hday31 := d.day_le
    have hy : decimalValue (decimalText 4 d.year) = d.year := decimalValue_decimalText (by omega)
    have hm : decimalValue (decimalText 2 d.month) = d.month := decimalValue_decimalText (by omega)
    have hd : decimalValue (decimalText 2 d.day) = d.day := decimalValue_decimalText (by omega)
    have hparts : ∀ part ∈ [decimalText 4 d.year, decimalText 2 d.month, decimalText 2 d.day],
        IsDecimal part := by
      simp only [List.forall_mem_cons, isDecimal_decimalText, List.not_mem_nil, false_implies,
        implies_true, and_true]
    unfold day_number
    rw [hs, splitOn_dateText]
    dsimp only
    rw [if_pos ⟨length_decimalText _ _, length_decimalText _ _, length_decimalText _ _, hparts⟩,
      hy, hm, hd, show ((d.month : ℤ) - 1).toNat = d.month - 1 by omega,
      daysInMonth_eq hmonth _ leap_iff, if_pos (by omega), dayCount_eq_unixDay d rfl rfl rfl, hn]

/-! ## Engagement days -/

section

variable (expires_at tau_lock : Uint64) (utc_offset_secs : Int64)

/-- The local time of `expires_at - tau_lock`. -/
def localTime : ℤ := expires_at.toNat - tau_lock.toNat + utc_offset_secs.toInt

theorem engagement_day_eq : engagement_day expires_at tau_lock utc_offset_secs =
    if expires_at.toNat < tau_lock.toNat then .error .precedesTauLock
    else if tau_lock.toNat + 2 ^ 63 ≤ expires_at.toNat ∨
        2 ^ 63 ≤ localTime expires_at tau_lock utc_offset_secs then .error .timeOutOfRange
    else ymd_of_days (localTime expires_at tau_lock utc_offset_secs / SECS_PER_DAY) := by
  have hlow := utc_offset_secs.le_toInt
  unfold engagement_day localTime
  by_cases hprecedes : expires_at.toNat < tau_lock.toNat
  · rw [if_pos hprecedes, if_pos hprecedes]
  · rw [if_neg hprecedes, if_neg hprecedes]
    dsimp only
    rw [Nat.cast_sub (by omega)]
    unfold Checked.Fits
    by_cases hengaged : tau_lock.toNat + 2 ^ 63 ≤ expires_at.toNat
    · rw [if_pos (by omega), if_pos (.inl hengaged)]
    · rw [if_neg (by omega)]
      by_cases htime : 2 ^ 63 ≤ (expires_at.toNat : ℤ) - tau_lock.toNat + utc_offset_secs.toInt
      · rw [if_pos (by omega), if_pos (.inr htime)]
      · rw [if_neg (by omega), if_neg (by omega)]

theorem dayCount_localTime
    (hengaged : tau_lock.toNat ≤ expires_at.toNat)
    (htime : localTime expires_at tau_lock utc_offset_secs < 2 ^ 63) :
    DayCount (localTime expires_at tau_lock utc_offset_secs / SECS_PER_DAY) := by
  have hlow := utc_offset_secs.le_toInt
  refine ⟨_, ⟨?_, htime⟩, rfl⟩
  unfold localTime
  omega

theorem engagement_day_eq_ok {v : ℕ} :
    engagement_day expires_at tau_lock utc_offset_secs = .ok v ↔
      tau_lock.toNat ≤ expires_at.toNat ∧ expires_at.toNat < tau_lock.toNat + 2 ^ 63 ∧
        Spells (localTime expires_at tau_lock utc_offset_secs / SECS_PER_DAY) v := by
  rw [engagement_day_eq]
  split_ifs with hprecedes htime
  · simp only [false_iff]
    omega
  · simp only [false_iff, not_and]
    intro _ hengaged hspells
    have hrange := exists_spells_iff.mp ⟨v, hspells⟩
    unfold SECS_PER_DAY at hrange
    omega
  · rw [ymd_of_days_eq_ok (dayCount_localTime _ _ _ (by omega) (by omega))]
    simp only [show tau_lock.toNat ≤ expires_at.toNat by omega,
      show expires_at.toNat < tau_lock.toNat + 2 ^ 63 by omega, true_and]

theorem engagement_day_ne_overflow :
    engagement_day expires_at tau_lock utc_offset_secs ≠ .error .overflow := by
  rw [engagement_day_eq]
  split_ifs with hprecedes htime
  · decide
  · decide
  · obtain ⟨v, -, hok⟩ | ⟨-, herror⟩ :=
      ymd_of_days_eq (dayCount_localTime expires_at tau_lock utc_offset_secs (by omega) (by omega))
    · simp [hok]
    · simp [herror]

end

/-- The text `YYYY-MM-DD` of a date. -/
def dateString (d : Date) : String := asciiText (dateText d)

theorem utf8_dateString (d : Date) : utf8 (dateString d) = dateText d := by
  refine utf8_asciiText fun b hb => ?_
  have hdigit {k n : ℕ} (h : b ∈ decimalText k n) : b.toNat < 128 := by
    have := (isDecimal_decimalText k n b h).2
    omega
  simp only [dateText, List.mem_append, List.mem_singleton] at hb
  rcases hb with (((hb | rfl) | hb) | rfl) | hb
  · exact hdigit hb
  · decide
  · exact hdigit hb
  · decide
  · exact hdigit hb

/-- Days and dates correspond, in order, over the years of four digits. -/
theorem days_are_dates :
    (∀ days v, DayCount days → (ymd_of_days days = .ok v ↔
      ∃ d : Date, d.year ≤ 9999 ∧ d.unixDay = days ∧ v = d.ymd)) ∧
    (∀ s n, day_number s = .ok n →
      ymd_of_days n = .ok (decimalValue ((utf8 s).filter (· ≠ 45)))) ∧
    (∀ d : Date, d.year ≤ 9999 → day_number (dateString d) = .ok d.unixDay) ∧
    (∀ days days' v v', DayCount days → DayCount days' → ymd_of_days days = .ok v →
      ymd_of_days days' = .ok v' → (days < days' ↔ v < v')) ∧
    (∀ expires_at tau_lock utc_offset_secs v,
      engagement_day expires_at tau_lock utc_offset_secs = .ok v →
      ∃ d : Date, d.year ≤ 9999 ∧ v = d.ymd ∧
        d.unixDay * 86400 ≤ localTime expires_at tau_lock utc_offset_secs ∧
        localTime expires_at tau_lock utc_offset_secs < (d.unixDay + 1) * 86400) := by
  refine ⟨fun days v h => ymd_of_days_eq_ok h, ?_, ?_, ?_, ?_⟩
  · intro s n h
    obtain ⟨d, hyear, hs, hn⟩ := day_number_eq_ok.mp h
    have hspells : Spells n d.ymd := ⟨d, hyear, hn.symm, rfl⟩
    have hrange := exists_spells_iff.mp ⟨_, hspells⟩
    have hcount : DayCount n :=
      ⟨n * 86400, by unfold Checked.Fits; omega, by unfold SECS_PER_DAY; omega⟩
    rwa [hs, decimalValue_digits hyear, ymd_of_days_eq_ok hcount]
  · intro d hyear
    exact day_number_eq_ok.mpr ⟨d, hyear, utf8_dateString d, rfl⟩
  · intro days days' v v' h h' hv hv'
    exact (((ymd_of_days_eq_ok h).mp hv).lt_iff ((ymd_of_days_eq_ok h').mp hv')).symm
  · intro expires_at tau_lock utc_offset_secs v h
    obtain ⟨-, -, d, hyear, hd, hv⟩ := (engagement_day_eq_ok _ _ _).mp h
    unfold SECS_PER_DAY at hd
    exact ⟨d, hyear, hv, by omega, by omega⟩

end Pprev
