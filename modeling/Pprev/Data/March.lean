import Mathlib.Tactic.Ring
import Pprev.Data.Ordinal

/-!
# The cycle that starts in March

A year that starts in March ends with its leap day, so the days before a month do not depend on the
year, and 400 such years have 146097 days. The place of a date in this cycle, and the year, month
and day read from the place by divisions.
-/

namespace Gregorian

/-- The day of the year of `day` in the month `mp` after March. -/
def dayOfYear (mp day : ℤ) : ℤ := (153 * mp + 2) / 5 + day - 1

/-- The days of the cycle before its year `yoe`. -/
def daysBeforeYearOfEra (yoe : ℤ) : ℤ := 365 * yoe + yoe / 4 - yoe / 100

/-- Places in the cycle that have a date: a month has its days, and the last one of the year a day
more if the year it ends in is a leap year. -/
structure Place where
  yoe : ℤ
  mp : ℤ
  day : ℤ
  yoe_mem : 0 ≤ yoe ∧ yoe < 400
  mp_mem : 0 ≤ mp ∧ mp < 12
  day_pos : 1 ≤ day
  day_le : dayOfYear mp day < dayOfYear (mp + 1) 1
  leap : dayOfYear mp day ≤ 364 ∨
    dayOfYear mp day = 365 ∧ (yoe + 1) % 4 = 0 ∧ ((yoe + 1) % 100 ≠ 0 ∨ yoe = 399)

namespace Place

variable (p : Place)

/-- The day of the year. -/
def doy : ℤ := dayOfYear p.mp p.day

/-- The day of the cycle. -/
def doe : ℤ := daysBeforeYearOfEra p.yoe + p.doy

theorem doy_mem : 0 ≤ p.doy ∧ p.doy ≤ 365 := by
  have hmp := p.mp_mem
  have hday := p.day_pos
  have hleap := p.leap
  unfold doy
  refine ⟨?_, by omega⟩
  unfold dayOfYear
  omega

theorem doe_mem : 0 ≤ p.doe ∧ p.doe < 146097 := by
  have hyoe := p.yoe_mem
  have hdoy := p.doy_mem
  have hleap : p.doy ≤ 364 ∨ _ := p.leap
  unfold doe daysBeforeYearOfEra
  omega

/-- Leap days come every 1461 days but at the end of a century, and at the end of the cycle. -/
theorem yearOfEra_eq :
    (p.doe - p.doe / 1460 + p.doe / 36524 - p.doe / 146096) / 365 = p.yoe := by
  have hyoe := p.yoe_mem
  obtain ⟨hdoy0, hdoy⟩ := p.doy_mem
  have hleap : p.doy ≤ 364 ∨ p.doy = 365 ∧ _ := p.leap
  have hdoe : p.doe = daysBeforeYearOfEra p.yoe + p.doy := rfl
  unfold daysBeforeYearOfEra at hdoe
  generalize p.doe = doe at hdoe ⊢
  generalize p.doy = doy at hdoe hdoy0 hdoy hleap
  generalize p.yoe = yoe at hdoe hyoe hleap ⊢
  obtain ⟨a, b, c, ⟨ha0, ha⟩, ⟨hb0, hb⟩, ⟨hc0, hc⟩, rfl⟩ : ∃ a b c : ℤ, (0 ≤ a ∧ a ≤ 3) ∧
      (0 ≤ b ∧ b ≤ 24) ∧ (0 ≤ c ∧ c ≤ 3) ∧ yoe = 100 * a + 4 * b + c :=
    ⟨yoe / 100, yoe % 100 / 4, yoe % 4, by omega, by omega, by omega, by omega⟩
  rw [show (100 * a + 4 * b + c) / 4 = 25 * a + b by omega,
    show (100 * a + 4 * b + c) / 100 = a by omega] at hdoe
  have hlast : doy = 365 → c = 3 ∧ (b ≠ 24 ∨ a = 3) := by omega
  clear hleap hyoe
  have hcycle : doe / 146096 = if a = 3 ∧ b = 24 ∧ c = 3 ∧ doy = 365 then 1 else 0 := by
    split_ifs <;> omega
  have hcentury : doe / 36524 = a + if a = 3 ∧ b = 24 ∧ c = 3 ∧ doy = 365 then 1 else 0 := by
    split_ifs <;> omega
  have hfour : doe / 1460 ≤ 25 * a + b + doy ∧ 25 * a + b + doy - 364 ≤ doe / 1460 := by omega
  rw [hcycle, hcentury]
  omega

theorem month_eq : (5 * p.doy + 2) / 153 = p.mp := by
  have hle := p.day_le
  have hday := p.day_pos
  have hmp := p.mp_mem
  unfold doy
  unfold dayOfYear at *
  omega

theorem day_mem : 1 ≤ p.day ∧ p.day ≤ 31 := by
  have hle := p.day_le
  unfold dayOfYear at hle
  exact ⟨p.day_pos, by omega⟩

/-- The month of the year that starts in January. -/
def month : ℤ := if p.mp < 10 then p.mp + 3 else p.mp - 9

/-- The year, in an era, that starts in January. -/
def year (era : ℤ) : ℤ := p.yoe + era * 400 + if p.month ≤ 2 then 1 else 0

theorem month_mem : 1 ≤ p.month ∧ p.month ≤ 12 := by
  have hmp := p.mp_mem
  unfold month
  split_ifs <;> omega

theorem year_mem (era : ℤ) : era * 400 ≤ p.year era ∧ p.year era ≤ era * 400 + 400 := by
  have hyoe := p.yoe_mem
  unfold year
  split_ifs <;> omega

/-- Only the last days of an era are in the first year of the next. -/
theorem year_lt {era : ℤ} (h : p.doe < 146037) : p.year era < era * 400 + 400 := by
  have hyoe := p.yoe_mem
  have hmp := p.mp_mem
  have hday := p.day_pos
  have hdoe : p.doe = 365 * p.yoe + p.yoe / 4 - p.yoe / 100 + p.doy := rfl
  have hdoy : p.doy = (153 * p.mp + 2) / 5 + p.day - 1 := rfl
  unfold year month
  split_ifs <;> omega

theorem day_eq : p.doy - (153 * p.mp + 2) / 5 + 1 = p.day := by
  unfold doy dayOfYear
  omega

end Place

/-! ## The place of a date -/

theorem monthLength_two (y : ℕ) : monthLength y 2 = if IsLeap y then 29 else 28 := rfl

theorem monthLength_le_march (y : ℕ) {m : ℕ} (h : 1 ≤ m ∧ m ≤ 12) :
    dayOfYear ((m + 9) % 12) (monthLength y m) < dayOfYear ((m + 9) % 12 + 1) 1 := by
  unfold dayOfYear
  by_cases h2 : m = 2
  · rw [h2, monthLength_two]
    split_ifs <;> decide
  · obtain ⟨h1, h12⟩ := h
    interval_cases m <;> simp [monthLength] at h2 ⊢

theorem cycle_eq (y : ℤ) :
    y / 400 * 146097 + daysBeforeYearOfEra (y % 400) = 365 * y + y / 4 - y / 100 + y / 400 := by
  unfold daysBeforeYearOfEra
  omega

/-- The days before a year, from those before the one that started in March of the year before. -/
theorem daysBeforeYear_eq_march (y : ℕ) : (daysBeforeYear y : ℤ) =
    365 * (y - 1 : ℤ) + (y - 1 : ℤ) / 4 - (y - 1 : ℤ) / 100 + (y - 1 : ℤ) / 400 + 366 := by
  cases y with
  | zero => rfl
  | succ y =>
    have hyear := daysBeforeYear_eq (y + 1)
    have hleap := leapDays_succ y
    have hdays : daysBeforeYear (y + 1) + y / 100 = 365 * y + y / 4 + y / 400 + 366 := by
      linarith
    rw [Nat.cast_add, Nat.cast_one, add_sub_cancel_right]
    generalize daysBeforeYear (y + 1) = days at hdays
    omega

namespace Date

/-- The year that starts in March. -/
def marchYear (d : Date) : ℤ := if d.month ≤ 2 then d.year - 1 else d.year

def place (d : Date) : Place where
  yoe := d.marchYear % 400
  mp := (d.month + 9) % 12
  day := d.day
  yoe_mem := by omega
  mp_mem := by omega
  day_pos := by have := d.day_mem; omega
  day_le := by
    have hday := d.day_mem
    have hmarch := monthLength_le_march d.year d.month_mem
    unfold dayOfYear at *
    omega
  leap := by
    have hday := d.day_mem
    have hday31 := d.day_le
    have hmonth := d.month_mem
    unfold dayOfYear marchYear
    by_cases hfeb : d.month = 2
    · rw [hfeb] at hday ⊢
      unfold monthLength at hday
      by_cases hleap : IsLeap d.year
      · rw [if_pos rfl, if_pos hleap] at hday
        unfold IsLeap at hleap
        simp only [le_refl, if_true]
        omega
      · rw [if_pos rfl, if_neg hleap] at hday
        omega
    · omega

theorem month_place (d : Date) : d.place.month = d.month := by
  have hmonth := d.month_mem
  have hmp : d.place.mp = (d.month + 9) % 12 := rfl
  unfold Place.month
  split_ifs <;> omega

theorem year_place (d : Date) : d.place.year (d.marchYear / 400) = d.year := by
  have hyoe : d.place.yoe = d.marchYear % 400 := rfl
  unfold Place.year
  rw [month_place]
  unfold marchYear at *
  split_ifs at * <;> omega

/-- The days before a date, from the first of March of the year 0. -/
theorem ordinal_eq_doe (d : Date) :
    (d.ordinal : ℤ) = d.marchYear / 400 * 146097 + d.place.doe + 60 := by
  obtain ⟨hday, -⟩ := d.day_mem
  have hmonth := d.month_mem
  have hbefore := daysBeforeMonth_eq d.year hmonth
  have hplace : d.place.doe =
      daysBeforeYearOfEra (d.marchYear % 400) + dayOfYear ((d.month + 9) % 12) d.day := rfl
  have hordinal : (d.ordinal : ℤ) =
      daysBeforeYear d.year + daysBeforeMonth d.year d.month + (d.day - 1) := by
    unfold ordinal
    omega
  rw [hplace, ← add_assoc, cycle_eq, hordinal]
  unfold marchYear
  by_cases h2 : d.month ≤ 2
  · have hmonths : dayOfYear ((d.month + 9) % 12) d.day =
        306 + daysBeforeMonth d.year d.month + (d.day - 1) := by
      rw [hbefore, if_pos h2]
      unfold dayOfYear
      omega
    rw [if_pos h2, hmonths, daysBeforeYear_eq_march]
    ring
  · have hmonths : dayOfYear ((d.month + 9) % 12) d.day + 59 + (if IsLeap d.year then 1 else 0) =
        daysBeforeMonth d.year d.month + (d.day - 1) := by
      rw [hbefore, if_neg h2, monthLength_two]
      unfold dayOfYear
      split_ifs <;> omega
    have hyear := daysBeforeYear_eq d.year
    have hcast : (daysBeforeYear d.year : ℤ) + (if IsLeap d.year then 1 else 0) + d.year / 100 =
        365 * d.year + d.year / 4 + d.year / 400 + 1 := by
      exact_mod_cast hyear
    rw [if_neg h2]
    linarith

end Date

theorem Place.exists_doe_eq (z : ℤ) : ∃ p : Place, p.doe = z % 146097 := by
  obtain ⟨d, hd⟩ := Date.exists_ordinal_eq (z % 146097 + 60).toNat
  have hdoe := d.place.doe_mem
  have hordinal := d.ordinal_eq_doe
  exact ⟨d.place, by omega⟩

theorem Place.doe_injective : Function.Injective doe := by
  intro p q h
  have hyoe : p.yoe = q.yoe := by rw [← p.yearOfEra_eq, ← q.yearOfEra_eq, h]
  have hdoy : p.doy = q.doy := by
    unfold doe at h
    rw [hyoe] at h
    omega
  have hmp : p.mp = q.mp := by rw [← p.month_eq, ← q.month_eq, hdoy]
  have hday : p.day = q.day := by rw [← p.day_eq, ← q.day_eq, hdoy, hmp]
  cases p
  cases q
  simp_all

/-- The number spells the date of the day. -/
def Spells (days : ℤ) (ymd : ℕ) : Prop := ∃ d : Date, d.year ≤ 9999 ∧ d.unixDay = days ∧ ymd = d.ymd

theorem Spells.unique {days : ℤ} {ymd ymd' : ℕ} (h : Spells days ymd) (h' : Spells days ymd') :
    ymd = ymd' := by
  obtain ⟨d, -, hd, rfl⟩ := h
  obtain ⟨d', -, hd', rfl⟩ := h'
  rw [Date.unixDay_injective (hd.trans hd'.symm)]

/-- Later days have larger numbers. -/
theorem Spells.lt_iff {days days' : ℤ} {ymd ymd' : ℕ} (h : Spells days ymd)
    (h' : Spells days' ymd') : ymd < ymd' ↔ days < days' := by
  obtain ⟨d, -, rfl, rfl⟩ := h
  obtain ⟨d', -, rfl, rfl⟩ := h'
  exact Date.unixDay_lt_iff.symm

/-- The days from the first of January of the year 0 to the end of the year 9999. -/
theorem exists_spells_iff {days : ℤ} :
    (∃ ymd, Spells days ymd) ↔ -719528 ≤ days ∧ days < 2932897 := by
  have hend : daysBeforeYear 10000 = 3652425 := by
    have h := daysBeforeYear_eq 10000
    rw [if_pos (by decide)] at h
    omega
  have hepoch := Date.ordinal_epoch
  constructor
  · rintro ⟨_, d, hyear, rfl, -⟩
    have hlt := d.ordinal_lt_daysBeforeYear
    have hle := daysBeforeYear_mono (show d.year + 1 ≤ 10000 by omega)
    unfold Date.unixDay
    omega
  · rintro ⟨hlow, hhigh⟩
    obtain ⟨d, hd⟩ := Date.exists_ordinal_eq (days + 719528).toNat
    refine ⟨d.ymd, d, ?_, by unfold Date.unixDay; omega, rfl⟩
    by_contra hyear
    have hle := daysBeforeYear_mono (show 10000 ≤ d.year by omega)
    have hordinal : daysBeforeYear d.year ≤ d.ordinal := by unfold Date.ordinal; omega
    omega

theorem Date.eq_era {d : Date} {days : ℤ} (h : d.unixDay = days) :
    d.marchYear / 400 = (days + 719468) / 146097 ∧ d.place.doe = (days + 719468) % 146097 := by
  have hdoe := d.place.doe_mem
  have hordinal := d.ordinal_eq_doe
  have hepoch := ordinal_epoch
  unfold unixDay at h
  omega

/-- The date of a day from its place in its era. -/
theorem spells_iff {days : ℤ} {ymd : ℕ} {p : Place} (hp : p.doe = (days + 719468) % 146097) :
    Spells days ymd ↔
      (0 ≤ p.year ((days + 719468) / 146097) ∧ p.year ((days + 719468) / 146097) ≤ 9999) ∧
        (ymd : ℤ) = p.year ((days + 719468) / 146097) * 10000 + p.month * 100 + p.day := by
  have date (d : Date) (hd : d.unixDay = days) :
      p.year ((days + 719468) / 146097) = d.year ∧ p.month = d.month ∧ p.day = d.day := by
    obtain ⟨hera, hdoe⟩ := Date.eq_era hd
    rw [← hera, Place.doe_injective (hp.trans hdoe.symm)]
    exact ⟨d.year_place, d.month_place, rfl⟩
  constructor
  · rintro ⟨d, hyear, hd, rfl⟩
    obtain ⟨hy, hm, hday⟩ := date d hd
    rw [hy, hm, hday]
    unfold Date.ymd
    omega
  · rintro ⟨hyear, hymd⟩
    -- a year from 0 on is that of a day from the first of January of the year 0 on
    have hdays : -719528 ≤ days := by
      have hmem := p.year_mem ((days + 719468) / 146097)
      have hlt := @Place.year_lt p ((days + 719468) / 146097)
      omega
    obtain ⟨d, hordinal⟩ := Date.exists_ordinal_eq (days + 719528).toNat
    have hd : d.unixDay = days := by
      have hepoch := Date.ordinal_epoch
      unfold Date.unixDay
      omega
    obtain ⟨hy, hm, hday⟩ := date d hd
    rw [hy, hm, hday] at hymd
    rw [hy] at hyear
    exact ⟨d, by omega, hd, by unfold Date.ymd; omega⟩

end Gregorian
