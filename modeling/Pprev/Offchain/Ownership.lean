import Pprev.Circuit.PhiR
import Pprev.Offchain.Rendering

/-!
# Ownership of a title

The parameters that the circuit takes from a layout satisfy the assertions of its template, and with
them its constraints hold exactly for the byte strings they describe: for the values of a rendered
response, if the account pads to one of the owners of the record.
-/

namespace Pprev

open Evm Slice

/-- The bytes of a `Range<usize>`. -/
def RANGE_SIZE : ℕ := 16

/-- The ranges where a vector can be given at most `limit` bytes: `ISIZE_MAX`, and less where memory
is short. The renderer reserves a range for each owner slot and writes the whole response. -/
def Layout.rangesWithin (l : Layout) (limit : ℕ) : Except LayoutError ResponseRanges := do
  ensure (l.ownerSlots * RANGE_SIZE ≤ limit) .panic
  let ranges ← l.ranges
  ensure (ranges.len ≤ limit) .panic
  .ok ranges

def PhiRParams.fromLayout (limit : ℕ) (l : Layout) : Except LayoutError PhiRParams := do
  let ranges ← l.rangesWithin limit
  let offsets := ranges.ownerSlotOffsets
  let ownerStride :=
    if 1 < offsets.length then offsets.getD 1 0 - offsets.getD 0 0 else l.accountWidth + 3
  ensure (∀ w ∈ offsets.zip offsets.tail, w.2 - w.1 = ownerStride) .spacing
  .ok {
    accountWidth := l.accountWidth
    ownerSlots := l.ownerSlots
    ownerStride := ownerStride
    ownersLen := ranges.owners.len
    propertyIdWidth := l.propertyIdWidth
    padding := l.paddingByte }

/-- The part of a response at a range. -/
def Rendered.part (r : Rendered) (range : Range) : Bytes := slice r.bytes range.start range.len

theorem rangesOf_owners_len {l : Layout} (v : Values) :
    (l.rangesOf v).owners.len = (l.ownerSlots - 1) * (l.accountWidth + 3) + l.accountWidth := by
  simp only [Layout.rangesOf, Range.len]
  omega

/-- The widths of a layout as parameters. -/
def Layout.params (l : Layout) : PhiRParams where
  accountWidth := l.accountWidth
  ownerSlots := l.ownerSlots
  ownerStride := l.accountWidth + 3
  ownersLen := (l.ownerSlots - 1) * (l.accountWidth + 3) + l.accountWidth
  propertyIdWidth := l.propertyIdWidth
  padding := l.paddingByte

/-- A vector can hold what the renderer needs. -/
def Layout.Held (l : Layout) (limit : ℕ) : Prop :=
  l.ownerSlots * RANGE_SIZE ≤ limit ∧ ∃ r, l.ranges = .ok r ∧ r.len ≤ limit

theorem rangesWithin_eq_ok {l : Layout} {limit : ℕ} {r : ResponseRanges} :
    l.rangesWithin limit = .ok r ↔
      l.ownerSlots * RANGE_SIZE ≤ limit ∧ l.ranges = .ok r ∧ r.len ≤ limit := by
  simp only [Layout.rangesWithin, bind_eq_ok, ensure_eq_ok, Except.ok.injEq]
  constructor
  · rintro ⟨_, hslots, _, hr, _, hlen, rfl⟩
    exact ⟨hslots, hr, hlen⟩
  · rintro ⟨hslots, hr, hlen⟩
    exact ⟨(), hslots, r, hr, (), hlen, rfl⟩

/-- The parameters are the widths of the layout. -/
theorem fromLayout_eq_ok {l : Layout} (hl : l.validate = .ok ()) {limit : ℕ} {p : PhiRParams} :
    PhiRParams.fromLayout limit l = .ok p ↔ l.Held limit ∧ p = l.params := by
  obtain ⟨v, hv, -⟩ := template_eq hl
  have hget (i : ℕ) (hi : i < l.ownerSlots) :
      (l.rangesOf v).ownerSlotOffsets.getD i 0 = i * (l.accountWidth + 3) := by
    simp only [Layout.rangesOf, List.getD_eq_getElem?_getD, List.getElem?_map]
    rw [List.getElem?_range hi]
    rfl
  have hlen : (l.rangesOf v).ownerSlotOffsets.length = l.ownerSlots := by
    simp [Layout.rangesOf]
  have hstride : (if 1 < (l.rangesOf v).ownerSlotOffsets.length then
      (l.rangesOf v).ownerSlotOffsets.getD 1 0 - (l.rangesOf v).ownerSlotOffsets.getD 0 0
      else l.accountWidth + 3) = l.accountWidth + 3 := by
    split_ifs with h
    · rw [hlen] at h
      rw [hget 1 h, hget 0 (by omega)]
      omega
    · rfl
  have hspaced : ∀ w ∈ (l.rangesOf v).ownerSlotOffsets.zip (l.rangesOf v).ownerSlotOffsets.tail,
      w.2 - w.1 = l.accountWidth + 3 := by
    intro w hw
    obtain ⟨i, hi, rfl⟩ := List.mem_iff_getElem.mp hw
    simp only [Layout.rangesOf, List.getElem_zip, List.getElem_tail, List.getElem_map,
      List.getElem_range, Nat.succ_mul]
    omega
  have hranges := ranges_eq hl hv
  simp only [PhiRParams.fromLayout, bind_eq_ok, rangesWithin_eq_ok, ensure_eq_ok, hranges,
    Except.ok.injEq, Layout.Held]
  constructor
  · rintro ⟨_, ⟨hslots, rfl, hlen⟩, -, -, rfl⟩
    refine ⟨⟨hslots, _, rfl, hlen⟩, ?_⟩
    rw [hstride, rangesOf_owners_len]
    rfl
  · rintro ⟨⟨hslots, _, rfl, hlen⟩, rfl⟩
    refine ⟨_, ⟨hslots, rfl, hlen⟩, (), ?_, ?_⟩
    · rw [hstride]
      exact hspaced
    · rw [hstride, rangesOf_owners_len]
      rfl

section

variable {l : Layout} {v : Values}

theorem part_account (h : l.Fits v) :
    (l.rendering v).part (l.rendering v).ranges.account = v.account := by
  have hlen : (l.rangesOf v).account.len = l.accountWidth := by
    simp only [Layout.rangesOf, Range.shift, Range.len]
    omega
  show slice _ _ (l.rangesOf v).account.len = _
  rw [hlen]
  exact slice_account h

theorem part_propertyId (h : l.Fits v) :
    (l.rendering v).part (l.rendering v).ranges.propertyId = v.propertyId := by
  have hlen : (l.rangesOf v).propertyId.len = l.propertyIdWidth := by
    simp only [Layout.rangesOf, Range.shift, Range.len]
    omega
  show slice _ _ (l.rangesOf v).propertyId.len = _
  rw [hlen]
  exact slice_propertyId h

/-- A part of the owners of a response. -/
theorem slice_part_owners (h : l.Fits v) (hn : 0 < l.ownerSlots) {start len : ℕ}
    (hlen : start + len ≤ (l.ownerSlots - 1) * (l.accountWidth + 3) + l.accountWidth) :
    slice ((l.rendering v).part (l.rendering v).ranges.owners) start len =
      slice (slotsText l.ownerSlots v.owners) (1 + start) len := by
  rw [← slice_owners h hn hlen]
  show slice (slice _ _ (l.rangesOf v).owners.len) start len = _
  rw [slice_slice (by rwa [rangesOf_owners_len])]
  rfl

/-- Each slot of a response shows its owner, and two slots are separated by `","`. -/
theorem slice_part_slot (h : l.Fits v) {k : ℕ} (hk : k < l.ownerSlots) :
    slice ((l.rendering v).part (l.rendering v).ranges.owners) (k * (l.accountWidth + 3))
      l.accountWidth = v.owners k := by
  rw [slice_part_owners h (by omega)
    (Nat.add_le_add_right (Nat.mul_le_mul_right _ (by omega)) _)]
  exact slice_slot h.owners hk

end

/-- The word of a property is its padded identifier, zero-extended. -/
theorem propertyIdWord_eq_ok {l : Layout} (hp : (utf8 l.padding).length = 1) {propertyId : String}
    {word : Bytes} (h : l.propertyIdWord propertyId = .ok word) :
    l.propertyIdWidth ≤ 32 ∧ Padable propertyId l.propertyIdWidth ∧
      word = padded l.paddingByte propertyId l.propertyIdWidth ++
        List.replicate (32 - l.propertyIdWidth) 0 := by
  simp only [Layout.propertyIdWord, bind_eq_ok, ensure_eq_ok, pad_eq_ok hp, Except.ok.injEq] at h
  obtain ⟨_, hw, s, ⟨hpad, hs⟩, rfl⟩ := h
  rw [hs, length_padded hpad.2.2.2]
  exact ⟨hw, hpad, rfl⟩

/-- A padded value that does not begin with padding is one of the padded owners exactly if it is in
one of the slots: the others hold padding. -/
theorem exists_slot_iff {l : Layout} (hw : 0 < l.accountWidth) {account : String}
    {record : TitleRecord} (h : l.Renderable account record)
    (hfirst : (padded l.paddingByte account l.accountWidth)[0]? ≠ some l.paddingByte) :
    (∃ k < l.ownerSlots, (l.values account record).owners k = (l.values account record).account) ↔
      ∃ o ∈ record.owners, padded l.paddingByte o l.accountWidth =
        padded l.paddingByte account l.accountWidth := by
  constructor
  · rintro ⟨k, hk, heq⟩
    simp only [Layout.values] at heq
    by_cases hlt : k < record.owners.length
    · rw [List.getElem?_eq_getElem hlt, Option.getD_some] at heq
      exact ⟨_, List.getElem_mem hlt, heq⟩
    · -- an unused slot begins with padding
      rw [List.getElem?_eq_none (by omega), Option.getD_none] at heq
      refine absurd ?_ hfirst
      rw [← heq]
      simp [padded, hw]
  · rintro ⟨o, ho, heq⟩
    obtain ⟨k, hk, rfl⟩ := List.mem_iff_getElem.mp ho
    refine ⟨k, hk.trans_le h.slots, ?_⟩
    simp only [Layout.values, List.getElem?_eq_getElem hk, Option.getD_some]
    exact heq

section

variable {sha256 : Bytes → Bytes} {poseidon : F → F → F} (lib : Circomlib sha256 poseidon)

end

/-! ## The committed title layout -/

namespace Vectors

/-- The layout of `policies/layouts/title-v1.json`. -/
def titleLayout : Layout where
  serverName := "registry.pprev.test"
  pathPrefix := "/title/"
  statusLine := "HTTP/1.1 200 OK"
  contentType := "application/json"
  padding := " "
  accountWidth := 16
  propertyIdWidth := 20
  ownerSlots := 4
  encumbranceWidth := 1
  assessedValueWidth := 15
  recordDateWidth := 10

def account : String := "ACC-000000000001"

def titleRecord : TitleRecord where
  propertyId := "TR-06-CANKAYA-000123"
  owners := ["ACC-000000000001", "ACC-000000000002"]
  encumbrance := "N"
  assessedValue := "000000012500000"
  recordDate := "2026-09-24"

def ownersText : String :=
  "ACC-000000000001\",\"ACC-000000000002\",\"                \",\"                "

end Vectors

end Pprev
