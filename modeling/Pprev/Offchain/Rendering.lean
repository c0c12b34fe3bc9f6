import Pprev.Offchain.Layout

/-!
# What the renderer writes

A rendered title response is the concatenation of fixed pieces and of the padded values, and its
ranges depend on the widths of the layout alone.
-/

namespace Pprev

open Evm Slice

def keyText (name : String) : Bytes := utf8 ("\"" ++ name ++ "\":")

def quoted (value : Bytes) : Bytes := utf8 "\"" ++ value ++ utf8 "\""

@[simp] theorem length_quoted (value : Bytes) : (quoted value).length = value.length + 2 := by
  have h : (utf8 "\"").length = 1 := by decide
  rw [quoted, List.length_append, List.length_append, h]
  omega

namespace Writer

theorem lit_eq (w : Writer) (s : String) :
    w.lit s = (⟨w.length, w.length + (utf8 s).length⟩, w ++ utf8 s) := rfl

theorem key_eq (w : Writer) (name : String) :
    w.key name = (⟨w.length, w.length + (keyText name).length⟩, w ++ keyText name) := rfl

theorem string_eq (w : Writer) (value : String) :
    w.string value = (⟨w.length + 1, w.length + 1 + (utf8 value).length⟩,
      w ++ quoted (utf8 value)) := by
  have h : (utf8 "\"").length = 1 := by decide
  simp only [string, lit_eq, List.length_append, h, quoted, List.append_assoc]

end Writer

/-! ## Padded values -/

theorem validate_eq_ok {l : Layout} : l.validate = .ok () ↔
    ((utf8 l.padding).length = 1 ∧ isAscii l.padding) ∧ 0 < l.ownerSlots ∧ 0 < l.accountWidth ∧
      0 < l.propertyIdWidth ∧ 0 < l.encumbranceWidth ∧ 0 < l.assessedValueWidth ∧
      0 < l.recordDateWidth := by
  simp only [Layout.validate, bind_eq_ok, ensure_eq_ok, exists_const_iff]
  tauto

/-- What is asked of a value before it is padded. -/
def Padable (value : String) (width : ℕ) : Prop :=
  isAscii value ∧ ¬(value.toList.any fun c => c == '"' || c == '\\') = true ∧
    ¬(utf8 value).any isAsciiControl = true ∧ (utf8 value).length ≤ width

instance (value : String) (width : ℕ) : Decidable (Padable value width) := by
  unfold Padable
  infer_instance

/-- A value followed by padding bytes up to a width. -/
def padded (padding : UInt8) (value : String) (width : ℕ) : Bytes :=
  utf8 value ++ List.replicate (width - (utf8 value).length) padding

theorem length_padded {padding : UInt8} {value : String} {width : ℕ}
    (h : (utf8 value).length ≤ width) : (padded padding value width).length = width := by
  rw [padded, List.length_append, List.length_replicate]
  omega

theorem utf8_pad {padding value : String} {width : ℕ} (hp : (utf8 padding).length = 1) :
    utf8 (value ++ String.ofList (List.replicate (width - (utf8 value).length)
      (padding.toList.head?.getD ' '))) = padded ((utf8 padding).headD 0) value width := by
  obtain ⟨c, b, hc, hb, hbytes⟩ := exists_char_of_length_utf8 hp
  rw [utf8_append, hc, hbytes]
  exact congrArg _ (utf8_replicate hb _)

theorem padValue_eq_ok {padding value s : String} {width : ℕ} (hp : (utf8 padding).length = 1) :
    padValue padding value width = .ok s ↔
      Padable value width ∧ utf8 s = padded ((utf8 padding).headD 0) value width := by
  simp only [padValue, bind_eq_ok, ensure_eq_ok, Padable, Nat.not_lt, Except.ok.injEq]
  rw [← utf8_pad hp, utf8_injective.eq_iff]
  constructor
  · rintro ⟨_, h1, _, h2, _, h3, _, h4, rfl⟩
    exact ⟨⟨h1, h2, h3, h4⟩, rfl⟩
  · rintro ⟨⟨h1, h2, h3, h4⟩, rfl⟩
    exact ⟨(), h1, (), h2, (), h3, (), h4, rfl⟩

theorem exists_padValue {padding value : String} {width : ℕ} (hp : (utf8 padding).length = 1)
    (h : Padable value width) : ∃ s, padValue padding value width = .ok s :=
  ⟨_, (padValue_eq_ok hp).mpr ⟨h, utf8_pad hp⟩⟩

theorem pad_eq_ok {l : Layout} (hp : (utf8 l.padding).length = 1) {value s : String} {width : ℕ} :
    l.pad value width = .ok s ↔ Padable value width ∧ utf8 s = padded l.paddingByte value width :=
  padValue_eq_ok hp

theorem padable_empty (width : ℕ) : Padable "" width := by
  exact ⟨by decide +kernel, by decide +kernel, by decide +kernel, Nat.zero_le _⟩

/-! ## The pieces of the body -/

/-- The padded values of a response. -/
structure Values where
  account : Bytes
  propertyId : Bytes
  owners : ℕ → Bytes
  encumbrance : Bytes
  assessedValue : Bytes
  recordDate : Bytes

namespace Layout

/-- The padded values that a response shows. -/
def values (l : Layout) (account : String) (record : TitleRecord) : Values where
  account := padded l.paddingByte account l.accountWidth
  propertyId := padded l.paddingByte record.propertyId l.propertyIdWidth
  owners i := padded l.paddingByte (record.owners[i]?.getD "") l.accountWidth
  encumbrance := padded l.paddingByte record.encumbrance l.encumbranceWidth
  assessedValue := padded l.paddingByte record.assessedValue l.assessedValueWidth
  recordDate := padded l.paddingByte record.recordDate l.recordDateWidth

/-- Every value has the width of its field. -/
structure Fits (l : Layout) (v : Values) : Prop where
  account : v.account.length = l.accountWidth
  propertyId : v.propertyId.length = l.propertyIdWidth
  owners : ∀ i < l.ownerSlots, (v.owners i).length = l.accountWidth
  encumbrance : v.encumbrance.length = l.encumbranceWidth
  assessedValue : v.assessedValue.length = l.assessedValueWidth
  recordDate : v.recordDate.length = l.recordDateWidth

/-- What the renderer accepts. -/
structure Renderable (l : Layout) (account : String) (record : TitleRecord) : Prop where
  slots : record.owners.length ≤ l.ownerSlots
  account : Padable account l.accountWidth
  propertyId : Padable record.propertyId l.propertyIdWidth
  owners : ∀ i < l.ownerSlots, Padable (record.owners[i]?.getD "") l.accountWidth
  encumbrance : Padable record.encumbrance l.encumbranceWidth
  assessedValue : Padable record.assessedValue l.assessedValueWidth
  recordDate : Padable record.recordDate l.recordDateWidth

theorem Renderable.fits {l : Layout} {account : String} {record : TitleRecord}
    (h : l.Renderable account record) : l.Fits (l.values account record) where
  account := length_padded h.account.2.2.2
  propertyId := length_padded h.propertyId.2.2.2
  owners i hi := length_padded (h.owners i hi).2.2.2
  encumbrance := length_padded h.encumbrance.2.2.2
  assessedValue := length_padded h.assessedValue.2.2.2
  recordDate := length_padded h.recordDate.2.2.2

end Layout

/-- The owner slots with their commas. -/
def slotsText (n : ℕ) (owners : ℕ → Bytes) : Bytes :=
  (List.range n).flatMap fun i => (if 0 < i then utf8 "," else []) ++ quoted (owners i)

namespace Values

variable (v : Values)

def toAccount : Bytes := utf8 "\x7b" ++ keyText KEY_ACCOUNT
def toRecord : Bytes := toAccount ++ quoted v.account ++ utf8 ","
def toPropertyKey : Bytes := v.toRecord ++ keyText KEY_RECORD ++ utf8 "\x7b"
def toPropertyId : Bytes := v.toPropertyKey ++ keyText KEY_PROPERTY_ID
def toOwnersKey : Bytes := v.toPropertyId ++ quoted v.propertyId ++ utf8 ","
def toOwners : Bytes := v.toOwnersKey ++ keyText KEY_OWNERS ++ utf8 "["
def toEncumbranceKey (n : ℕ) : Bytes := v.toOwners ++ slotsText n v.owners ++ utf8 "],"
def toAssessedKey (n : ℕ) : Bytes :=
  v.toEncumbranceKey n ++ keyText KEY_ENCUMBRANCE ++ quoted v.encumbrance ++ utf8 ","
def toDateKey (n : ℕ) : Bytes :=
  v.toAssessedKey n ++ keyText KEY_ASSESSED_VALUE ++ quoted v.assessedValue ++ utf8 ","

/-- The body with `n` owner slots. -/
def body (n : ℕ) : Bytes :=
  v.toDateKey n ++ keyText KEY_RECORD_DATE ++ quoted v.recordDate ++ utf8 "\x7d\x7d"

end Values

namespace Layout

/-- The range of owner slot `i` in the body. -/
def slotRange (l : Layout) (v : Values) (i : ℕ) : Range :=
  let start := v.toOwners.length + 1 + i * (l.accountWidth + 3)
  ⟨start, start + l.accountWidth⟩

/-- The head before the given values. -/
def head (l : Layout) (v : Values) : Range × Range × Writer :=
  responseHead l.statusLine l.contentType (v.body l.ownerSlots).length

/-- The ranges of a response with the given values. -/
def rangesOf (l : Layout) (v : Values) : ResponseRanges :=
  let n := l.ownerSlots
  let shift := (l.head v).2.2.length
  let key (w : Bytes) (name : String) : Range := ⟨w.length, w.length + (keyText name).length⟩
  { len := shift + (v.body n).length
    statusLine := (l.head v).1
    contentTypeLine := (l.head v).2.1
    keys := [key (utf8 "\x7b") KEY_ACCOUNT, key v.toRecord KEY_RECORD,
      key v.toPropertyKey KEY_PROPERTY_ID, key v.toOwnersKey KEY_OWNERS,
      key (v.toEncumbranceKey n) KEY_ENCUMBRANCE, key (v.toAssessedKey n) KEY_ASSESSED_VALUE,
      key (v.toDateKey n) KEY_RECORD_DATE].map (·.shift shift)
    account := Range.shift ⟨Values.toAccount.length + 1,
      Values.toAccount.length + 1 + l.accountWidth⟩ shift
    owners := ⟨v.toOwners.length + 1 + shift,
      v.toOwners.length + 1 + (n - 1) * (l.accountWidth + 3) + l.accountWidth + shift⟩
    ownerSlotOffsets := (List.range n).map fun i => i * (l.accountWidth + 3)
    propertyId := Range.shift ⟨v.toPropertyId.length + 1,
      v.toPropertyId.length + 1 + l.propertyIdWidth⟩ shift }

/-- The response with the given values. -/
def rendering (l : Layout) (v : Values) : Rendered :=
  ⟨(l.head v).2.2 ++ v.body l.ownerSlots, l.rangesOf v⟩

end Layout

/-! ## The renderer -/

theorem slotsText_succ (n : ℕ) (owners : ℕ → Bytes) : slotsText (n + 1) owners =
    slotsText n owners ++ (if 0 < n then utf8 "," else []) ++ quoted (owners n) := by
  rw [slotsText, List.range_succ, List.flatMap_append, List.flatMap_singleton, List.append_assoc]
  rfl

theorem length_slotsText {n w : ℕ} {owners : ℕ → Bytes} (h : ∀ i < n, (owners i).length = w) :
    (slotsText n owners).length = n * (w + 3) - 1 := by
  induction n with
  | zero => simp [slotsText]
  | succ n ih =>
    have hcomma : (utf8 ",").length = 1 := by decide
    rw [slotsText_succ, List.length_append, List.length_append, ih fun i hi => h i (by omega),
      length_quoted, h n (by omega), Nat.succ_mul]
    rcases Nat.eq_zero_or_pos n with rfl | hn
    · simp
    · have : w + 3 ≤ n * (w + 3) := Nat.le_mul_of_pos_left _ hn
      rw [if_pos hn, hcomma]
      omega

/-- What the loop over the owner slots writes. -/
theorem foldlM_slot_eq_ok {l : Layout} (hp : (utf8 l.padding).length = 1) {owners : List String}
    {w : Writer} {n : ℕ} {out : List Range × Writer} :
    (List.range n).foldlM (l.slot owners) ([], w) = .ok out ↔
      (∀ i < n, Padable (owners[i]?.getD "") l.accountWidth) ∧
      out = ((List.range n).map fun i =>
          ⟨w.length + 1 + i * (l.accountWidth + 3),
            w.length + 1 + i * (l.accountWidth + 3) + l.accountWidth⟩,
        w ++ slotsText n fun i => padded l.paddingByte (owners[i]?.getD "") l.accountWidth) := by
  induction n generalizing out with
  | zero => simp [slotsText, pure, Except.pure, eq_comm]
  | succ n ih =>
    -- the last slot, written after the others
    have hlast (hfit : ∀ i < n, Padable (owners[i]?.getD "") l.accountWidth)
        (o : String) (ho : Padable (owners[n]?.getD "") l.accountWidth)
        (hbytes : utf8 o = padded l.paddingByte (owners[n]?.getD "") l.accountWidth) :
        (if 0 < n then (Writer.lit (w ++ slotsText n fun i =>
            padded l.paddingByte (owners[i]?.getD "") l.accountWidth) ",").2
          else w ++ slotsText n fun i =>
            padded l.paddingByte (owners[i]?.getD "") l.accountWidth).string o =
          (⟨w.length + 1 + n * (l.accountWidth + 3),
            w.length + 1 + n * (l.accountWidth + 3) + l.accountWidth⟩,
          w ++ slotsText (n + 1) fun i =>
            padded l.paddingByte (owners[i]?.getD "") l.accountWidth) := by
      have hcomma : (utf8 ",").length = 1 := by decide
      have hwidth (i : ℕ) (hi : i < n) :
          (padded l.paddingByte (owners[i]?.getD "") l.accountWidth).length = l.accountWidth :=
        length_padded (hfit i hi).2.2.2
      have hlen := length_slotsText hwidth
      have hplen :
          (padded l.paddingByte (owners[n]?.getD "") l.accountWidth).length = l.accountWidth :=
        length_padded ho.2.2.2
      rcases Nat.eq_zero_or_pos n with rfl | hn
      · simp [Writer.string_eq, slotsText, hbytes, hplen]
      · have : l.accountWidth + 3 ≤ n * (l.accountWidth + 3) := Nat.le_mul_of_pos_left _ hn
        rw [if_pos hn, Writer.string_eq, Writer.lit_eq, slotsText_succ, if_pos hn, hbytes]
        simp only [List.length_append, hlen, hcomma, hplen, List.append_assoc, Prod.mk.injEq,
          Range.mk.injEq, and_true]
        omega
    rw [List.range_succ, List.foldlM_append, bind_eq_ok]
    simp only [ih, List.foldlM_cons, List.foldlM_nil, bind_pure, Layout.slot, bind_eq_ok,
      pad_eq_ok hp, Except.ok.injEq]
    constructor
    · rintro ⟨_, ⟨hfit, rfl⟩, o, ⟨ho, hbytes⟩, rfl⟩
      refine ⟨fun i hi => ?_, ?_⟩
      · rcases Nat.lt_succ_iff_lt_or_eq.mp hi with hi | rfl
        · exact hfit i hi
        · exact ho
      · rw [hlast hfit o ho hbytes, List.map_append]
        rfl
    · rintro ⟨hfit, rfl⟩
      have hfit' : ∀ i < n, Padable (owners[i]?.getD "") l.accountWidth :=
        fun i hi => hfit i (by omega)
      obtain ⟨o, ho⟩ := exists_padValue hp (hfit n (by omega))
      have ho := (pad_eq_ok hp).mp ho
      refine ⟨_, ⟨hfit', rfl⟩, o, ho, ?_⟩
      rw [hlast hfit' o ho.1 ho.2, List.map_append]
      rfl

theorem eq_rendering {l : Layout} (hl : l.validate = .ok ()) {account : String}
    {record : TitleRecord} {r : Rendered} (h : l.renderResponse account record = .ok r) :
    l.Renderable account record ∧ r = l.rendering (l.values account record) := by
  obtain ⟨⟨hp, -⟩, hn, -⟩ := validate_eq_ok.mp hl
  simp only [Layout.renderResponse, bind_eq_ok, ensure_eq_ok, Writer.lit_eq, Writer.key_eq,
    Writer.string_eq, foldlM_slot_eq_ok hp, List.nil_append, pad_eq_ok hp] at h
  obtain ⟨_, hslots, a, ⟨ha, haw⟩, p, ⟨hpr, hpw⟩, _, ⟨ho, rfl⟩, e, ⟨he, hew⟩, v, ⟨hv, hvw⟩, d,
    ⟨hd, hdw⟩, hr⟩ := h
  have hfit : l.Renderable account record := ⟨hslots, ha, hpr, ho, he, hv, hd⟩
  refine ⟨hfit, ?_⟩
  have hlen := hfit.fits
  simp only [haw, hpw, hew, hvw, hdw] at hr
  obtain ⟨m, hm⟩ : ∃ m, l.ownerSlots = m + 1 := ⟨l.ownerSlots - 1, by omega⟩
  have hhead (f : ℕ → Range) : ((List.range l.ownerSlots).map f).head?.getD ⟨0, 0⟩ = f 0 := by
    rw [hm, List.range_succ_eq_map]
    rfl
  have hlast (f : ℕ → Range) :
      ((List.range l.ownerSlots).map f).getLast?.getD ⟨0, 0⟩ = f (l.ownerSlots - 1) := by
    rw [hm, List.range_succ, List.map_append, List.map_singleton, List.getLast?_concat]
    rfl
  rw [hhead, hlast] at hr
  refine (Except.ok.inj hr).symm.trans ?_
  simp only [Layout.rendering, Rendered.mk.injEq, Layout.rangesOf, ResponseRanges.mk.injEq]
  refine ⟨rfl, rfl, rfl, rfl, rfl, ?_, ?_, ?_, ?_⟩
  · have := hlen.account
    simp only [Layout.values] at this
    rw [this]
    rfl
  · simp only [Nat.zero_mul, Nat.add_zero]
    rfl
  · rw [List.map_map]
    refine List.map_congr_left fun i _ => ?_
    simp only [Function.comp_apply]
    omega
  · have := hlen.propertyId
    simp only [Layout.values] at this
    rw [this]
    rfl

/-- The renderer accepts what it can pad. -/
theorem exists_renderResponse {l : Layout} (hl : l.validate = .ok ()) {account : String}
    {record : TitleRecord} (h : l.Renderable account record) :
    ∃ r, l.renderResponse account record = .ok r := by
  have hp := (validate_eq_ok.mp hl).1.1
  obtain ⟨a, ha⟩ := exists_padValue hp h.account
  obtain ⟨p, hpr⟩ := exists_padValue hp h.propertyId
  obtain ⟨e, he⟩ := exists_padValue hp h.encumbrance
  obtain ⟨v, hv⟩ := exists_padValue hp h.assessedValue
  obtain ⟨d, hd⟩ := exists_padValue hp h.recordDate
  simp only [Layout.renderResponse, bind_eq_ok, ensure_eq_ok, Layout.pad]
  exact ⟨_, (), h.slots, a, ha, p, hpr, _, (foldlM_slot_eq_ok hp).mpr ⟨h.owners, rfl⟩, e, he, v,
    hv, d, hd, rfl⟩

theorem renderResponse_eq_ok {l : Layout} (hl : l.validate = .ok ()) {account : String}
    {record : TitleRecord} {r : Rendered} : l.renderResponse account record = .ok r ↔
      l.Renderable account record ∧ r = l.rendering (l.values account record) := by
  refine ⟨eq_rendering hl, fun ⟨h, hr⟩ => ?_⟩
  obtain ⟨r', hr'⟩ := exists_renderResponse hl h
  rw [hr', hr, (eq_rendering hl hr').2]

/-! ## The ranges -/

/-- The pieces before a part of the body have the same lengths around all values that fit. -/
theorem length_pieces {l : Layout} {v v' : Values} (h : l.Fits v) (h' : l.Fits v') :
    v.toRecord.length = v'.toRecord.length ∧
    v.toPropertyKey.length = v'.toPropertyKey.length ∧
    v.toPropertyId.length = v'.toPropertyId.length ∧
    v.toOwnersKey.length = v'.toOwnersKey.length ∧
    v.toOwners.length = v'.toOwners.length ∧
    (v.toEncumbranceKey l.ownerSlots).length = (v'.toEncumbranceKey l.ownerSlots).length ∧
    (v.toAssessedKey l.ownerSlots).length = (v'.toAssessedKey l.ownerSlots).length ∧
    (v.toDateKey l.ownerSlots).length = (v'.toDateKey l.ownerSlots).length ∧
    (v.body l.ownerSlots).length = (v'.body l.ownerSlots).length := by
  simp only [Values.body, Values.toDateKey, Values.toAssessedKey, Values.toEncumbranceKey,
    Values.toOwners, Values.toOwnersKey, Values.toPropertyId, Values.toPropertyKey,
    Values.toRecord, List.length_append, length_quoted, length_slotsText h.owners,
    length_slotsText h'.owners, h.account, h'.account, h.propertyId, h'.propertyId, h.encumbrance,
    h'.encumbrance, h.assessedValue, h'.assessedValue, h.recordDate, h'.recordDate, and_self]

/-- The ranges do not depend on the values. -/
theorem rangesOf_eq {l : Layout} {v v' : Values} (h : l.Fits v) (h' : l.Fits v') :
    l.rangesOf v = l.rangesOf v' := by
  obtain ⟨h1, h2, h3, h4, h5, h6, h7, h8, h9⟩ := length_pieces h h'
  simp only [Layout.rangesOf, Layout.head, h1, h2, h3, h4, h5, h6, h7, h8, h9]

theorem template_eq {l : Layout} (hl : l.validate = .ok ()) :
    ∃ v, l.Fits v ∧ l.template = .ok (l.rendering v) := by
  have hr : l.Renderable "" ⟨"", [], "", "", ""⟩ :=
    ⟨Nat.zero_le _, padable_empty _, padable_empty _, fun i _ => padable_empty _, padable_empty _,
      padable_empty _, padable_empty _⟩
  exact ⟨_, hr.fits, (renderResponse_eq_ok hl).mpr ⟨hr, rfl⟩⟩

/-- Every response has the ranges of the layout. -/
theorem ranges_eq {l : Layout} (hl : l.validate = .ok ()) {v : Values} (h : l.Fits v) :
    l.ranges = .ok (l.rangesOf v) := by
  obtain ⟨v', hv', ht⟩ := template_eq hl
  rw [Layout.ranges, ht, rangesOf_eq h hv']
  rfl

/-! ## The values at their ranges -/

section

variable {l : Layout} {v : Values}

/-- What a response holds where its body holds it. -/
theorem slice_rendering (start len : ℕ) :
    slice (l.rendering v).bytes (start + (l.head v).2.2.length) len =
      slice (v.body l.ownerSlots) start len := by
  rw [Nat.add_comm]
  exact slice_append_right _ _ _ _

/-- A quoted value after some piece. -/
theorem slice_quoted {b w value rest : Bytes} (h : b = w ++ (quoted value ++ rest)) :
    slice b (w.length + 1) value.length = value := by
  have hmid := slice_middle (w ++ utf8 "\"") value (utf8 "\"" ++ rest)
  have hq : (utf8 "\"").length = 1 := by decide
  rw [List.length_append, hq] at hmid
  rwa [h, quoted, List.append_assoc, List.append_assoc, ← List.append_assoc w]

theorem body_account (v : Values) (n : ℕ) :
    ∃ rest, v.body n = Values.toAccount ++ (quoted v.account ++ rest) := by
  simp only [Values.body, Values.toDateKey, Values.toAssessedKey, Values.toEncumbranceKey,
    Values.toOwners, Values.toOwnersKey, Values.toPropertyId, Values.toPropertyKey,
    Values.toRecord, List.append_assoc]
  exact ⟨_, rfl⟩

theorem body_propertyId (v : Values) (n : ℕ) :
    ∃ rest, v.body n = v.toPropertyId ++ (quoted v.propertyId ++ rest) := by
  simp only [Values.body, Values.toDateKey, Values.toAssessedKey, Values.toEncumbranceKey,
    Values.toOwners, Values.toOwnersKey, List.append_assoc]
  exact ⟨_, rfl⟩

theorem body_owners (v : Values) (n : ℕ) :
    ∃ rest, v.body n = v.toOwners ++ (slotsText n v.owners ++ rest) := by
  simp only [Values.body, Values.toDateKey, Values.toAssessedKey, Values.toEncumbranceKey,
    List.append_assoc]
  exact ⟨_, rfl⟩

theorem slice_account (h : l.Fits v) : slice (l.rendering v).bytes (l.rangesOf v).account.start
    l.accountWidth = v.account := by
  obtain ⟨rest, hrest⟩ := body_account v l.ownerSlots
  rw [← h.account]
  exact (slice_rendering _ _).trans (slice_quoted hrest)

theorem slice_propertyId (h : l.Fits v) : slice (l.rendering v).bytes
    (l.rangesOf v).propertyId.start l.propertyIdWidth = v.propertyId := by
  obtain ⟨rest, hrest⟩ := body_propertyId v l.ownerSlots
  rw [← h.propertyId]
  exact (slice_rendering _ _).trans (slice_quoted hrest)

/-! The slots with one comma before each are pieces of one length. -/

/-- An owner slot with the comma before it. -/
def slotPiece (owners : ℕ → Bytes) (i : ℕ) : Bytes := utf8 "," ++ quoted (owners i)

theorem comma_slotsText {n : ℕ} (hn : 0 < n) (owners : ℕ → Bytes) :
    utf8 "," ++ slotsText n owners = (List.range n).flatMap (slotPiece owners) := by
  induction n with
  | zero => omega
  | succ n ih =>
    rw [slotsText_succ, List.range_succ, List.flatMap_append, List.flatMap_singleton]
    rcases Nat.eq_zero_or_pos n with rfl | hn
    · rfl
    · rw [← ih hn, if_pos hn, slotPiece]
      simp only [List.append_assoc]

theorem length_slotPiece {n w : ℕ} {owners : ℕ → Bytes} (h : ∀ i < n, (owners i).length = w) :
    ∀ i < n, (slotPiece owners i).length = w + 3 := by
  intro i hi
  have hcomma : (utf8 ",").length = 1 := by decide
  rw [slotPiece, List.length_append, length_quoted, h i hi, hcomma]
  omega

/-- A part of the slots lies one byte further with the comma before them. -/
theorem slice_slotsText {n : ℕ} (hn : 0 < n) (owners : ℕ → Bytes) (start len : ℕ) :
    slice (slotsText n owners) start len =
      slice ((List.range n).flatMap (slotPiece owners)) (start + 1) len := by
  rw [← comma_slotsText hn, Nat.add_comm]
  exact (slice_append_right (utf8 ",") _ start len).symm

theorem slice_slot {n w k : ℕ} {owners : ℕ → Bytes} (h : ∀ i < n, (owners i).length = w)
    (hk : k < n) : slice (slotsText n owners) (1 + k * (w + 3)) w = owners k := by
  have hpiece := slice_flatMap_range (length_slotPiece h) hk
  have hcomma : (utf8 ",").length = 1 := by decide
  have hmid : slice (slotPiece owners k) ((utf8 ",").length + 1) (owners k).length = owners k :=
    slice_quoted (by rw [List.append_nil, slotPiece])
  rw [← hpiece, h k hk, hcomma, slice_slice (show 1 + 1 + w ≤ w + 3 by omega)] at hmid
  rw [slice_slotsText (by omega), show 1 + k * (w + 3) + 1 = k * (w + 3) + (1 + 1) by omega]
  exact hmid

/-- The bytes of a response at its owners. -/
theorem slice_owners (h : l.Fits v) (hn : 0 < l.ownerSlots) {start len : ℕ}
    (hlen : start + len ≤ (l.ownerSlots - 1) * (l.accountWidth + 3) + l.accountWidth) :
    slice (l.rendering v).bytes ((l.rangesOf v).owners.start + start) len =
      slice (slotsText l.ownerSlots v.owners) (1 + start) len := by
  obtain ⟨rest, hrest⟩ := body_owners v l.ownerSlots
  have hslots := length_slotsText h.owners
  have hstart : (l.rangesOf v).owners.start + start =
      v.toOwners.length + (1 + start) + (l.head v).2.2.length := by
    simp only [Layout.rangesOf]
    omega
  have hfit : 1 + start + len ≤ (slotsText l.ownerSlots v.owners).length := by
    rw [hslots]
    obtain ⟨m, hm⟩ : ∃ m, l.ownerSlots = m + 1 := ⟨l.ownerSlots - 1, by omega⟩
    rw [hm, Nat.succ_mul]
    rw [hm, Nat.add_sub_cancel] at hlen
    omega
  rw [hstart, slice_rendering, hrest, slice_append_right, slice_append_left hfit]

end

end Pprev
