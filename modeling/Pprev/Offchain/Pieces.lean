import Pprev.Data.Template
import Pprev.Offchain.Record

/-!
# Responses as templates

The renderers of both layouts fill a template that the layout fixes. The marked parts are the status
line, the Content-Type line and the keys; the holes are the padded values. What the renderers report
are the places of these.
-/

namespace Pprev

open Evm Slice Template

def Range.ofSpan (s : Span) : Range := ⟨s.start, s.start + s.len⟩

@[simp] theorem Range.len_ofSpan (s : Span) : (Range.ofSpan s).len = s.len :=
  Nat.add_sub_cancel_left _ _

@[simp] theorem Range.shift_ofSpan (s : Span) (n : ℕ) :
    (Range.ofSpan s).shift n = Range.ofSpan (s.shift n) := by
  simp only [Range.shift, Range.ofSpan, Span.shift, Nat.add_right_comm]

theorem length_utf8_quote : (utf8 "\"").length = 1 := by decide

theorem length_utf8_comma : (utf8 ",").length = 1 := by decide

/-! ## The pieces -/

def keyPiece (name : String) : Piece UInt8 := .marked (keyText name)

def valuePieces (w : ℕ) : List (Piece UInt8) :=
  [.text (utf8 "\""), .hole w, .text (utf8 "\"")]

/-- A comma before every item but the first. -/
def commaPieces (i : ℕ) : List (Piece UInt8) := if 0 < i then [.text (utf8 ",")] else []

/-- The head before a body of a given length. -/
def headPieces (statusLine contentType : String) (bodyLen : ℕ) : List (Piece UInt8) :=
  [.marked (utf8 statusLine), .text (utf8 "\r\n"), .marked (utf8 ("Content-Type: " ++ contentType)),
    .text (utf8 "\r\n"), .text (utf8 ("Content-Length: " ++ toString bodyLen ++ "\r\n")),
    .text (utf8 "Connection: close\r\n\r\n")]

/-- A body after its head. -/
def responsePieces (statusLine contentType : String) (body : List (Piece UInt8)) :
    List (Piece UInt8) := headPieces statusLine contentType (Template.width body) ++ body

namespace Layout

def slotPieces (l : Layout) : List (Piece UInt8) :=
  (List.range l.ownerSlots).flatMap fun i => commaPieces i ++ valuePieces l.accountWidth

/-- The pieces before the owner slots. -/
def frontPieces (l : Layout) : List (Piece UInt8) :=
  [.text (utf8 "\x7b"), keyPiece KEY_ACCOUNT] ++ valuePieces l.accountWidth ++
  [.text (utf8 ","), keyPiece KEY_RECORD, .text (utf8 "\x7b"), keyPiece KEY_PROPERTY_ID] ++
  valuePieces l.propertyIdWidth ++ [.text (utf8 ","), keyPiece KEY_OWNERS, .text (utf8 "[")]

/-- The pieces after the owner slots. -/
def backPieces (l : Layout) : List (Piece UInt8) :=
  [.text (utf8 "],"), keyPiece KEY_ENCUMBRANCE] ++ valuePieces l.encumbranceWidth ++
  [.text (utf8 ","), keyPiece KEY_ASSESSED_VALUE] ++ valuePieces l.assessedValueWidth ++
  [.text (utf8 ","), keyPiece KEY_RECORD_DATE] ++ valuePieces l.recordDateWidth ++
  [.text (utf8 "\x7d\x7d")]

def bodyPieces (l : Layout) : List (Piece UInt8) := l.frontPieces ++ (l.slotPieces ++ l.backPieces)

def pieces (l : Layout) : List (Piece UInt8) :=
  responsePieces l.statusLine l.contentType l.bodyPieces

end Layout

namespace RecordLayout

/-- The pieces of field `i`. -/
def fieldPieces (field : RecordField) (i : ℕ) : List (Piece UInt8) :=
  commaPieces i ++ keyPiece field.key :: valuePieces field.width

def fieldsPieces (l : RecordLayout) : List (Piece UInt8) :=
  l.fields.zipIdx.flatMap fun item => fieldPieces item.1 item.2

/-- The pieces before the fields. -/
def frontPieces (l : RecordLayout) : List (Piece UInt8) :=
  [.text (utf8 "\x7b"), keyPiece KEY_ACCOUNT] ++ valuePieces l.accountWidth ++
  [.text (utf8 ","), keyPiece KEY_RECORD, .text (utf8 "\x7b")]

def bodyPieces (l : RecordLayout) : List (Piece UInt8) :=
  l.frontPieces ++ (l.fieldsPieces ++ [.text (utf8 "\x7d\x7d")])

def pieces (l : RecordLayout) : List (Piece UInt8) :=
  responsePieces l.statusLine l.contentType l.bodyPieces

/-- The values that are written, in their order. -/
def written (l : RecordLayout) (account : String) (values : List String) : List Bytes :=
  padded l.paddingByte account l.accountWidth ::
    (l.fields.zip values).map fun item => padded l.paddingByte item.2 item.1.width

end RecordLayout

/-- The values in the order they are written. -/
def Values.written (v : Values) (n : ℕ) : List Bytes :=
  [v.account, v.propertyId] ++ ((List.range n).map v.owners ++
    [v.encumbrance, v.assessedValue, v.recordDate])

/-! ## The head -/

section

variable {statusLine contentType : String} {body : List (Piece UInt8)} {vs : List Bytes}

theorem fill_headPieces (n : ℕ) : fill (headPieces statusLine contentType n) [] =
    (responseHead statusLine contentType n).2.2 := by
  simp [headPieces, fill, responseHead, Writer.lit]

theorem fits_headPieces (n : ℕ) : Fits (headPieces statusLine contentType n) [] := rfl

theorem width_headPieces (n : ℕ) : Template.width (headPieces statusLine contentType n) =
    (responseHead statusLine contentType n).2.2.length := by
  rw [← fill_headPieces, length_fill (fits_headPieces n)]

theorem marks_headPieces (n : ℕ) :
    (marks (headPieces statusLine contentType n) 0).map Range.ofSpan =
      [(responseHead statusLine contentType n).1, (responseHead statusLine contentType n).2.1] := by
  simp [headPieces, marks, responseHead, Writer.lit, Range.ofSpan]

theorem fits_responsePieces :
    Fits (responsePieces statusLine contentType body) vs ↔ Fits body vs := Iff.rfl

theorem fill_responsePieces (h : Fits body vs) : fill (responsePieces statusLine contentType body) vs =
    (responseHead statusLine contentType (fill body vs).length).2.2 ++ fill body vs := by
  rw [length_fill h, ← fill_headPieces]
  exact fill_append (fits_headPieces (Template.width body))

theorem marks_responsePieces {n : ℕ} (hn : Template.width body = n) :
    (marks (responsePieces statusLine contentType body) 0).map Range.ofSpan =
      [(responseHead statusLine contentType n).1, (responseHead statusLine contentType n).2.1] ++
      ((marks body 0).map Range.ofSpan).map
        (·.shift (responseHead statusLine contentType n).2.2.length) := by
  rw [responsePieces, marks_append, List.map_append, marks_headPieces, hn, width_headPieces,
    marks_shift, List.map_map, List.map_map]
  refine congrArg _ (List.map_congr_left fun span _ => ?_)
  exact (Range.shift_ofSpan span _).symm

theorem holes_responsePieces {n : ℕ} (hn : Template.width body = n) :
    (holes (responsePieces statusLine contentType body) 0).map Range.ofSpan =
      ((holes body 0).map Range.ofSpan).map
        (·.shift (responseHead statusLine contentType n).2.2.length) := by
  have hhead : holes (headPieces statusLine contentType n) 0 = [] := rfl
  rw [responsePieces, holes_append, hn, hhead, List.nil_append, width_headPieces, holes_shift,
    List.map_map, List.map_map]
  refine List.map_congr_left fun span _ => ?_
  exact (Range.shift_ofSpan span _).symm

end

/-! ## The title response -/

theorem fill_commaPieces (i : ℕ) (ps : List (Piece UInt8)) (vs : List Bytes) :
    fill (commaPieces i ++ ps) vs = (if 0 < i then utf8 "," else []) ++ fill ps vs := by
  unfold commaPieces
  split_ifs <;> rfl

theorem fits_commaPieces {i : ℕ} {ps : List (Piece UInt8)} {vs : List Bytes} :
    Fits (commaPieces i ++ ps) vs ↔ Fits ps vs := by
  unfold commaPieces
  split_ifs <;> rfl

theorem fits_valuePieces {w : ℕ} {value : Bytes} : Fits (valuePieces w) [value] ↔ value.length = w := by
  simp [Fits, valuePieces, widths]

theorem fill_valuePieces (w : ℕ) (value : Bytes) : fill (valuePieces w) [value] = quoted value := by
  simp [valuePieces, fill, quoted]

section

variable {l : Layout} {v : Values}

theorem fits_slotPieces (h : ∀ i < l.ownerSlots, (v.owners i).length = l.accountWidth) :
    Fits l.slotPieces ((List.range l.ownerSlots).map v.owners) := by
  rw [Layout.slotPieces, List.map_eq_flatMap]
  refine fits_flatMap fun i hi => ?_
  exact fits_commaPieces.mpr (fits_valuePieces.mpr (h i (List.mem_range.mp hi)))

theorem fill_slotPieces (h : ∀ i < l.ownerSlots, (v.owners i).length = l.accountWidth) :
    fill l.slotPieces ((List.range l.ownerSlots).map v.owners) = slotsText l.ownerSlots v.owners := by
  rw [Layout.slotPieces, List.map_eq_flatMap, fill_flatMap]
  · simp only [fill_commaPieces, fill_valuePieces]
    rfl
  · intro i hi
    exact fits_commaPieces.mpr (fits_valuePieces.mpr (h i (List.mem_range.mp hi)))

theorem marks_slotPieces (s : ℕ) : marks l.slotPieces s = [] := by
  have hone (i s : ℕ) : marks (commaPieces i ++ valuePieces l.accountWidth) s = [] := by
    unfold commaPieces
    split_ifs <;> rfl
  rw [Layout.slotPieces]
  induction List.range l.ownerSlots generalizing s with
  | nil => rfl
  | cons i is ih => rw [List.flatMap_cons, marks_append, hone, ih, List.nil_append]

theorem markedTexts_slotPieces : markedTexts l.slotPieces = [] := by
  have hone (i : ℕ) : markedTexts (commaPieces i ++ valuePieces l.accountWidth) = [] := by
    unfold commaPieces
    split_ifs <;> rfl
  rw [Layout.slotPieces]
  induction List.range l.ownerSlots with
  | nil => rfl
  | cons i is ih => rw [List.flatMap_cons, markedTexts_append, hone, ih, List.nil_append]

/-- The marked texts of a title response. -/
theorem markedTexts_pieces : markedTexts l.pieces =
    [utf8 l.statusLine, utf8 ("Content-Type: " ++ l.contentType)] ++
    [KEY_ACCOUNT, KEY_RECORD, KEY_PROPERTY_ID, KEY_OWNERS, KEY_ENCUMBRANCE, KEY_ASSESSED_VALUE,
      KEY_RECORD_DATE].map keyText := by
  rw [Layout.pieces, responsePieces, Layout.bodyPieces, markedTexts_append, markedTexts_append,
    markedTexts_append, markedTexts_slotPieces]
  rfl

theorem width_slotPieces (n w : ℕ) : Template.width ((List.range n).flatMap fun i =>
    commaPieces i ++ valuePieces w) = n * (w + 3) - 1 := by
  have hfits : ∀ i ∈ List.range n, Fits (commaPieces i ++ valuePieces w) [List.replicate w 0] :=
    fun i _ => fits_commaPieces.mpr (fits_valuePieces.mpr (List.length_replicate ..))
  rw [← length_fill (fits_flatMap hfits), fill_flatMap hfits]
  simp only [fill_commaPieces, fill_valuePieces]
  exact length_slotsText fun i _ => List.length_replicate ..

/-- The owner slots lie at distances of the width of a slot and what separates two of them. -/
theorem holes_slotPieces (s : ℕ) : holes l.slotPieces s =
    (List.range l.ownerSlots).map fun i => ⟨s + 1 + i * (l.accountWidth + 3), l.accountWidth⟩ := by
  rw [Layout.slotPieces]
  induction l.ownerSlots with
  | zero => rfl
  | succ n ih =>
    rw [List.range_succ, List.flatMap_append, holes_append, ih, List.map_append, width_slotPieces,
      List.flatMap_singleton]
    refine congrArg _ ?_
    rcases Nat.eq_zero_or_pos n with rfl | hn
    · simp [commaPieces, valuePieces, holes, length_utf8_quote]
    · have hle : l.accountWidth + 3 ≤ n * (l.accountWidth + 3) := Nat.le_mul_of_pos_left _ hn
      simp only [commaPieces, if_pos hn, valuePieces, List.cons_append, List.nil_append, holes,
        length_utf8_quote, length_utf8_comma, List.map_cons, List.map_nil, List.cons.injEq,
        Span.mk.injEq, and_true]
      omega

theorem fits_bodyPieces (h : l.Fits v) : Fits l.bodyPieces (v.written l.ownerSlots) := by
  have hslots := fits_slotPieces h.owners
  rw [Fits] at hslots
  simp [Fits, Layout.bodyPieces, Layout.frontPieces,
    Layout.backPieces, keyPiece, valuePieces, widths, widths_append, Values.written, h.account,
    h.propertyId, h.encumbrance, h.assessedValue, h.recordDate, ← hslots]

theorem fill_bodyPieces (h : l.Fits v) :
    fill l.bodyPieces (v.written l.ownerSlots) = v.body l.ownerSlots := by
  have hfront : Fits l.frontPieces [v.account, v.propertyId] := by
    simp [Fits, Layout.frontPieces, keyPiece, valuePieces, widths, h.account, h.propertyId]
  rw [Layout.bodyPieces, Values.written, fill_append hfront, fill_append (fits_slotPieces h.owners),
    fill_slotPieces h.owners]
  simp [Layout.frontPieces, Layout.backPieces, keyPiece, valuePieces, fill, Values.body,
    Values.toDateKey, Values.toAssessedKey, Values.toEncumbranceKey, Values.toOwners,
    Values.toOwnersKey, Values.toPropertyId, Values.toPropertyKey, Values.toRecord,
    Values.toAccount, quoted]

theorem marks_bodyPieces (h : l.Fits v) : (marks l.bodyPieces 0).map Range.ofSpan =
    let key (w : Bytes) (name : String) : Range := ⟨w.length, w.length + (keyText name).length⟩
    [key (utf8 "\x7b") KEY_ACCOUNT, key v.toRecord KEY_RECORD, key v.toPropertyKey KEY_PROPERTY_ID,
      key v.toOwnersKey KEY_OWNERS, key (v.toEncumbranceKey l.ownerSlots) KEY_ENCUMBRANCE,
      key (v.toAssessedKey l.ownerSlots) KEY_ASSESSED_VALUE,
      key (v.toDateKey l.ownerSlots) KEY_RECORD_DATE] := by
  have hslots := length_fill (fits_slotPieces h.owners)
  rw [fill_slotPieces h.owners] at hslots
  simp only [Layout.bodyPieces, marks_append, marks_slotPieces, Layout.frontPieces,
    Layout.backPieces, valuePieces, keyPiece, List.cons_append, List.nil_append, marks,
    List.map_cons, List.map_nil, Range.ofSpan, hslots.symm, List.cons.injEq, Range.mk.injEq,
    Values.toDateKey, Values.toAssessedKey, Values.toEncumbranceKey, Values.toOwners,
    Values.toOwnersKey, Values.toPropertyId, Values.toPropertyKey, Values.toRecord,
    Values.toAccount, List.length_append, length_quoted,
    h.account, h.propertyId, h.encumbrance, h.assessedValue, length_utf8_quote, and_true]
  omega

theorem width_frontPieces (h : l.Fits v) : Template.width l.frontPieces = v.toOwners.length := by
  simp only [Layout.frontPieces, valuePieces, keyPiece, List.cons_append, List.nil_append,
    width_cons, width_nil, Piece.width, Values.toOwners, Values.toOwnersKey, Values.toPropertyId,
    Values.toPropertyKey, Values.toRecord, Values.toAccount, List.length_append, length_quoted,
    h.account, h.propertyId, length_utf8_quote]
  omega

theorem holes_frontPieces (h : l.Fits v) : (holes l.frontPieces 0).map Range.ofSpan =
    [⟨Values.toAccount.length + 1, Values.toAccount.length + 1 + l.accountWidth⟩,
      ⟨v.toPropertyId.length + 1, v.toPropertyId.length + 1 + l.propertyIdWidth⟩] := by
  simp only [Layout.frontPieces, valuePieces, keyPiece, List.cons_append, List.nil_append, holes,
    List.map_cons, List.map_nil, Range.ofSpan, List.cons.injEq, Range.mk.injEq,
    Values.toPropertyId, Values.toPropertyKey, Values.toRecord, Values.toAccount,
    List.length_append, length_quoted, h.account, length_utf8_quote, and_true]
  omega

/-- The account, the identifier and the owner slots; then the values that no range reports. -/
theorem holes_bodyPieces (h : l.Fits v) : ∃ s, (holes l.bodyPieces 0).map Range.ofSpan =
    [⟨Values.toAccount.length + 1, Values.toAccount.length + 1 + l.accountWidth⟩,
      ⟨v.toPropertyId.length + 1, v.toPropertyId.length + 1 + l.propertyIdWidth⟩] ++
    ((List.range l.ownerSlots).map (l.slotRange v) ++
      (holes l.backPieces s).map Range.ofSpan) := by
  refine ⟨v.toOwners.length + Template.width l.slotPieces, ?_⟩
  rw [Layout.bodyPieces, holes_append, holes_append, holes_slotPieces, List.map_append,
    List.map_append, holes_frontPieces h, width_frontPieces h, List.map_map, Nat.zero_add]
  rfl

theorem width_bodyPieces (h : l.Fits v) :
    Template.width l.bodyPieces = (v.body l.ownerSlots).length := by
  rw [← fill_bodyPieces h, length_fill (fits_bodyPieces h)]

theorem fits_pieces (h : l.Fits v) : Fits l.pieces (v.written l.ownerSlots) :=
  fits_responsePieces.mpr (fits_bodyPieces h)

/-- A title response fills the template of its layout. -/
theorem fill_pieces (h : l.Fits v) :
    fill l.pieces (v.written l.ownerSlots) = (l.rendering v).bytes := by
  rw [Layout.pieces, fill_responsePieces (fits_bodyPieces h), fill_bodyPieces h]
  rfl

/-- What a title response reveals is marked in its template. -/
theorem marks_pieces (h : l.Fits v) : (marks l.pieces 0).map Range.ofSpan =
    [(l.rangesOf v).statusLine, (l.rangesOf v).contentTypeLine] ++ (l.rangesOf v).keys := by
  rw [Layout.pieces, marks_responsePieces (width_bodyPieces h), marks_bodyPieces h]
  rfl

/-- The account, the identifier and the owner slots of a title response are the first holes. -/
theorem holes_pieces (h : l.Fits v) : ∃ rest, (holes l.pieces 0).map Range.ofSpan =
    [(l.rangesOf v).account, (l.rangesOf v).propertyId] ++
    ((l.rangesOf v).ownerSlotOffsets.map (fun offset =>
        ⟨(l.rangesOf v).owners.start + offset,
          (l.rangesOf v).owners.start + offset + l.accountWidth⟩) ++ rest) := by
  obtain ⟨s, hholes⟩ := holes_bodyPieces h
  rw [Layout.pieces, holes_responsePieces (width_bodyPieces h), hholes, List.map_append,
    List.map_append, List.map_map]
  refine ⟨_, congrArg₂ _ rfl (congrArg₂ _ ?_ rfl)⟩
  rw [Layout.rangesOf, List.map_map]
  refine List.map_congr_left fun i _ => ?_
  simp only [Function.comp_apply, Layout.slotRange, Range.shift, Layout.head, Range.mk.injEq]
  omega

/-! ### The owners as one value -/

/-- The length of the owner slots with what separates them. -/
def Layout.ownersWidth (l : Layout) : ℕ :=
  (l.ownerSlots - 1) * (l.accountWidth + 3) + l.accountWidth

/-- The body with one hole for all owners. -/
def Layout.hullBody (l : Layout) : List (Piece UInt8) :=
  l.frontPieces ++ (valuePieces l.ownersWidth ++ l.backPieces)

theorem width_owners (hn : 0 < l.ownerSlots) :
    Template.width (valuePieces l.ownersWidth) = Template.width l.slotPieces := by
  obtain ⟨m, hm⟩ : ∃ m, l.ownerSlots = m + 1 := ⟨l.ownerSlots - 1, by omega⟩
  rw [Layout.slotPieces, width_slotPieces, Layout.ownersWidth, hm, Nat.succ_mul,
    Nat.add_sub_cancel]
  simp only [valuePieces, width_cons, width_nil, Piece.width, length_utf8_quote]
  omega

theorem width_hullBody (hn : 0 < l.ownerSlots) :
    Template.width l.hullBody = Template.width l.bodyPieces := by
  simp only [Layout.hullBody, Layout.bodyPieces, width_append, width_owners hn]

/-- The marked parts are the same. -/
theorem marks_hull (hn : 0 < l.ownerSlots) :
    marks (responsePieces l.statusLine l.contentType l.hullBody) 0 = marks l.pieces 0 := by
  have hvalue (s : ℕ) : marks (valuePieces l.ownersWidth) s = [] := rfl
  rw [Layout.pieces, responsePieces, responsePieces, width_hullBody hn]
  simp only [Layout.hullBody, Layout.bodyPieces, marks_append, marks_slotPieces, hvalue,
    width_owners hn]

theorem holes_hull (hn : 0 < l.ownerSlots) (h : l.Fits v) : ∃ rest,
    (holes (responsePieces l.statusLine l.contentType l.hullBody) 0).map Range.ofSpan =
      [(l.rangesOf v).account, (l.rangesOf v).propertyId, (l.rangesOf v).owners] ++ rest := by
  have hwidth := (width_hullBody hn).trans (width_bodyPieces h)
  rw [holes_responsePieces hwidth, Layout.hullBody, holes_append, holes_append, List.map_append,
    List.map_append, holes_frontPieces h, width_frontPieces h, Nat.zero_add]
  refine ⟨((holes l.backPieces (v.toOwners.length + Template.width (valuePieces l.ownersWidth))).map
    Range.ofSpan).map (·.shift (l.head v).2.2.length), ?_⟩
  have hvalue (s : ℕ) : holes (valuePieces l.ownersWidth) s = [⟨s + 1, l.ownersWidth⟩] := by
    simp only [valuePieces, holes, length_utf8_quote]
  rw [hvalue, List.map_append, List.map_append]
  simp only [List.map_cons, List.map_nil, List.cons_append, List.nil_append, Layout.rangesOf,
    Layout.head, Range.ofSpan, Range.shift, Layout.ownersWidth, List.cons.injEq, Range.mk.injEq,
    and_true, true_and]
  omega

end

/-! ## The record response -/

section

variable {l : RecordLayout} (hp : (utf8 l.padding).length = 1)

include hp

/-- What is written for a field. -/
theorem writeField_eq {out out' : (List Range × List Range) × Writer}
    {item : (RecordField × String) × ℕ} (h : l.writeField out item = .ok out') :
    let ps := RecordLayout.fieldPieces item.1.1 item.2
    let value := padded l.paddingByte item.1.2 item.1.1.width
    Fits ps [value] ∧ out' = ((out.1.1 ++ (marks ps out.2.length).map Range.ofSpan,
      out.1.2 ++ (holes ps out.2.length).map Range.ofSpan), out.2 ++ fill ps [value]) := by
  simp only [RecordLayout.writeField, bind_eq_ok, RecordLayout.pad_eq_ok hp, Except.ok.injEq] at h
  obtain ⟨s, ⟨hpadable, hs⟩, rfl⟩ := h
  have hlen : (padded l.paddingByte item.1.2 item.1.1.width).length = item.1.1.width :=
    length_padded hpadable.2.2.2
  refine ⟨fits_commaPieces.mpr (fits_valuePieces.mpr hlen), ?_⟩
  by_cases hfirst : 0 < item.2
  · simp [RecordLayout.fieldPieces, commaPieces, hfirst, keyPiece, valuePieces, marks, holes, fill,
      Writer.lit_eq, Writer.key_eq, Writer.string_eq, Range.ofSpan, quoted, hs, hlen,
      length_utf8_quote, Nat.add_assoc]
  · simp [RecordLayout.fieldPieces, commaPieces, hfirst, keyPiece, valuePieces, marks, holes, fill,
      Writer.key_eq, Writer.string_eq, Range.ofSpan, quoted, hs, hlen, length_utf8_quote,
      Nat.add_assoc]

/-- What the loop over the fields writes. -/
theorem foldlM_writeField_eq {items : List ((RecordField × String) × ℕ)}
    {out out' : (List Range × List Range) × Writer}
    (h : items.foldlM l.writeField out = .ok out') :
    let ps := items.flatMap fun item => RecordLayout.fieldPieces item.1.1 item.2
    let vs := items.map fun item => padded l.paddingByte item.1.2 item.1.1.width
    Fits ps vs ∧ out' = ((out.1.1 ++ (marks ps out.2.length).map Range.ofSpan,
      out.1.2 ++ (holes ps out.2.length).map Range.ofSpan), out.2 ++ fill ps vs) := by
  induction items generalizing out with
  | nil =>
    simp only [List.foldlM_nil, pure, Except.pure, Except.ok.injEq] at h
    subst h
    simp [marks, holes, fill]
  | cons item items ih =>
    rw [List.foldlM_cons, bind_eq_ok] at h
    obtain ⟨next, hnext, hrest⟩ := h
    obtain ⟨hfits, hnext⟩ := writeField_eq hp hnext
    obtain ⟨hfits', hout⟩ := ih hrest
    refine ⟨hfits.append hfits', ?_⟩
    simp only [hout, hnext, List.flatMap_cons, marks_append, holes_append, List.map_append,
      List.length_append, length_fill hfits, List.append_assoc, List.map_cons]
    exact congrArg (fun text => (_, out.2 ++ text)) (fill_append hfits).symm

omit hp in
/-- The fields with their positions, without the values. -/
theorem flatMap_fieldPieces {values : List String} (h : values.length = l.fields.length) :
    ((l.fields.zip values).zipIdx.flatMap fun item => RecordLayout.fieldPieces item.1.1 item.2) =
      l.fieldsPieces := by
  have hfields : (l.fields.zip values).map Prod.fst = l.fields :=
    List.map_fst_zip (Nat.le_of_eq h.symm)
  rw [RecordLayout.fieldsPieces, ← hfields, List.zipIdx_map, List.flatMap_map]
  simp only [hfields]
  rfl

omit hp in
theorem map_zipIdx_fst {α β : Type} (f : α → β) (xs : List α) :
    xs.zipIdx.map (fun item => f item.1) = xs.map f := by
  have h := congrArg (List.map f) (List.zipIdx_map_fst 0 xs)
  rwa [List.map_map] at h

omit hp in
/-- What is written before the fields. -/
theorem fill_recordFront (l : RecordLayout) (value : Bytes) : fill l.frontPieces [value] =
    utf8 "\x7b" ++ keyText KEY_ACCOUNT ++ quoted value ++ utf8 "," ++ keyText KEY_RECORD ++
      utf8 "\x7b" := by
  simp [RecordLayout.frontPieces, keyPiece, valuePieces, fill, quoted]

omit hp in
theorem fits_recordFront {value : Bytes} :
    Fits l.frontPieces [value] ↔ value.length = l.accountWidth := by
  simp [Fits, RecordLayout.frontPieces, keyPiece, valuePieces, widths]

omit hp in
theorem marks_recordFront {value : Bytes} (h : value.length = l.accountWidth) :
    (marks l.frontPieces 0).map Range.ofSpan =
      [⟨(utf8 "\x7b").length, (utf8 "\x7b").length + (keyText KEY_ACCOUNT).length⟩,
        ⟨(utf8 "\x7b" ++ keyText KEY_ACCOUNT ++ quoted value ++ utf8 ",").length,
          (utf8 "\x7b" ++ keyText KEY_ACCOUNT ++ quoted value ++ utf8 ",").length +
            (keyText KEY_RECORD).length⟩] := by
  simp only [RecordLayout.frontPieces, keyPiece, valuePieces, List.cons_append, List.nil_append,
    marks, List.map_cons, List.map_nil, Range.ofSpan, List.length_append, length_quoted, h,
    length_utf8_quote, List.cons.injEq, Range.mk.injEq, and_true]
  omega

omit hp in
theorem holes_recordFront : (holes l.frontPieces 0).map Range.ofSpan =
    [⟨(utf8 "\x7b" ++ keyText KEY_ACCOUNT).length + 1,
      (utf8 "\x7b" ++ keyText KEY_ACCOUNT).length + 1 + l.accountWidth⟩] := by
  simp only [RecordLayout.frontPieces, keyPiece, valuePieces, List.cons_append, List.nil_append,
    holes, List.map_cons, List.map_nil, Range.ofSpan, List.length_append, length_utf8_quote,
    List.cons.injEq, Range.mk.injEq, and_true]
  omega

omit hp in
/-- The marked texts of a record response. -/
theorem markedTexts_recordPieces : markedTexts l.pieces =
    [utf8 l.statusLine, utf8 ("Content-Type: " ++ l.contentType)] ++
    (keyText KEY_ACCOUNT :: keyText KEY_RECORD :: l.fields.map fun field => keyText field.key) := by
  have hone (field : RecordField) (i : ℕ) :
      markedTexts (RecordLayout.fieldPieces field i) = [keyText field.key] := by
    unfold RecordLayout.fieldPieces commaPieces
    split_ifs <;> rfl
  have hfields : markedTexts l.fieldsPieces = l.fields.map fun field => keyText field.key := by
    rw [RecordLayout.fieldsPieces, ← map_zipIdx_fst]
    induction l.fields.zipIdx with
    | nil => rfl
    | cons item items ih =>
      rw [List.flatMap_cons, markedTexts_append, hone, ih, List.map_cons, List.singleton_append]
  rw [RecordLayout.pieces, responsePieces, RecordLayout.bodyPieces, markedTexts_append,
    markedTexts_append, markedTexts_append, hfields]
  simp only [markedTexts, List.append_nil]
  rfl

/-- A record response fills the template of its layout, and reports its marked parts and its
holes. -/
theorem renderRecord_eq {account : String} {values : List String} {r : RenderedRecord}
    (h : l.renderResponse account values = .ok r) :
    Fits l.pieces (l.written account values) ∧ r.bytes = fill l.pieces (l.written account values) ∧
    r.ranges.len = r.bytes.length ∧ r.ranges.revealed = (marks l.pieces 0).map Range.ofSpan ∧
    r.ranges.hidden = (holes l.pieces 0).map Range.ofSpan := by
  simp only [RecordLayout.renderResponse, bind_eq_ok, ensure_eq_ok,
    RecordLayout.pad_eq_ok hp, Except.ok.injEq] at h
  obtain ⟨_, hlen, s, ⟨hpadable, hs⟩, out, hout, rfl⟩ := h
  obtain ⟨hfits, rfl⟩ := foldlM_writeField_eq hp hout
  have ha : (padded l.paddingByte account l.accountWidth).length = l.accountWidth :=
    length_padded hpadable.2.2.2
  have hvalues := map_zipIdx_fst (fun item : RecordField × String =>
    padded l.paddingByte item.2 item.1.width) (l.fields.zip values)
  rw [flatMap_fieldPieces hlen, hvalues] at hfits
  -- the body, from its three parts
  have hfront := fits_recordFront.mpr ha
  have hend : Fits [.text (utf8 "\x7d\x7d")] ([] : List Bytes) := rfl
  have hbody : Fits l.bodyPieces (l.written account values ++ []) :=
    hfront.append (hfits.append hend)
  have hfill : fill l.bodyPieces (l.written account values ++ []) =
      fill l.frontPieces [padded l.paddingByte account l.accountWidth] ++
      fill l.fieldsPieces ((l.fields.zip values).map fun item =>
        padded l.paddingByte item.2 item.1.width) ++ utf8 "\x7d\x7d" := by
    refine (fill_append hfront).trans ?_
    rw [List.append_assoc]
    exact congrArg _ (fill_append hfits)
  rw [List.append_nil] at hbody hfill
  have hwidth := length_fill hbody
  simp only [Writer.lit_eq, Writer.key_eq, Writer.string_eq, hs, List.nil_append,
    flatMap_fieldPieces hlen, hvalues, ← fill_recordFront l, ← hfill, length_fill hfront]
  refine ⟨fits_responsePieces.mpr hbody, (fill_responsePieces hbody).symm,
    List.length_append.symm, ?_, ?_⟩
  · rw [RecordLayout.pieces, marks_responsePieces hwidth.symm, RecordLayout.bodyPieces, marks_append,
      marks_append, List.map_append, List.map_append, marks_recordFront ha, Nat.zero_add]
    simp only [marks, List.append_nil]
    rfl
  · rw [RecordLayout.pieces, holes_responsePieces hwidth.symm, RecordLayout.bodyPieces, holes_append,
      holes_append, List.map_append, List.map_append, holes_recordFront, Nat.zero_add, ha]
    simp only [holes, List.append_nil]
    rfl

end

end Pprev
