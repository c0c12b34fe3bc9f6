import Mathlib.Data.Finset.Basic
import Mathlib.Order.Interval.Finset.Nat
import Pprev.Notary.Presentation
import Pprev.Offchain.Ownership
import Pprev.Offchain.Pieces

/-!
# Places of the values

Two responses of one layout differ in the padded values alone, and the ranges that the renderers
report show these values. The ranges that stay hidden are apart from each other and from what is
revealed, so the commitments that are expected of a presentation are different ones.
-/

namespace Pprev

open Evm Slice Template

def Range.Contains (r : Range) (i : ℕ) : Prop := r.start ≤ i ∧ i < r.stop

/-- No byte lies in both. -/
def Range.Disjoint (r s : Range) : Prop := r.stop ≤ s.start ∨ s.stop ≤ r.start

/-- The part of a response at a range. -/
def Range.part (r : Range) (bytes : Bytes) : Bytes := slice bytes r.start r.len

/-- Where a layout puts the values of a response. -/
def Layout.valueRanges (l : Layout) : List Range := (holes l.pieces 0).map Range.ofSpan

def RecordLayout.valueRanges (l : RecordLayout) : List Range := (holes l.pieces 0).map Range.ofSpan

/-- The padded values of a title response, in the order they are written. -/
def Layout.written (l : Layout) (account : String) (record : TitleRecord) : List Bytes :=
  (l.values account record).written l.ownerSlots

/-! ## Filled templates -/

/-- A response that fills a template, with the ranges of its marked parts and of its holes. -/
structure Filled (ps : List (Piece UInt8)) (vs : List Bytes) (bytes : Bytes)
    (revealed values : List Range) : Prop where
  fits : Fits ps vs
  bytes : bytes = fill ps vs
  revealed : revealed = (marks ps 0).map Range.ofSpan
  values : values = (holes ps 0).map Range.ofSpan

namespace Filled

variable {ps : List (Piece UInt8)} {vs us : List Bytes} {bytes bytes' : Bytes}
  {revealed values revealed' values' : List Range}

theorem length (h : Filled ps vs bytes revealed values) : bytes.length = Template.width ps := by
  rw [h.bytes, length_fill h.fits]

theorem part_ofSpan (bytes : Bytes) (s : Span) : (Range.ofSpan s).part bytes = s.of bytes := by
  rw [Range.part, Range.len_ofSpan]
  rfl

/-- The ranges of the values show them. -/
theorem map_values (h : Filled ps vs bytes revealed values) :
    values.map (fun range => range.part bytes) = vs := by
  rw [h.values, List.map_map, h.bytes]
  exact (List.map_congr_left fun s _ => part_ofSpan _ s).trans (map_holes h.fits [])

theorem map_revealed (h : Filled ps vs bytes revealed values) :
    revealed.map (fun range => range.part bytes) = markedTexts ps := by
  rw [h.revealed, List.map_map, h.bytes]
  exact (List.map_congr_left fun s _ => part_ofSpan _ s).trans (map_marks h.fits [])

theorem within_ranges (ps : List (Piece UInt8)) :
    ∀ range ∈ (marks ps 0).map Range.ofSpan ++ (holes ps 0).map Range.ofSpan,
      range.start ≤ range.stop ∧ range.stop ≤ Template.width ps := by
  have hspan : ∀ s : Span, s.Within 0 (0 + Template.width ps) →
      (Range.ofSpan s).start ≤ (Range.ofSpan s).stop ∧
        (Range.ofSpan s).stop ≤ Template.width ps := by
    intro s hs
    refine ⟨Nat.le_add_right _ _, ?_⟩
    rw [← Nat.zero_add (Template.width ps)]
    exact hs.2
  intro range hrange
  rw [← List.map_append] at hrange
  obtain ⟨s, hs, rfl⟩ := List.mem_map.mp hrange
  rcases List.mem_append.mp hs with hs | hs
  · exact hspan s (marks_within 0 s hs)
  · exact hspan s (holes_within 0 s hs)

theorem disjoint_ranges (ps : List (Piece UInt8)) :
    ((marks ps 0).map Range.ofSpan ++ (holes ps 0).map Range.ofSpan).Pairwise Range.Disjoint := by
  rw [← List.map_append]
  exact (pairwise_disjoint 0).map _ fun _ _ hst => hst

theorem within (h : Filled ps vs bytes revealed values) :
    ∀ range ∈ revealed ++ values, range.start ≤ range.stop ∧ range.stop ≤ bytes.length := by
  rw [h.length, h.revealed, h.values]
  exact within_ranges ps

theorem disjoint (h : Filled ps vs bytes revealed values) :
    (revealed ++ values).Pairwise Range.Disjoint := by
  rw [h.revealed, h.values]
  exact disjoint_ranges ps

/-- What is revealed comes in order. -/
theorem increasing (h : Filled ps vs bytes revealed values) :
    revealed.Pairwise fun r r' => r.stop ≤ r'.start := by
  rw [h.revealed]
  exact (pairwise_marks 0).map _ fun _ _ hst => hst

/-- Values that are not empty have ranges that are not. -/
theorem start_lt_stop (h : Filled ps vs bytes revealed values) (hvs : ∀ v ∈ vs, v ≠ []) :
    ∀ range ∈ values, range.start < range.stop := by
  intro range hrange
  have hpart : range.part bytes ∈ vs := by
    rw [← h.map_values]
    exact List.mem_map_of_mem hrange
  by_contra hle
  refine hvs _ hpart ?_
  rw [Range.part, Range.len, Nat.sub_eq_zero_of_le (Nat.le_of_not_lt hle), slice, List.take_zero]

/-- Responses from one template differ in the values alone. -/
theorem agree (h : Filled ps vs bytes revealed values)
    (h' : Filled ps us bytes' revealed' values') {i : ℕ}
    (hi : ∀ range ∈ values, ¬range.Contains i) : bytes[i]? = bytes'[i]? := by
  rw [h.bytes, h'.bytes]
  have hspans : ∀ span ∈ holes ps 0, ¬span.Contains (0 + i) := fun span hspan => by
    rw [Nat.zero_add]
    exact hi _ (h.values ▸ List.mem_map_of_mem hspan)
  exact getElem?_fill h.fits h'.fits hspans

theorem part_eq (h : Filled ps vs bytes revealed values)
    (h' : Filled ps us bytes' revealed' values') {range : Range} (hrange : range ∈ revealed) :
    range.part bytes = range.part bytes' := by
  have hmap := h.map_revealed.trans h'.map_revealed.symm
  rw [h'.revealed, ← h.revealed] at hmap
  exact List.map_inj_left.mp hmap range hrange

theorem eq_of_bytes_eq (h : Filled ps vs bytes revealed values)
    (h' : Filled ps us bytes' revealed' values') (heq : bytes = bytes') : vs = us :=
  fill_inj h.fits h'.fits (by rw [← h.bytes, ← h'.bytes, heq])

end Filled

/-! ## The responses of the layouts -/

theorem Layout.filled {l : Layout} (hl : l.validate = .ok ()) {account : String}
    {record : TitleRecord} {r : Rendered} (h : l.renderResponse account record = .ok r) :
    Filled l.pieces (l.written account record) r.bytes r.ranges.revealed l.valueRanges := by
  obtain ⟨hren, rfl⟩ := (renderResponse_eq_ok hl).mp h
  exact ⟨fits_pieces hren.fits, (fill_pieces hren.fits).symm, (marks_pieces hren.fits).symm, rfl⟩

theorem RecordLayout.filled {l : RecordLayout} (hl : l.validate = .ok ()) {account : String}
    {values : List String} {r : RenderedRecord} (h : l.renderResponse account values = .ok r) :
    Filled l.pieces (l.written account values) r.bytes r.ranges.revealed r.ranges.hidden := by
  obtain ⟨hfits, hbytes, -, hrevealed, hhidden⟩ :=
    renderRecord_eq (recordValidate_eq_ok.mp hl).1.1 h
  exact ⟨hfits, hbytes, hrevealed, hhidden⟩

theorem RecordLayout.valueRanges_eq {l : RecordLayout} (hl : l.validate = .ok ()) {account : String}
    {values : List String} {r : RenderedRecord} (h : l.renderResponse account values = .ok r) :
    l.valueRanges = r.ranges.hidden := (RecordLayout.filled hl h).values.symm

/-- Two responses of a layout have the same ranges. -/
theorem Layout.ranges_eq_ranges {l : Layout} (hl : l.validate = .ok ()) {account account' : String}
    {record record' : TitleRecord} {r r' : Rendered} (h : l.renderResponse account record = .ok r)
    (h' : l.renderResponse account' record' = .ok r') : r.ranges = r'.ranges := by
  obtain ⟨hren, rfl⟩ := (renderResponse_eq_ok hl).mp h
  obtain ⟨hren', rfl⟩ := (renderResponse_eq_ok hl).mp h'
  exact rangesOf_eq hren.fits hren'.fits

theorem RecordLayout.ranges_eq_ranges {l : RecordLayout} (hl : l.validate = .ok ())
    {account account' : String} {values values' : List String} {r r' : RenderedRecord}
    (h : l.renderResponse account values = .ok r)
    (h' : l.renderResponse account' values' = .ok r') : r.ranges = r'.ranges := by
  have hp := (recordValidate_eq_ok.mp hl).1.1
  obtain ⟨hfits, hbytes, hlen, hrevealed, hhidden⟩ := renderRecord_eq hp h
  obtain ⟨hfits', hbytes', hlen', hrevealed', hhidden'⟩ := renderRecord_eq hp h'
  rw [hbytes, length_fill hfits, ← length_fill hfits', ← hbytes', ← hlen'] at hlen
  rw [← hrevealed'] at hrevealed
  rw [← hhidden'] at hhidden
  revert hlen hrevealed hhidden
  obtain ⟨len, statusLine, contentTypeLine, keys, account, fields⟩ := r.ranges
  obtain ⟨len', statusLine', contentTypeLine', keys', account', fields'⟩ := r'.ranges
  simp only [RecordRanges.revealed, RecordRanges.hidden, List.cons_append, List.nil_append,
    List.cons.injEq, RecordRanges.mk.injEq]
  rintro rfl ⟨rfl, rfl, rfl⟩ ⟨rfl, rfl⟩
  exact ⟨rfl, rfl, rfl, rfl, rfl, rfl⟩

theorem Layout.exists_template {l : Layout} (hl : l.validate = .ok ()) :
    ∃ t, l.template = .ok t := by
  obtain ⟨v, -, ht⟩ := template_eq hl
  exact ⟨_, ht⟩

theorem RecordLayout.exists_template {l : RecordLayout} (hl : l.validate = .ok ()) :
    ∃ t, l.template = .ok t := by
  refine exists_renderRecord (recordValidate_eq_ok.mp hl).1.1 (padable_empty _)
    List.length_replicate fun item hitem => ?_
  obtain ⟨-, hvalue⟩ := List.of_mem_zip hitem
  rw [List.eq_of_mem_replicate hvalue]
  exact padable_empty _

/-- **Responses differ in the values alone.** Any two responses of a layout have the same length and
the same ranges, and agree at every byte that is not one of a padded value; what they reveal is what
the response of an empty record reveals. -/
theorem rendering_independent :
    (∀ l : Layout, l.validate = .ok () → ∀ account record r account' record' r',
      l.renderResponse account record = .ok r → l.renderResponse account' record' = .ok r' →
      r.bytes.length = r'.bytes.length ∧ r.ranges = r'.ranges ∧
      l.valueRanges.map (fun range => range.part r.bytes) = l.written account record ∧
      (∀ i, (∀ range ∈ l.valueRanges, ¬range.Contains i) → r.bytes[i]? = r'.bytes[i]?) ∧
      ∃ t, l.template = .ok t ∧ t.ranges = r.ranges ∧
        ∀ range ∈ r.ranges.revealed, range.stop ≤ r.bytes.length ∧
          range.part r.bytes = range.part t.bytes) ∧
    ∀ l : RecordLayout, l.validate = .ok () → ∀ account values r account' values' r',
      l.renderResponse account values = .ok r → l.renderResponse account' values' = .ok r' →
      r.bytes.length = r'.bytes.length ∧ r.ranges = r'.ranges ∧
      l.valueRanges.map (fun range => range.part r.bytes) = l.written account values ∧
      (∀ i, (∀ range ∈ l.valueRanges, ¬range.Contains i) → r.bytes[i]? = r'.bytes[i]?) ∧
      ∃ t, l.template = .ok t ∧ t.ranges = r.ranges ∧
        ∀ range ∈ r.ranges.revealed, range.stop ≤ r.bytes.length ∧
          range.part r.bytes = range.part t.bytes := by
  refine ⟨fun l hl account record r account' record' r' h h' => ?_,
    fun l hl account values r account' values' r' h h' => ?_⟩
  · obtain ⟨t, ht⟩ := Layout.exists_template hl
    have hr := Layout.filled hl h
    have hr' := Layout.filled hl h'
    refine ⟨hr.length.trans hr'.length.symm, Layout.ranges_eq_ranges hl h h', hr.map_values,
      fun i hi => hr.agree hr' hi, t, ht, Layout.ranges_eq_ranges hl ht h, fun range hrange => ?_⟩
    exact ⟨(hr.within range (List.mem_append_left _ hrange)).2,
      hr.part_eq (Layout.filled hl ht) hrange⟩
  · obtain ⟨t, ht⟩ := RecordLayout.exists_template hl
    have hr := RecordLayout.filled hl h
    have hr' := RecordLayout.filled hl h'
    rw [RecordLayout.valueRanges_eq hl h]
    refine ⟨hr.length.trans hr'.length.symm, RecordLayout.ranges_eq_ranges hl h h', hr.map_values,
      fun i hi => hr.agree hr' hi, t, ht, RecordLayout.ranges_eq_ranges hl ht h,
      fun range hrange => ?_⟩
    exact ⟨(hr.within range (List.mem_append_left _ hrange)).2,
      hr.part_eq (RecordLayout.filled hl ht) hrange⟩

namespace Vectors

theorem titleLayout_valid : titleLayout.validate = .ok () := validate_eq_ok.mpr (by decide +kernel)

theorem exists_title : ∃ r, titleLayout.renderResponse account titleRecord = .ok r :=
  exists_renderResponse titleLayout_valid ⟨by decide, by decide +kernel, by decide +kernel,
    by decide +kernel, by decide +kernel, by decide +kernel, by decide +kernel⟩

end Vectors

open Vectors in
theorem rendering_independent_title : ∃ r t, titleLayout.renderResponse account titleRecord = .ok r ∧
    titleLayout.template = .ok t ∧ r.ranges = t.ranges ∧ r.bytes.length = t.bytes.length := by
  obtain ⟨r, hr⟩ := exists_title
  obtain ⟨t, ht⟩ := Layout.exists_template titleLayout_valid
  obtain ⟨hlen, hranges, -⟩ :=
    rendering_independent.1 titleLayout titleLayout_valid _ _ r _ _ t hr ht
  exact ⟨r, t, hr, ht, hranges, hlen⟩

/-! ## The commitments of a presentation -/

inductive Direction where
  | sent
  | received
  deriving DecidableEq

/-- The bytes of a range. -/
def Range.set (r : Range) : Finset ℕ := Finset.Ico r.start r.stop

/-- The bytes of several ranges. -/
def rangeSet (ranges : List Range) : Finset ℕ := ranges.foldr (fun r s => r.set ∪ s) ∅

/-- The commitments that `check_shape` expects: to the request line, to what is revealed, and to
each hidden range. -/
def expectedCommitments (shape : ResponseShape) : List (Direction × Finset ℕ) :=
  [(.sent, Finset.Ico 0 (utf8 shape.requestLine).length), (.received, rangeSet shape.revealed)] ++
  shape.hidden.map fun r => (.received, r.set)

theorem Range.Disjoint.notMem {r s : Range} (h : r.Disjoint s) {i : ℕ} (hi : i ∈ r.set) :
    i ∉ s.set := by
  rw [Range.set, Finset.mem_Ico] at hi ⊢
  unfold Range.Disjoint at h
  omega

theorem mem_rangeSet {ranges : List Range} {i : ℕ} :
    i ∈ rangeSet ranges ↔ ∃ r ∈ ranges, i ∈ r.set := by
  induction ranges with
  | nil => simp [rangeSet]
  | cons r ranges ih =>
    simp only [List.mem_cons, exists_eq_or_imp, ← ih]
    exact Finset.mem_union

theorem Range.start_mem {r : Range} (h : r.start < r.stop) : r.start ∈ r.set :=
  Finset.left_mem_Ico.mpr h

/-- Ranges that are apart and not empty are different sets of bytes. -/
theorem Range.Disjoint.set_ne {r s : Range} (h : r.Disjoint s) (hr : r.start < r.stop) :
    r.set ≠ s.set := fun heq => h.notMem (Range.start_mem hr) (heq ▸ Range.start_mem hr)

theorem nodup_hidden {hidden : List Range} (hdisjoint : hidden.Pairwise Range.Disjoint)
    (hpos : ∀ r ∈ hidden, r.start < r.stop) : (hidden.map Range.set).Nodup := by
  refine List.pairwise_map.mpr ?_
  exact hdisjoint.imp_of_mem fun hr _ h => h.set_ne (hpos _ hr)

/-- No commitment is expected twice. -/
theorem nodup_expectedCommitments {shape : ResponseShape}
    (hdisjoint : (shape.revealed ++ shape.hidden).Pairwise Range.Disjoint)
    (hpos : ∀ r ∈ shape.hidden, r.start < r.stop) : (expectedCommitments shape).Nodup := by
  obtain ⟨-, hhidden, hacross⟩ := List.pairwise_append.mp hdisjoint
  have hsets := nodup_hidden hhidden hpos
  have hreceived : (shape.hidden.map fun r => (Direction.received, r.set)).Nodup := by
    have hmap : (shape.hidden.map fun r => (Direction.received, r.set)) =
        (shape.hidden.map Range.set).map (Prod.mk Direction.received) := by
      rw [List.map_map]
      rfl
    rw [hmap]
    exact hsets.map (Prod.mk_right_injective _)
  have hrevealed : (Direction.received, rangeSet shape.revealed) ∉
      shape.hidden.map fun r => (Direction.received, r.set) := by
    intro hmem
    obtain ⟨r, hr, heq⟩ := List.mem_map.mp hmem
    have hstart : r.start ∈ rangeSet shape.revealed := by
      rw [← (Prod.mk.inj heq).2]
      exact Range.start_mem (hpos r hr)
    obtain ⟨s, hs, hmem⟩ := mem_rangeSet.mp hstart
    exact (hacross s hs r hr).notMem hmem (Range.start_mem (hpos r hr))
  refine List.nodup_cons.mpr ⟨?_, List.nodup_cons.mpr ⟨hrevealed, hreceived⟩⟩
  simp

/-! ## The reported ranges -/

theorem padded_ne_nil {padding : UInt8} {value : String} {width : ℕ} (h : 0 < width) :
    padded padding value width ≠ [] := by
  refine List.ne_nil_of_length_pos ?_
  rw [padded, List.length_append, List.length_replicate]
  omega

/-- The keys, after the status line and the Content-Type line. -/
theorem map_keys {statusLine contentTypeLine : Range} {keys : List Range} {bytes : Bytes}
    {x y : Bytes} {texts : List Bytes}
    (h : ([statusLine, contentTypeLine] ++ keys).map (fun range => range.part bytes) =
      [x, y] ++ texts) : keys.map (fun range => range.part bytes) = texts :=
  (List.cons_eq_cons.mp (List.cons_eq_cons.mp h).2).2

section

variable {l : Layout} (hl : l.validate = .ok ()) {account : String} {record : TitleRecord}
  {r : Rendered} (h : l.renderResponse account record = .ok r)

include hl h

/-- The account, the identifier and every owner slot show their padded values. -/
theorem Layout.values_part :
    r.ranges.account.part r.bytes = padded l.paddingByte account l.accountWidth ∧
    r.ranges.propertyId.part r.bytes = padded l.paddingByte record.propertyId l.propertyIdWidth ∧
    r.ranges.ownerSlotOffsets.map
        (fun offset => slice r.bytes (r.ranges.owners.start + offset) l.accountWidth) =
      ((List.range l.ownerSlots).map fun i =>
        padded l.paddingByte (record.owners[i]?.getD "") l.accountWidth) ∧
    ∀ offset ∈ r.ranges.ownerSlotOffsets,
      r.ranges.owners.start + offset + l.accountWidth ≤ r.ranges.owners.stop := by
  have hmap := (Layout.filled hl h).map_values
  obtain ⟨hren, rfl⟩ := (renderResponse_eq_ok hl).mp h
  obtain ⟨rest, hholes⟩ := holes_pieces hren.fits
  rw [Layout.valueRanges, hholes, List.map_append, List.map_append, Layout.written,
    Values.written] at hmap
  obtain ⟨hfront, hback⟩ := List.append_inj hmap rfl
  have hlen : (l.rangesOf (l.values account record)).ownerSlotOffsets.length = l.ownerSlots := by
    simp [Layout.rangesOf]
  obtain ⟨hslots, -⟩ := List.append_inj hback (by simp [hlen])
  simp only [List.map_cons, List.map_nil, List.cons.injEq, and_true] at hfront
  refine ⟨hfront.1, hfront.2, ?_, fun offset hoffset => ?_⟩
  · rw [List.map_map] at hslots
    refine Eq.trans (List.map_congr_left fun offset _ => ?_) hslots
    rw [Function.comp_apply, Range.part, Range.len, Nat.add_sub_cancel_left]
    rfl
  · simp only [Layout.rendering, Layout.rangesOf, List.mem_map, List.mem_range] at hoffset ⊢
    obtain ⟨i, hi, rfl⟩ := hoffset
    have hle := Nat.mul_le_mul_right (l.accountWidth + 3) (show i ≤ l.ownerSlots - 1 by omega)
    omega

/-- What is revealed, the account, the identifier and the owners do not overlap, and end within the
response. -/
theorem Layout.apart :
    (r.ranges.revealed ++ r.ranges.hidden).Pairwise Range.Disjoint ∧
    (∀ range ∈ r.ranges.revealed ++ r.ranges.hidden,
      range.start ≤ range.stop ∧ range.stop ≤ r.bytes.length) ∧
    ∀ range ∈ r.ranges.hidden, range.start < range.stop := by
  have hlength := (Layout.filled hl h).length
  obtain ⟨-, hn, hw, hpw, -⟩ := validate_eq_ok.mp hl
  obtain ⟨hren, rfl⟩ := (renderResponse_eq_ok hl).mp h
  obtain ⟨rest, hholes⟩ := holes_hull hn hren.fits
  have hmarks := (congrArg (List.map Range.ofSpan) (marks_hull hn)).trans (marks_pieces hren.fits)
  have hdisjoint := Filled.disjoint_ranges (responsePieces l.statusLine l.contentType l.hullBody)
  have hwithin := Filled.within_ranges (responsePieces l.statusLine l.contentType l.hullBody)
  have hwidth : Template.width (responsePieces l.statusLine l.contentType l.hullBody) =
      Template.width l.pieces := by
    rw [Layout.pieces, responsePieces, responsePieces, width_append, width_append,
      width_hullBody hn]
  rw [hmarks, hholes, ← List.append_assoc] at hdisjoint hwithin
  -- the identifier comes before the owners
  have hperm : ((l.rangesOf (l.values account record)).revealed ++
        [(l.rangesOf (l.values account record)).account,
          (l.rangesOf (l.values account record)).propertyId,
          (l.rangesOf (l.values account record)).owners]).Perm
      ((l.rangesOf (l.values account record)).revealed ++
        (l.rangesOf (l.values account record)).hidden) :=
    .append_left _ (.cons _ (.swap _ _ _))
  refine ⟨(hperm.pairwise_iff Or.symm).mp (List.pairwise_append.mp hdisjoint).1,
    fun range hrange => ?_, ?_⟩
  · rw [hlength, ← hwidth]
    exact hwithin range (List.mem_append_left _ (hperm.mem_iff.mpr hrange))
  · simp only [Layout.rendering, ResponseRanges.hidden, Layout.rangesOf, Range.shift,
      List.forall_mem_cons]
    refine ⟨by omega, by omega, by omega, by simp⟩

end

theorem Layout.shape_eq_ok {l : Layout} {propertyId : String} {shape : ResponseShape}
    (h : l.shape propertyId = .ok shape) : ∃ t, l.template = .ok t ∧
      shape.revealed = t.ranges.revealed ∧ shape.hidden = t.ranges.hidden := by
  obtain ⟨t, ht, hshape⟩ := bind_eq_ok.mp h
  cases hshape
  exact ⟨t, ht, rfl, rfl⟩

theorem RecordLayout.shape_eq_ok {l : RecordLayout} {subject : String} {shape : ResponseShape}
    (h : l.shape subject = .ok shape) : ∃ t, l.template = .ok t ∧
      shape.revealed = t.ranges.revealed ∧ shape.hidden = t.ranges.hidden := by
  obtain ⟨t, ht, hshape⟩ := bind_eq_ok.mp h
  cases hshape
  exact ⟨t, ht, rfl, rfl⟩

section

variable {l : RecordLayout} (hl : l.validate = .ok ()) {account : String} {values : List String}
  {r : RenderedRecord} (h : l.renderResponse account values = .ok r)

include hl h

theorem RecordLayout.apart :
    (r.ranges.revealed ++ r.ranges.hidden).Pairwise Range.Disjoint ∧
    (∀ range ∈ r.ranges.revealed ++ r.ranges.hidden,
      range.start ≤ range.stop ∧ range.stop ≤ r.bytes.length) ∧
    ∀ range ∈ r.ranges.hidden, range.start < range.stop := by
  have hr := RecordLayout.filled hl h
  refine ⟨hr.disjoint, hr.within, hr.start_lt_stop ?_⟩
  obtain ⟨-, haccount, -, hfields⟩ := recordValidate_eq_ok.mp hl
  refine List.forall_mem_cons.mpr ⟨padded_ne_nil haccount, fun v hv => ?_⟩
  obtain ⟨⟨field, value⟩, hitem, rfl⟩ := List.mem_map.mp hv
  obtain ⟨hfield, -⟩ := List.of_mem_zip hitem
  obtain ⟨i, hi⟩ := List.mem_iff_getElem?.mp hfield
  exact padded_ne_nil (hfields (field, i) (List.mem_zipIdx_iff_getElem?.mpr hi)).width

end

/-- **The ranges decode what was rendered.** All ranges of a response lie within it and show the
padded values and the keys; what is revealed and what is hidden do not overlap, the hidden ranges
are not empty and different, and no commitment is expected twice. Equal responses show equal
values. -/
theorem ranges_decode :
    (∀ l : Layout, l.validate = .ok () → ∀ account record r,
      l.renderResponse account record = .ok r →
      r.ranges.len = r.bytes.length ∧
      (∀ range ∈ r.ranges.revealed ++ r.ranges.hidden,
        range.start ≤ range.stop ∧ range.stop ≤ r.bytes.length) ∧
      r.ranges.account.part r.bytes = padded l.paddingByte account l.accountWidth ∧
      r.ranges.propertyId.part r.bytes = padded l.paddingByte record.propertyId l.propertyIdWidth ∧
      r.ranges.ownerSlotOffsets.map
          (fun offset => slice r.bytes (r.ranges.owners.start + offset) l.accountWidth) =
        ((List.range l.ownerSlots).map fun i =>
          padded l.paddingByte (record.owners[i]?.getD "") l.accountWidth) ∧
      (∀ offset ∈ r.ranges.ownerSlotOffsets,
        r.ranges.owners.start + offset + l.accountWidth ≤ r.ranges.owners.stop) ∧
      r.ranges.keys.map (fun range => range.part r.bytes) =
        [KEY_ACCOUNT, KEY_RECORD, KEY_PROPERTY_ID, KEY_OWNERS, KEY_ENCUMBRANCE, KEY_ASSESSED_VALUE,
          KEY_RECORD_DATE].map keyText ∧
      (r.ranges.revealed ++ r.ranges.hidden).Pairwise Range.Disjoint ∧
      (∀ range ∈ r.ranges.hidden, range.start < range.stop) ∧ r.ranges.hidden.Nodup ∧
      (∀ propertyId shape, l.shape propertyId = .ok shape → (expectedCommitments shape).Nodup) ∧
      ∀ account' record' r', l.renderResponse account' record' = .ok r' → r.bytes = r'.bytes →
        l.written account record = l.written account' record') ∧
    ∀ l : RecordLayout, l.validate = .ok () → ∀ account values r,
      l.renderResponse account values = .ok r →
      r.ranges.len = r.bytes.length ∧
      (∀ range ∈ r.ranges.revealed ++ r.ranges.hidden,
        range.start ≤ range.stop ∧ range.stop ≤ r.bytes.length) ∧
      r.ranges.account.part r.bytes = padded l.paddingByte account l.accountWidth ∧
      r.ranges.fields.map (fun range => range.part r.bytes) =
        (l.fields.zip values).map (fun item => padded l.paddingByte item.2 item.1.width) ∧
      r.ranges.keys.map (fun range => range.part r.bytes) =
        keyText KEY_ACCOUNT :: keyText KEY_RECORD :: l.fields.map (fun field => keyText field.key) ∧
      (r.ranges.revealed ++ r.ranges.hidden).Pairwise Range.Disjoint ∧
      (∀ range ∈ r.ranges.hidden, range.start < range.stop) ∧ r.ranges.hidden.Nodup ∧
      (∀ subject shape, l.shape subject = .ok shape → (expectedCommitments shape).Nodup) ∧
      ∀ account' values' r', l.renderResponse account' values' = .ok r' → r.bytes = r'.bytes →
        l.written account values = l.written account' values' := by
  have hnodup : ∀ {revealed hidden : List Range},
      (revealed ++ hidden).Pairwise Range.Disjoint → (∀ range ∈ hidden, range.start < range.stop) →
      hidden.Nodup := fun hdisjoint hpos =>
    .of_map _ (nodup_hidden (List.pairwise_append.mp hdisjoint).2.1 hpos)
  refine ⟨fun l hl account record r h => ?_, fun l hl account values r h => ?_⟩
  · have hr := Layout.filled hl h
    obtain ⟨haccount, hproperty, hslots, howners⟩ := Layout.values_part hl h
    obtain ⟨hdisjoint, hwithin, hpos⟩ := Layout.apart hl h
    refine ⟨?_, hwithin, haccount, hproperty, hslots, howners,
      map_keys (hr.map_revealed.trans markedTexts_pieces), hdisjoint, hpos, hnodup hdisjoint hpos,
      fun propertyId shape hshape => ?_, fun account' record' r' h' heq =>
        hr.eq_of_bytes_eq (Layout.filled hl h') heq⟩
    · obtain ⟨-, rfl⟩ := (renderResponse_eq_ok hl).mp h
      exact List.length_append.symm
    · obtain ⟨t, ht, hrevealed, hhidden⟩ := Layout.shape_eq_ok hshape
      obtain ⟨hdisjoint, -, hpos⟩ := Layout.apart hl ht
      rw [← hrevealed, ← hhidden] at hdisjoint
      rw [← hhidden] at hpos
      exact nodup_expectedCommitments hdisjoint hpos
  · have hr := RecordLayout.filled hl h
    have hvalues := List.cons_eq_cons.mp hr.map_values
    obtain ⟨hdisjoint, hwithin, hpos⟩ := RecordLayout.apart hl h
    refine ⟨(renderRecord_eq (recordValidate_eq_ok.mp hl).1.1 h).2.2.1, hwithin, hvalues.1,
      hvalues.2, map_keys (hr.map_revealed.trans markedTexts_recordPieces), hdisjoint, hpos,
      hnodup hdisjoint hpos, fun subject shape hshape => ?_, fun account' values' r' h' heq =>
        hr.eq_of_bytes_eq (RecordLayout.filled hl h') heq⟩
    obtain ⟨t, ht, hrevealed, hhidden⟩ := RecordLayout.shape_eq_ok hshape
    obtain ⟨hdisjoint, -, hpos⟩ := RecordLayout.apart hl ht
    rw [← hrevealed, ← hhidden] at hdisjoint
    rw [← hhidden] at hpos
    exact nodup_expectedCommitments hdisjoint hpos

open Vectors in
theorem ranges_decode_title : ∃ r shape, titleLayout.renderResponse account titleRecord = .ok r ∧
    r.ranges.account.part r.bytes = utf8 account ∧
    titleLayout.shape titleRecord.propertyId = .ok shape ∧ (expectedCommitments shape).Nodup := by
  obtain ⟨r, hr⟩ := exists_title
  obtain ⟨t, ht⟩ := Layout.exists_template titleLayout_valid
  obtain ⟨shape, hshape⟩ : ∃ shape, titleLayout.shape titleRecord.propertyId = .ok shape :=
    ⟨_, bind_eq_ok.mpr ⟨t, ht, rfl⟩⟩
  obtain ⟨-, -, haccount, -, -, -, -, -, -, -, hnodup, -⟩ :=
    ranges_decode.1 titleLayout titleLayout_valid account titleRecord r hr
  refine ⟨r, shape, hr, haccount.trans ?_, hshape, hnodup _ shape hshape⟩
  decide +kernel

end Pprev
