import Mathlib.Data.List.Forall2
import Pprev.Offchain.Rendering

/-!
# Fixed-layout single-record responses

The module `record.rs`: the responses of the sources of Apply and Settle, of which the layout fixes
every byte range. A rendered response shows the padded values at the ranges it reports.
-/

namespace Pprev

open Evm Slice

structure RecordField where
  key : String
  width : ℕ
  deriving DecidableEq

structure RecordLayout where
  id : String
  serverName : String
  /-- Request target prefix; the target is the prefix followed by the record's subject. -/
  pathPrefix : String
  statusLine : String
  contentType : String
  /-- Single ASCII character that pads every value to its width. -/
  padding : String
  accountWidth : ℕ
  /-- The record's fields, in the order they appear. -/
  fields : List RecordField

/-- Why a layout, a value or a record is refused. -/
inductive RecordLayoutError where
  /-- padding must be one ASCII character -/
  | padding
  /-- accountWidth must be positive -/
  | accountWidth
  /-- a record has at least one field -/
  | noFields
  /-- the field has width 0 -/
  | width (key : String)
  /-- the field key is not a plain identifier -/
  | key (key : String)
  /-- the field key is reserved -/
  | reserved (key : String)
  /-- the field appears twice -/
  | twice (key : String)
  /-- the value cannot be padded -/
  | value (e : LayoutError)
  /-- the layout has no such field -/
  | noField (id key : String)
  /-- the values are not as many as the fields -/
  | values (values fields : ℕ) (id : String)
  /-- the field is wider than 32 bytes -/
  | wide (key : String)
  deriving DecidableEq

structure RecordRanges where
  len : ℕ
  statusLine : Range
  contentTypeLine : Range
  keys : List Range
  /-- Value of `account`: the identifier of the logged-in account. -/
  account : Range
  /-- Value of each field, in layout order. -/
  fields : List Range
  deriving DecidableEq

structure RenderedRecord where
  bytes : Bytes
  ranges : RecordRanges
  deriving DecidableEq

def isAsciiAlphanumeric (b : UInt8) : Bool :=
  (48 ≤ b && b ≤ 57) || (65 ≤ b && b ≤ 90) || (97 ≤ b && b ≤ 122)

namespace RecordRanges

/-- Ranges the presentation reveals: status line, Content-Type line, JSON keys. -/
def revealed (r : RecordRanges) : List Range := [r.statusLine, r.contentTypeLine] ++ r.keys

/-- Ranges committed with a hash and never opened: the account, then every field. -/
def hidden (r : RecordRanges) : List Range := [r.account] ++ r.fields

end RecordRanges

namespace RecordLayout

/-- Checks field `i`. -/
def validateField (l : RecordLayout) (field : RecordField) (i : ℕ) :
    Except RecordLayoutError Unit := do
  ensure (0 < field.width) (.width field.key)
  ensure (utf8 field.key ≠ [] ∧ (utf8 field.key).all fun b => isAsciiAlphanumeric b || b == 95)
    (.key field.key)
  ensure (field.key ≠ KEY_ACCOUNT ∧ field.key ≠ KEY_RECORD) (.reserved field.key)
  ensure (∀ f ∈ l.fields.take i, f.key ≠ field.key) (.twice field.key)

def validate (l : RecordLayout) : Except RecordLayoutError Unit := do
  ensure ((utf8 l.padding).length = 1 ∧ isAscii l.padding) .padding
  ensure (0 < l.accountWidth) .accountWidth
  ensure (l.fields ≠ []) .noFields
  l.fields.zipIdx.forM fun item => l.validateField item.1 item.2

def paddingByte (l : RecordLayout) : UInt8 := (utf8 l.padding).headD 0

/-- Request target for a subject. -/
def path (l : RecordLayout) (subject : String) : String := l.pathPrefix ++ subject

/-- First line of the notarised request, without CRLF. -/
def requestLine (l : RecordLayout) (subject : String) : String :=
  "GET " ++ l.path subject ++ " HTTP/1.1"

def pad (l : RecordLayout) (value : String) (width : ℕ) : Except RecordLayoutError String :=
  (padValue l.padding value width).mapError .value

/-- Position of the field `key`. -/
def indexOf (l : RecordLayout) (key : String) : Except RecordLayoutError ℕ :=
  match l.fields.findIdx? (·.key = key) with
  | some i => .ok i
  | none => .error (.noField l.id key)

def widthOf (l : RecordLayout) (key : String) : Except RecordLayoutError ℕ := do
  let i ← l.indexOf key
  .ok (l.fields.getD i ⟨"", 0⟩).width

/-- Writes a field and its value; between two fields there is a comma. -/
def writeField (l : RecordLayout) (out : (List Range × List Range) × Writer)
    (item : (RecordField × String) × ℕ) :
    Except RecordLayoutError ((List Range × List Range) × Writer) := do
  let body := if 0 < item.2 then (out.2.lit ",").2 else out.2
  let (key, body) := body.key item.1.1.key
  let (range, body) := body.string (← l.pad item.1.2 item.1.1.width)
  .ok ((out.1.1 ++ [key], out.1.2 ++ [range]), body)

/-- The full HTTP response for an account viewing a record with values, one for each field in layout
order, with the byte range of every part. -/
def renderResponse (l : RecordLayout) (account : String) (values : List String) :
    Except RecordLayoutError RenderedRecord := do
  ensure (values.length = l.fields.length) (.values values.length l.fields.length l.id)
  let body : Writer := []
  let body := (body.lit "\x7b").2
  let (keyAccount, body) := body.key KEY_ACCOUNT
  let (account, body) := body.string (← l.pad account l.accountWidth)
  let body := (body.lit ",").2
  let (keyRecord, body) := body.key KEY_RECORD
  let body := (body.lit "\x7b").2
  let ((keys, fields), body) ←
    (l.fields.zip values).zipIdx.foldlM l.writeField (([keyAccount, keyRecord], []), body)
  let body := (body.lit "\x7d\x7d").2
  let (statusLine, contentTypeLine, head) := responseHead l.statusLine l.contentType body.length
  let shift := head.length
  .ok {
    bytes := head ++ body
    ranges := {
      len := head.length + body.length
      statusLine := statusLine
      contentTypeLine := contentTypeLine
      keys := keys.map (·.shift shift)
      account := account.shift shift
      fields := fields.map (·.shift shift) } }

/-- The response for an empty record: the reference for the revealed ranges. -/
def template (l : RecordLayout) : Except RecordLayoutError RenderedRecord :=
  l.renderResponse "" (List.replicate l.fields.length "")

/-- Byte ranges of the response for any record. -/
def ranges (l : RecordLayout) : Except RecordLayoutError RecordRanges := do
  .ok (← l.template).ranges

/-- A field value as the response carries it, followed by zero bytes up to 32 bytes. -/
def word (l : RecordLayout) (key value : String) : Except RecordLayoutError Bytes := do
  let width ← l.widthOf key
  ensure (width ≤ 32) (.wide key)
  let value ← l.pad value width
  .ok (utf8 value ++ List.replicate (32 - (utf8 value).length) 0)

end RecordLayout

/-- What is asked of field `i`. -/
structure RecordLayout.FieldValid (l : RecordLayout) (field : RecordField) (i : ℕ) : Prop where
  width : 0 < field.width
  key : utf8 field.key ≠ [] ∧ ((utf8 field.key).all fun b => isAsciiAlphanumeric b || b == 95)
  reserved : field.key ≠ KEY_ACCOUNT ∧ field.key ≠ KEY_RECORD
  once : ∀ f ∈ l.fields.take i, f.key ≠ field.key

theorem validateField_eq_ok {l : RecordLayout} {field : RecordField} {i : ℕ} {u : Unit} :
    l.validateField field i = .ok u ↔ l.FieldValid field i := by
  simp only [RecordLayout.validateField, bind_eq_ok, ensure_eq_ok]
  exact ⟨fun ⟨_, hwidth, _, hkey, _, hreserved, honce⟩ => ⟨hwidth, hkey, hreserved, honce⟩,
    fun h => ⟨(), h.width, (), h.key, (), h.reserved, h.once⟩⟩

theorem recordValidate_eq_ok {l : RecordLayout} : l.validate = .ok () ↔
    ((utf8 l.padding).length = 1 ∧ isAscii l.padding) ∧ 0 < l.accountWidth ∧ l.fields ≠ [] ∧
      ∀ item ∈ l.fields.zipIdx, l.FieldValid item.1 item.2 := by
  simp only [RecordLayout.validate, bind_eq_ok, ensure_eq_ok, forM_eq_ok, validateField_eq_ok]
  exact ⟨fun ⟨_, hpadding, _, haccount, _, hfields, hall⟩ => ⟨hpadding, haccount, hfields, hall⟩,
    fun ⟨hpadding, haccount, hfields, hall⟩ => ⟨(), hpadding, (), haccount, (), hfields, hall⟩⟩

/-- The part of a response at a range. -/
def RenderedRecord.part (r : RenderedRecord) (range : Range) : Bytes :=
  slice r.bytes range.start range.len

/-! ## What a range shows -/

/-- The bytes of a text at a range. -/
def Range.Shows (range : Range) (text value : Bytes) : Prop :=
  range.start + range.len ≤ text.length ∧ slice text range.start range.len = value

namespace Range.Shows

variable {range : Range} {text value : Bytes}

theorem append (h : range.Shows text value) (more : Bytes) : range.Shows (text ++ more) value := by
  refine ⟨?_, by rw [slice_append_left h.1, h.2]⟩
  have := h.1
  rw [List.length_append]
  omega

theorem shift (h : range.Shows text value) (head : Bytes) :
    (range.shift head.length).Shows (head ++ text) value := by
  have hlen : (range.shift head.length).len = range.len := by
    simp only [Range.shift, Range.len]
    omega
  have hstart : (range.shift head.length).start = head.length + range.start := Nat.add_comm _ _
  refine ⟨?_, by rw [hlen, hstart, slice_append_right, h.2]⟩
  have := h.1
  rw [List.length_append, hlen, hstart]
  omega

end Range.Shows

theorem shows_string (w : Writer) (value : String) :
    (w.string value).1.Shows (w.string value).2 (utf8 value) := by
  rw [Writer.string_eq]
  refine ⟨?_, ?_⟩
  · simp only [Range.len, List.length_append, length_quoted]
    omega
  · have hquoted : w ++ quoted (utf8 value) = w ++ (quoted (utf8 value) ++ []) := by
      rw [List.append_nil]
    rw [Range.len, Nat.add_sub_cancel_left]
    exact slice_quoted hquoted

theorem isPrefix_lit (w : Writer) (s : String) : w <+: (w.lit s).2 := List.prefix_append _ _

theorem isPrefix_string (w : Writer) (value : String) : w <+: (w.string value).2 := by
  rw [Writer.string_eq]
  exact List.prefix_append _ _

theorem Range.Shows.of_isPrefix {range : Range} {text text' value : Bytes}
    (h : range.Shows text value) (hstart : text <+: text') : range.Shows text' value := by
  obtain ⟨more, rfl⟩ := hstart
  exact h.append more

theorem exists_getElem?_of_forall₂ {α β : Type} {R : α → β → Prop} {l : List α} {m : List β}
    (h : List.Forall₂ R l m) {i : ℕ} {b : β} (hb : m[i]? = some b) :
    ∃ a, l[i]? = some a ∧ R a b := by
  induction h generalizing i with
  | nil => simp at hb
  | @cons a _ _ _ hab _ ih =>
    cases i with
    | zero =>
      obtain rfl : _ = b := by simpa using hb
      exact ⟨a, rfl, hab⟩
    | succ i => exact ih (by simpa using hb)

/-! ## Rendering -/

section

variable {l : RecordLayout} (hp : (utf8 l.padding).length = 1)

include hp

theorem RecordLayout.pad_eq_ok {value s : String} {width : ℕ} :
    l.pad value width = .ok s ↔
      Padable value width ∧ utf8 s = padded l.paddingByte value width := by
  rw [RecordLayout.paddingByte, ← padValue_eq_ok hp, RecordLayout.pad]
  cases padValue l.padding value width <;> simp [Except.mapError]

theorem RecordLayout.exists_pad {value : String} {width : ℕ} (h : Padable value width) :
    ∃ s, l.pad value width = .ok s := by
  obtain ⟨s, hs⟩ := exists_padValue hp h
  exact ⟨s, (RecordLayout.pad_eq_ok hp).mpr ((padValue_eq_ok hp).mp hs)⟩

theorem writeField_eq_ok {out out' : (List Range × List Range) × Writer}
    {item : (RecordField × String) × ℕ} (h : l.writeField out item = .ok out') :
    Padable item.1.2 item.1.1.width ∧ out.2 <+: out'.2 ∧ ∃ range,
      out'.1.2 = out.1.2 ++ [range] ∧
      range.Shows out'.2 (padded l.paddingByte item.1.2 item.1.1.width) := by
  simp only [RecordLayout.writeField, bind_eq_ok, RecordLayout.pad_eq_ok hp, Except.ok.injEq] at h
  obtain ⟨s, ⟨hpadable, hs⟩, rfl⟩ := h
  refine ⟨hpadable, ?_, _, rfl, ?_⟩
  · refine List.IsPrefix.trans ?_ ((isPrefix_lit _ _).trans (isPrefix_string _ _))
    split_ifs
    · exact isPrefix_lit _ _
    · exact List.prefix_rfl
  · rw [← hs]
    exact shows_string _ _

/-- What the loop over the fields writes. -/
theorem foldlM_writeField {items : List ((RecordField × String) × ℕ)}
    {out out' : (List Range × List Range) × Writer}
    (h : items.foldlM l.writeField out = .ok out') :
    out.2 <+: out'.2 ∧ ∃ ranges, out'.1.2 = out.1.2 ++ ranges ∧
      List.Forall₂ (fun range item => Padable item.1.2 item.1.1.width ∧
        range.Shows out'.2 (padded l.paddingByte item.1.2 item.1.1.width)) ranges items := by
  induction items generalizing out with
  | nil =>
    simp only [List.foldlM_nil, pure, Except.pure, Except.ok.injEq] at h
    subst h
    exact ⟨List.prefix_rfl, [], by simp, .nil⟩
  | cons item items ih =>
    rw [List.foldlM_cons, bind_eq_ok] at h
    obtain ⟨next, hnext, hrest⟩ := h
    obtain ⟨hpadable, hstart, range, hrange, hshows⟩ := writeField_eq_ok hp hnext
    obtain ⟨hstart', ranges, hranges, hall⟩ := ih hrest
    refine ⟨hstart.trans hstart', range :: ranges, ?_, .cons ⟨hpadable, ?_⟩ hall⟩
    · rw [hranges, hrange, List.append_assoc, List.singleton_append]
    · exact hshows.of_isPrefix hstart'

theorem exists_foldlM_writeField {items : List ((RecordField × String) × ℕ)}
    (h : ∀ item ∈ items, Padable item.1.2 item.1.1.width)
    (out : (List Range × List Range) × Writer) : ∃ out', items.foldlM l.writeField out = .ok out' := by
  induction items generalizing out with
  | nil => exact ⟨out, rfl⟩
  | cons item items ih =>
    rw [List.forall_mem_cons] at h
    obtain ⟨s, hs⟩ := RecordLayout.exists_pad hp h.1
    rw [List.foldlM_cons]
    simp only [RecordLayout.writeField, hs, bind, Except.bind]
    exact ih h.2 _

/-- A rendered response shows the padded account and the padded value of each field. -/
theorem renderResponse_shows {account : String} {values : List String} {r : RenderedRecord}
    (h : l.renderResponse account values = .ok r) :
    (Padable account l.accountWidth ∧
      r.ranges.account.Shows r.bytes (padded l.paddingByte account l.accountWidth)) ∧
    values.length = l.fields.length ∧
    List.Forall₂ (fun range item => Padable item.1.2 item.1.1.width ∧
      range.Shows r.bytes (padded l.paddingByte item.1.2 item.1.1.width)) r.ranges.fields
      (l.fields.zip values).zipIdx := by
  simp only [RecordLayout.renderResponse, bind_eq_ok, ensure_eq_ok,
    RecordLayout.pad_eq_ok hp, Except.ok.injEq] at h
  obtain ⟨_, hlen, s, ⟨hpadable, hs⟩, out, hout, rfl⟩ := h
  obtain ⟨hstart, ranges, hranges, hall⟩ := foldlM_writeField hp hout
  refine ⟨⟨hpadable, ?_⟩, hlen, ?_⟩
  · refine Range.Shows.shift ?_ _
    have hfields := hstart.trans (isPrefix_lit out.2 "\x7d\x7d")
    rw [← hs]
    refine Range.Shows.of_isPrefix (shows_string _ s) (.trans ?_ hfields)
    exact ((isPrefix_lit _ _).trans (isPrefix_lit _ _)).trans (isPrefix_lit _ _)
  · rw [hranges, List.nil_append, List.forall₂_map_left_iff]
    exact hall.imp fun range item hitem =>
      ⟨hitem.1, (hitem.2.of_isPrefix (isPrefix_lit _ _)).shift _⟩

/-- The response of values that can be padded. -/
theorem exists_renderRecord {account : String} {values : List String}
    (haccount : Padable account l.accountWidth) (hlen : values.length = l.fields.length)
    (hvalues : ∀ item ∈ l.fields.zip values, Padable item.2 item.1.width) :
    ∃ r, l.renderResponse account values = .ok r := by
  obtain ⟨s, hs⟩ := RecordLayout.exists_pad hp haccount
  have hitems : ∀ item ∈ (l.fields.zip values).zipIdx, Padable item.1.2 item.1.1.width :=
    fun item hitem => hvalues _ (List.fst_mem_of_mem_zipIdx hitem)
  simp only [RecordLayout.renderResponse, ensure, if_pos hlen, hs, bind, Except.bind]
  obtain ⟨out, hout⟩ := exists_foldlM_writeField hp hitems _
  rw [hout]
  exact ⟨_, rfl⟩

/-- The padded value of a field, at its range. -/
theorem shows_field {account : String} {values : List String} {r : RenderedRecord}
    (h : l.renderResponse account values = .ok r) {i : ℕ} {field : RecordField} {value : String}
    (hfield : l.fields[i]? = some field) (hvalue : values[i]? = some value) :
    Padable value field.width ∧ ∃ range, r.ranges.fields[i]? = some range ∧
      range.Shows r.bytes (padded l.paddingByte value field.width) := by
  obtain ⟨-, hlen, hall⟩ := renderResponse_shows hp h
  have hitem : ((l.fields.zip values).zipIdx)[i]? = some ((field, value), i) := by
    rw [List.getElem?_zipIdx, (List.getElem?_zip_eq_some (z := (field, value))).mpr ⟨hfield, hvalue⟩]
    simp
  obtain ⟨range, hrange, hpadable, hshows⟩ := exists_getElem?_of_forall₂ hall hitem
  exact ⟨hpadable, range, hrange, hshows⟩

end

end Pprev
