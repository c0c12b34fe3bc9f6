import Pprev.Data.Json
import Pprev.Offchain.Pieces
import Pprev.Offchain.PublicInputs
import Pprev.Registry.Request

/-!
# Responses of the registry

What a client makes of a rendered response: the head ends at the first empty line and announces the
length of the body, and the body is a JSON document. The padding character is not checked against
what JSON allows in a string.
-/

namespace Pprev

open Evm Slice Template

namespace Http

/-! ## Heads -/

/-- A line with one byte more at its front. -/
def consByte (b : UInt8) : List Bytes → List Bytes
  | [] => [[b]]
  | line :: lines => (b :: line) :: lines

/-- The parts of a head between its CRLFs. -/
def lines : Bytes → List Bytes
  | [] => [[]]
  | 13 :: 10 :: l => [] :: lines l
  | b :: l => consByte b (lines l)

/-- The name and the value of a field line, around its first colon. -/
def field (line : Bytes) : Option (Bytes × Bytes) :=
  match line.dropWhile (· ≠ 58) with
  | [] => none
  | _ :: value => some (line.takeWhile (· ≠ 58), value)

def lower (b : UInt8) : UInt8 := if 65 ≤ b ∧ b ≤ 90 then b + 32 else b

def isBlank (b : UInt8) : Bool := b = 32 || b = 9

/-- A value without the white space around it. -/
def trimmed (value : Bytes) : Bytes :=
  ((value.dropWhile isBlank).reverse.dropWhile isBlank).reverse

/-- The value of a Content-Length line. -/
def contentLength (line : Bytes) : Option Bytes :=
  (field line).bind fun f =>
    if f.1.map lower = utf8 "content-length" then some (trimmed f.2) else none

/-- A head announces a body of `n` bytes: it has one Content-Length, which is `n` in decimal. -/
def Announces (head : Bytes) (n : ℕ) : Prop :=
  ∃ digits, (lines head).tail.filterMap contentLength = [digits] ∧ digits ≠ [] ∧
    IsDecimal digits ∧ decimalValue digits = n

theorem lines_append {line : Bytes} (h : 10 ∉ line) (l : Bytes) :
    lines (line ++ 13 :: 10 :: l) = line :: lines l := by
  induction line with
  | nil => rfl
  | cons b line ih =>
    simp only [List.mem_cons, not_or] at h
    have hcons : lines (b :: (line ++ 13 :: 10 :: l)) =
        consByte b (lines (line ++ 13 :: 10 :: l)) := by
      rw [lines]
      rintro l' rfl heq
      cases line with
      | nil => simp at heq
      | cons c line =>
        obtain ⟨rfl, -⟩ := List.cons_eq_cons.mp heq
        simp at h
    rw [List.cons_append, hcons, ih h.2, consByte]

theorem field_append {name : Bytes} (h : 58 ∉ name) (value : Bytes) :
    field (name ++ 58 :: value) = some (name, value) := by
  have hname : ∀ b ∈ name, decide (b ≠ 58) = true :=
    fun b hb => decide_eq_true fun heq => h (heq ▸ hb)
  have hdrop : (name ++ 58 :: value).dropWhile (· ≠ 58) = 58 :: value := by
    rw [List.dropWhile_append_of_pos hname]
    rfl
  have htake : (name ++ 58 :: value).takeWhile (· ≠ 58) = name := by
    rw [List.takeWhile_append_of_pos hname]
    simp
  rw [field, hdrop, htake]

theorem trimmed_of_digits {digits : Bytes} (h : IsDecimal digits) :
    trimmed (32 :: digits) = digits := by
  have hblank : ∀ l : Bytes, IsDecimal l → l.dropWhile isBlank = l := by
    intro l hl
    cases l with
    | nil => rfl
    | cons b l =>
      have hb := (hl b (by simp)).1
      have hnot : isBlank b = false := by
        by_contra hb'
        simp only [isBlank, Bool.not_eq_false, Bool.or_eq_true, decide_eq_true_eq] at hb'
        rcases hb' with rfl | rfl <;> simp at hb
      rw [List.dropWhile_cons, hnot]
      rfl
  have hfirst : (32 :: digits).dropWhile isBlank = digits.dropWhile isBlank := rfl
  rw [trimmed, hfirst, hblank _ h, hblank, List.reverse_reverse]
  exact fun b hb => h b (List.mem_reverse.mp hb)

theorem lines_line {line : Bytes} (h : 10 ∉ line) : lines line = [line] := by
  induction line with
  | nil => rfl
  | cons b line ih =>
    simp only [List.mem_cons, not_or] at h
    have hcons : lines (b :: line) = consByte b (lines line) := by
      rw [lines]
      rintro l' rfl rfl
      simp at h
    rw [hcons, ih h.2, consByte]

end Http

/-! ## The first empty line -/

namespace Registry

theorem headEnd_line {line : Bytes} (h : 10 ∉ line) (l : Bytes) :
    headEnd (line ++ 13 :: l) = (headEnd (13 :: l)).map (· + line.length) := by
  induction line with
  | nil => cases hl : headEnd (13 :: l) <;> simp [hl]
  | cons b line ih =>
    simp only [List.mem_cons, not_or] at h
    have htake : ¬(b :: (line ++ 13 :: l)).take 4 = [13, 10, 13, 10] := by
      cases line with
      | nil => simp
      | cons c line =>
        intro heq
        simp only [List.cons_append, List.take_succ_cons, List.cons.injEq] at heq
        simp [heq.2.1] at h
    rw [List.cons_append, headEnd_cons, if_neg htake, ih h.2, Option.map_map]
    rfl

/-- Past a line break that no other one follows. -/
theorem headEnd_break {b : UInt8} (h : b ≠ 13) (l : Bytes) :
    headEnd (13 :: 10 :: b :: l) = (headEnd (b :: l)).map (· + 2) := by
  have hfirst : ¬(13 :: 10 :: b :: l).take 4 = [13, 10, 13, 10] := by simp [h]
  have hsecond : ¬(10 :: b :: l).take 4 = [13, 10, 13, 10] := by simp
  rw [headEnd_cons, if_neg hfirst, headEnd_cons, if_neg hsecond, Option.map_map]
  rfl

theorem headEnd_end (l : Bytes) : headEnd (13 :: 10 :: 13 :: 10 :: l) = some 0 := by
  rw [headEnd_cons]
  exact if_pos rfl

/-- A line that another one follows. -/
theorem headEnd_next {line l : Bytes} (h : 10 ∉ line) {b : UInt8} (hl : l.head? = some b)
    (hb : b ≠ 13) : headEnd (line ++ 13 :: 10 :: l) = (headEnd l).map (· + (line.length + 2)) := by
  cases l with
  | nil => cases hl
  | cons c l =>
    obtain rfl : c = b := Option.some.inj hl
    rw [headEnd_line h, headEnd_break hb, Option.map_map]
    refine congrArg (fun f => Option.map f _) (funext fun i => ?_)
    simp only [Function.comp_apply]
    omega

end Registry

/-! ## The head of a response -/

section

variable {statusLine contentType : String} (n : ℕ)

/-- The head without the empty line at its end. -/
def headLines (statusLine contentType : String) (n : ℕ) : Bytes :=
  utf8 statusLine ++ 13 :: 10 :: (utf8 "Content-Type: " ++ utf8 contentType ++ 13 :: 10 ::
    (utf8 "Content-Length: " ++ utf8 (toString n) ++ 13 :: 10 :: utf8 "Connection: close"))

theorem responseHead_eq : (responseHead statusLine contentType n).2.2 =
    headLines statusLine contentType n ++ [13, 10, 13, 10] := by
  have hbreak : utf8 "\r\n" = [13, 10] := by decide
  have hclose : utf8 "Connection: close\r\n\r\n" =
      utf8 "Connection: close" ++ [13, 10, 13, 10] := by decide
  simp only [responseHead, Writer.lit, headLines, utf8_append, hbreak, hclose, List.nil_append,
    List.append_assoc, List.cons_append]

theorem notMem_contentType (h : 10 ∉ utf8 contentType) :
    10 ∉ utf8 "Content-Type: " ++ utf8 contentType := by
  rw [List.mem_append, not_or]
  exact ⟨by decide, h⟩

theorem notMem_contentLength : 10 ∉ utf8 "Content-Length: " ++ utf8 (toString n) := by
  rw [List.mem_append, not_or]
  refine ⟨by decide, fun hmem => ?_⟩
  have := ((decimal_toString n).2.1 10 hmem).1
  simp at this

theorem notMem_close : 10 ∉ utf8 "Connection: close" := by decide

variable (hstatus : 10 ∉ utf8 statusLine) (htype : 10 ∉ utf8 contentType)

include hstatus htype

/-- The first empty line of a response is the end of its head. -/
theorem headEnd_response (body : Bytes) :
    Registry.headEnd ((responseHead statusLine contentType n).2.2 ++ body) =
      some (headLines statusLine contentType n).length := by
  have hne : (67 : UInt8) ≠ 13 := by decide
  have hshape : (responseHead statusLine contentType n).2.2 ++ body = utf8 statusLine ++ 13 :: 10 ::
      ((utf8 "Content-Type: " ++ utf8 contentType) ++ 13 :: 10 ::
        ((utf8 "Content-Length: " ++ utf8 (toString n)) ++ 13 :: 10 ::
          (utf8 "Connection: close" ++ 13 :: 10 :: 13 :: 10 :: body))) := by
    simp only [responseHead_eq, headLines, List.append_assoc, List.cons_append, List.nil_append]
  rw [hshape, Registry.headEnd_next hstatus (b := 67) rfl hne,
    Registry.headEnd_next (notMem_contentType htype) (b := 67) rfl hne,
    Registry.headEnd_next (notMem_contentLength n) (b := 67) rfl hne,
    Registry.headEnd_line notMem_close, Registry.headEnd_end]
  simp only [Option.map_some, Option.some.injEq, headLines, List.length_append, List.length_cons]
  omega

/-- The head announces the length it was written for. -/
theorem announces_response : Http.Announces (headLines statusLine contentType n) n := by
  obtain ⟨hne, hdecimal, hvalue⟩ := decimal_toString n
  refine ⟨utf8 (toString n), ?_, hne, hdecimal, hvalue⟩
  have hlines : Http.lines (headLines statusLine contentType n) =
      [utf8 statusLine, utf8 "Content-Type: " ++ utf8 contentType,
        utf8 "Content-Length: " ++ utf8 (toString n), utf8 "Connection: close"] := by
    rw [headLines, Http.lines_append hstatus, Http.lines_append (notMem_contentType htype),
      Http.lines_append (notMem_contentLength n), Http.lines_line notMem_close]
  have htypeField : Http.contentLength (utf8 "Content-Type: " ++ utf8 contentType) = none := by
    have hsplit : utf8 "Content-Type: " ++ utf8 contentType =
        utf8 "Content-Type" ++ 58 :: 32 :: utf8 contentType := rfl
    have hname : ¬(utf8 "Content-Type").map Http.lower = utf8 "content-length" := by decide
    rw [Http.contentLength, hsplit, Http.field_append (by decide), Option.bind_some, if_neg hname]
  have hlengthField : Http.contentLength (utf8 "Content-Length: " ++ utf8 (toString n)) =
      some (utf8 (toString n)) := by
    have hsplit : utf8 "Content-Length: " ++ utf8 (toString n) =
        utf8 "Content-Length" ++ 58 :: 32 :: utf8 (toString n) := rfl
    have hname : (utf8 "Content-Length").map Http.lower = utf8 "content-length" := by decide
    rw [Http.contentLength, hsplit, Http.field_append (by decide), Option.bind_some, if_pos hname,
      Http.trimmed_of_digits hdecimal]
  have hcloseField : Http.contentLength (utf8 "Connection: close") = none := by decide
  simp only [hlines, List.tail_cons, List.filterMap_cons, htypeField, hlengthField, hcloseField,
    List.filterMap_nil]

end

/-! ## The document -/

/-- The document that a title response is meant to carry. -/
def Layout.document (l : Layout) (account : String) (record : TitleRecord) : Json.Value :=
  let string (value : String) (width : ℕ) : Json.Value :=
    .string (padded l.paddingByte value width)
  .object [(utf8 KEY_ACCOUNT, string account l.accountWidth),
    (utf8 KEY_RECORD, .object [(utf8 KEY_PROPERTY_ID, string record.propertyId l.propertyIdWidth),
      (utf8 KEY_OWNERS, .array ((List.range l.ownerSlots).map fun i =>
        string (record.owners[i]?.getD "") l.accountWidth)),
      (utf8 KEY_ENCUMBRANCE, string record.encumbrance l.encumbranceWidth),
      (utf8 KEY_ASSESSED_VALUE, string record.assessedValue l.assessedValueWidth),
      (utf8 KEY_RECORD_DATE, string record.recordDate l.recordDateWidth)])]

def RecordLayout.document (l : RecordLayout) (account : String) (values : List String) :
    Json.Value :=
  .object [(utf8 KEY_ACCOUNT, .string (padded l.paddingByte account l.accountWidth)),
    (utf8 KEY_RECORD, .object ((l.fields.zip values).map fun item =>
      (utf8 item.1.key, .string (padded l.paddingByte item.2 item.1.width))))]

/-- What follows the first empty line has the announced length and is a JSON text of a document. -/
def Carries (response : Bytes) (document : Json.Value) : Prop :=
  ∃ (i : ℕ) (body : String), Registry.headEnd response = some i ∧
    utf8 body = response.drop (i + 4) ∧ Http.Announces (response.take i) (utf8 body).length ∧
    Json.parse body = some document

/-- A value of full width, or padding that stands for itself in a JSON string. -/
def Stands (padding : UInt8) (value : String) (width : ℕ) : Prop :=
  (utf8 value).length = width ∨ Json.Plain padding

theorem carries_response {statusLine contentType : String} (hstatus : 10 ∉ utf8 statusLine)
    (htype : 10 ∉ utf8 contentType) {body : String} {document : Json.Value} {p : Prop}
    (h : Json.Exact (Json.readValue (utf8 body).length) (utf8 body) document p) :
    Carries ((responseHead statusLine contentType (utf8 body).length).2.2 ++ utf8 body) document ↔
      p := by
  rw [← Json.parse_eq_some h]
  have hend := headEnd_response (utf8 body).length hstatus htype (utf8 body)
  have htake : ((responseHead statusLine contentType (utf8 body).length).2.2 ++ utf8 body).take
      (headLines statusLine contentType (utf8 body).length).length =
      headLines statusLine contentType (utf8 body).length := by
    rw [responseHead_eq, List.append_assoc, List.take_left]
  have hdrop : ((responseHead statusLine contentType (utf8 body).length).2.2 ++ utf8 body).drop
      ((headLines statusLine contentType (utf8 body).length).length + 4) = utf8 body := by
    rw [responseHead_eq, List.append_assoc, ← List.drop_drop, List.drop_left]
    rfl
  constructor
  · rintro ⟨i, text, hi, htext, -, hparse⟩
    obtain rfl := Option.some.inj (hend.symm.trans hi)
    rw [hdrop] at htext
    obtain rfl := utf8_injective htext
    exact hparse
  · intro hparse
    refine ⟨_, body, hend, hdrop.symm, ?_, hparse⟩
    rw [htake]
    exact announces_response _ hstatus htype

/-! ### Strings -/

theorem toList_of_isAscii {s : String} (h : isAscii s) :
    s.toList = (utf8 s).map fun b => Char.ofNat b.toNat := by
  have hs : asciiText (utf8 s) = s := utf8_injective (utf8_asciiText h)
  conv_lhs => rw [← hs]
  exact String.toList_ofList

/-- An accepted value stands for itself in a JSON string. -/
theorem plain_of_padable {value : String} {width : ℕ} (h : Padable value width) :
    ∀ b ∈ utf8 value, Json.Plain b := by
  obtain ⟨hascii, hquote, hcontrol, -⟩ := h
  have hchar : ∀ c, (c == '"' || c == '\\') = true → c ∉ value.toList :=
    fun c hc hmem => hquote (List.any_eq_true.mpr ⟨c, hmem, hc⟩)
  rw [toList_of_isAscii hascii] at hchar
  intro b hb
  refine ⟨?_, ?_, fun hlt => ?_⟩
  · rintro rfl
    exact hchar '"' rfl (List.mem_map_of_mem hb)
  · rintro rfl
    exact hchar '\\' rfl (List.mem_map_of_mem hb)
  · exact hcontrol (List.any_eq_true.mpr ⟨b, hb, by simp [isAsciiControl, hlt]⟩)

theorem keyText_eq (name : String) : keyText name = 34 :: utf8 name ++ [34, 58] := by
  have hquote : utf8 "\"" = [34] := by decide
  have hcolon : utf8 "\":" = [34, 58] := by decide
  rw [keyText, utf8_append, utf8_append, hquote, hcolon]
  rfl

theorem exact_padded {padding : UInt8} {value : String} {width d : ℕ} (h : Padable value width) :
    Json.Exact (Json.readValue (d + 1)) (quoted (padded padding value width))
      (.string (padded padding value width)) (Stands padding value width) := by
  have hlen := h.2.2.2
  refine (Json.exact_string (plain_of_padable h)).congr (or_congr_left ?_)
  omega

/-- A member of an object whose value is a padded one. -/
def stringEntry (key : String) (padding : UInt8) (value : String) (width : ℕ) : Json.Entry where
  key := utf8 key
  text := quoted (padded padding value width)
  value := .string (padded padding value width)
  holds := Stands padding value width

theorem member_eq {e : Json.Entry} {name : String} (h : e.key = utf8 name) :
    e.member = keyText name ++ e.text := by
  rw [Json.Entry.member, h, keyText_eq, List.append_assoc]
  rfl

/-! ### Texts -/

/-- Bytes that are the UTF-8 of a text. -/
def IsText (b : Bytes) : Prop := ∃ s, utf8 s = b

theorem IsText.utf8 (s : String) : IsText (utf8 s) := ⟨s, rfl⟩

theorem IsText.append {a b : Bytes} (ha : IsText a) (hb : IsText b) : IsText (a ++ b) := by
  obtain ⟨s, rfl⟩ := ha
  obtain ⟨t, rfl⟩ := hb
  exact ⟨s ++ t, utf8_append s t⟩

theorem IsText.quoted {value : Bytes} (h : IsText value) : IsText (quoted value) :=
  ((IsText.utf8 "\"").append h).append (.utf8 "\"")

theorem IsText.padded {padding value : String} {width : ℕ} (hp : (Pprev.utf8 padding).length = 1) :
    IsText (padded ((Pprev.utf8 padding).headD 0) value width) := ⟨_, utf8_pad hp⟩

theorem IsText.commas {xs : List Bytes} (h : ∀ x ∈ xs, IsText x) : IsText (Json.commas xs) := by
  have hcomma : Pprev.utf8 "," = [44] := by decide
  induction xs with
  | nil => exact .utf8 ""
  | cons x xs ih =>
    rw [List.forall_mem_cons] at h
    cases xs with
    | nil => exact h.1
    | cons y ys =>
      have htail := (IsText.utf8 ",").append (ih h.2)
      rw [hcomma] at htail
      exact h.1.append htail

/-- A list in brackets that are given by their texts. -/
theorem IsText.bracketed {xs : List Bytes} (h : ∀ x ∈ xs, IsText x) {first last : UInt8}
    (hfirst : IsText [first]) (hlast : IsText [last]) :
    IsText (first :: (Json.commas xs ++ [last])) :=
  hfirst.append ((IsText.commas h).append hlast)

theorem IsText.objectText {es : List Json.Entry}
    (h : ∀ e ∈ es, ∃ name, e.key = Pprev.utf8 name ∧ IsText e.text) : IsText (Json.objectText es) := by
  refine IsText.bracketed (fun x hx => ?_) ⟨"\x7b", by decide⟩ ⟨"\x7d", by decide⟩
  obtain ⟨e, he, rfl⟩ := List.mem_map.mp hx
  obtain ⟨name, hkey, htext⟩ := h e he
  rw [member_eq hkey]
  exact (IsText.utf8 _).append htext

/-- A padded value as a member of an object is one. -/
theorem isText_stringEntry {padding value : String} {width : ℕ} (hp : (utf8 padding).length = 1)
    (key : String) : ∃ name, (stringEntry key ((utf8 padding).headD 0) value width).key = utf8 name ∧
      IsText (stringEntry key ((utf8 padding).headD 0) value width).text :=
  ⟨key, rfl, (IsText.padded hp).quoted⟩

/-! ### The title -/

theorem slotsText_eq_commas (n : ℕ) (owners : ℕ → Bytes) :
    slotsText n owners = Json.commas ((List.range n).map fun i => quoted (owners i)) := by
  induction n with
  | zero => rfl
  | succ n ih =>
    have hcomma : utf8 "," = [44] := by decide
    rw [slotsText_succ, ih, List.range_succ, List.map_append, List.map_singleton,
      Json.commas_concat, List.length_map, List.length_range, hcomma]
    split_ifs <;> simp

namespace Layout

variable (l : Layout) (account : String) (record : TitleRecord)

/-- The owners as a member of the record. -/
def ownersEntry : Json.Entry where
  key := utf8 KEY_OWNERS
  text := 91 :: (Json.commas ((List.range l.ownerSlots).map fun i =>
    quoted (padded l.paddingByte (record.owners[i]?.getD "") l.accountWidth)) ++ [93])
  value := .array ((List.range l.ownerSlots).map fun i =>
    .string (padded l.paddingByte (record.owners[i]?.getD "") l.accountWidth))
  holds := ∀ i ∈ List.range l.ownerSlots,
    Stands l.paddingByte (record.owners[i]?.getD "") l.accountWidth

def recordEntries : List Json.Entry :=
  [stringEntry KEY_PROPERTY_ID l.paddingByte record.propertyId l.propertyIdWidth,
    l.ownersEntry record,
    stringEntry KEY_ENCUMBRANCE l.paddingByte record.encumbrance l.encumbranceWidth,
    stringEntry KEY_ASSESSED_VALUE l.paddingByte record.assessedValue l.assessedValueWidth,
    stringEntry KEY_RECORD_DATE l.paddingByte record.recordDate l.recordDateWidth]

def entries : List Json.Entry :=
  [stringEntry KEY_ACCOUNT l.paddingByte account l.accountWidth,
    { key := utf8 KEY_RECORD
      text := Json.objectText (l.recordEntries record)
      value := .object ((l.recordEntries record).map fun e => (e.key, e.value))
      holds := ∀ e ∈ l.recordEntries record, e.holds }]

variable {l account record}

/-- The body of a title response is the text of an object. -/
theorem body_eq_objectText :
    (l.values account record).body l.ownerSlots = Json.objectText (l.entries account record) := by
  have hcomma : utf8 "," = [44] := by decide
  have hopen : utf8 "\x7b" = [123] := by decide
  have hlist : utf8 "[" = [91] := by decide
  have hend : utf8 "]," = [93, 44] := by decide
  have hclose : utf8 "\x7d\x7d" = [125, 125] := by decide
  have hmember (key value : String) (width : ℕ) :
      (stringEntry key l.paddingByte value width).member =
        keyText key ++ quoted (padded l.paddingByte value width) := member_eq rfl
  have howners : (l.ownersEntry record).member = keyText KEY_OWNERS ++ (l.ownersEntry record).text :=
    member_eq rfl
  simp only [entries, recordEntries, Json.objectText, List.map_cons, List.map_nil, Json.commas,
    hmember, howners]
  rw [member_eq rfl]
  simp only [Values.body, Values.toDateKey, Values.toAssessedKey, Values.toEncumbranceKey,
    Values.toOwners, Values.toOwnersKey, Values.toPropertyId, Values.toPropertyKey,
    Values.toRecord, Values.toAccount, slotsText_eq_commas, hcomma, hopen, hlist, hend, hclose,
    values, ownersEntry, List.append_assoc, List.cons_append, List.nil_append]

theorem exact_recordEntries (hn : 0 < l.ownerSlots) (h : l.Renderable account record) (d : ℕ) :
    ∀ e ∈ l.recordEntries record, Json.Exact (Json.readValue (d + 2)) e.text e.value e.holds := by
  have howners : Json.Exact (Json.readValue (d + 2)) (l.ownersEntry record).text
      (l.ownersEntry record).value (l.ownersEntry record).holds := by
    refine Json.exact_array (Json.exact_list (by decide) (by decide) rfl (fun i hi => ?_) ?_
      fun _ _ => ⟨_, rfl⟩)
    · exact exact_padded (h.owners i (List.mem_range.mp hi))
    · simp only [ne_eq, List.range_eq_nil]
      omega
  simp only [recordEntries, List.forall_mem_cons, List.not_mem_nil, false_imp_iff, implies_true,
    and_true]
  exact ⟨exact_padded h.propertyId, howners, exact_padded h.encumbrance,
    exact_padded h.assessedValue, exact_padded h.recordDate⟩

theorem plain_keys : ∀ e ∈ l.recordEntries record, ∀ b ∈ e.key, Json.Plain b := by
  simp only [recordEntries, List.forall_mem_cons, List.not_mem_nil, false_imp_iff, implies_true,
    and_true, stringEntry, ownersEntry]
  exact ⟨by decide +kernel, by decide +kernel, by decide +kernel, by decide +kernel,
    by decide +kernel⟩

/-- The body of a title response is read as the document, provided that every string is. -/
theorem exact_document (hn : 0 < l.ownerSlots) (h : l.Renderable account record) (d : ℕ) :
    Json.Exact (Json.readValue (d + 4)) ((l.values account record).body l.ownerSlots)
      (l.document account record) (∀ e ∈ l.entries account record, e.holds) := by
  rw [body_eq_objectText]
  refine Json.exact_entries ?_ ?_ (by simp [entries])
  · simp only [entries, List.forall_mem_cons, List.not_mem_nil, false_imp_iff, implies_true,
      and_true, stringEntry]
    exact ⟨by decide +kernel, by decide +kernel⟩
  · simp only [entries, List.forall_mem_cons, List.not_mem_nil, false_imp_iff, implies_true,
      and_true]
    exact ⟨exact_padded h.account, Json.exact_entries plain_keys (exact_recordEntries hn h d)
      (by simp [recordEntries])⟩

/-- Every value has the width of its place. -/
structure Full (l : Layout) (account : String) (record : TitleRecord) : Prop where
  account : (utf8 account).length = l.accountWidth
  propertyId : (utf8 record.propertyId).length = l.propertyIdWidth
  owners : ∀ i < l.ownerSlots, (utf8 (record.owners[i]?.getD "")).length = l.accountWidth
  encumbrance : (utf8 record.encumbrance).length = l.encumbranceWidth
  assessedValue : (utf8 record.assessedValue).length = l.assessedValueWidth
  recordDate : (utf8 record.recordDate).length = l.recordDateWidth

theorem holds_iff : (∀ e ∈ l.entries account record, e.holds) ↔
    Json.Plain l.paddingByte ∨ l.Full account record := by
  simp only [entries, recordEntries, List.forall_mem_cons, List.not_mem_nil, false_imp_iff,
    implies_true, and_true, stringEntry, ownersEntry, Stands, List.mem_range]
  by_cases hplain : Json.Plain l.paddingByte
  · simp only [hplain, or_true, implies_true, and_self, true_or]
  · simp only [hplain, or_false, false_or]
    exact ⟨fun ⟨h1, h2, h3, h4, h5, h6⟩ => ⟨h1, h2, h3, h4, h5, h6⟩,
      fun ⟨h1, h2, h3, h4, h5, h6⟩ => ⟨h1, h2, h3, h4, h5, h6⟩⟩

theorem isText_body (hp : (utf8 l.padding).length = 1) :
    IsText ((l.values account record).body l.ownerSlots) := by
  have howners : IsText (l.ownersEntry record).text := by
    refine IsText.bracketed (fun x hx => ?_) ⟨"[", by decide⟩ ⟨"]", by decide⟩
    obtain ⟨i, -, rfl⟩ := List.mem_map.mp hx
    exact (IsText.padded hp).quoted
  have hrecord : IsText (Json.objectText (l.recordEntries record)) := by
    refine IsText.objectText ?_
    simp only [recordEntries, List.forall_mem_cons, List.not_mem_nil, false_imp_iff, implies_true,
      and_true]
    exact ⟨isText_stringEntry hp _, ⟨_, rfl, howners⟩, isText_stringEntry hp _,
      isText_stringEntry hp _, isText_stringEntry hp _⟩
  rw [body_eq_objectText]
  refine IsText.objectText ?_
  simp only [entries, List.forall_mem_cons, List.not_mem_nil, false_imp_iff, implies_true,
    and_true]
  exact ⟨isText_stringEntry hp _, ⟨_, rfl, hrecord⟩⟩

/-- A title response carries its document exactly if no padding disturbs it. -/
theorem carries_iff (hl : l.validate = .ok ()) (hstatus : 10 ∉ utf8 l.statusLine)
    (htype : 10 ∉ utf8 l.contentType) {r : Rendered} (h : l.renderResponse account record = .ok r) :
    Carries r.bytes (l.document account record) ↔
      Json.Plain l.paddingByte ∨ l.Full account record := by
  obtain ⟨⟨hp, -⟩, hn, -⟩ := validate_eq_ok.mp hl
  obtain ⟨hren, rfl⟩ := (renderResponse_eq_ok hl).mp h
  obtain ⟨body, hbody⟩ : IsText ((l.values account record).body l.ownerSlots) := isText_body hp
  have hlen : 5 ≤ (utf8 body).length := by
    rw [hbody, body_eq_objectText]
    exact Json.length_objectText (by simp [entries])
  have hexact := exact_document hn hren ((utf8 body).length - 4)
  rw [Nat.sub_add_cancel (by omega), ← hbody] at hexact
  rw [← holds_iff, ← carries_response hstatus htype hexact]
  simp only [Layout.rendering, Layout.head, hbody]

end Layout

/-! ### The record -/

theorem flatMap_zipIdx_comma {α : Type} (f : α → Bytes) (xs : List α) :
    (xs.zipIdx.flatMap fun item => (if 0 < item.2 then utf8 "," else []) ++ f item.1) =
      Json.commas (xs.map f) := by
  have hcomma : utf8 "," = [44] := by decide
  induction xs using List.reverseRecOn with
  | nil => rfl
  | append_singleton xs x ih =>
    rw [List.zipIdx_append, List.flatMap_append, ih, List.map_append, List.map_singleton,
      Json.commas_concat, List.length_map]
    simp only [List.zipIdx_cons, List.zipIdx_nil, List.flatMap_cons, List.flatMap_nil,
      List.append_nil, Nat.zero_add, hcomma]
    split_ifs <;> simp

namespace RecordLayout

variable (l : RecordLayout) (account : String) (values : List String)

def recordEntries : List Json.Entry :=
  (l.fields.zip values).map fun item =>
    stringEntry item.1.key l.paddingByte item.2 item.1.width

def entries : List Json.Entry :=
  [stringEntry KEY_ACCOUNT l.paddingByte account l.accountWidth,
    { key := utf8 KEY_RECORD
      text := Json.objectText (l.recordEntries values)
      value := .object ((l.recordEntries values).map fun e => (e.key, e.value))
      holds := ∀ e ∈ l.recordEntries values, e.holds }]

/-- Every value has the width of its place. -/
structure Full (l : RecordLayout) (account : String) (values : List String) : Prop where
  account : (utf8 account).length = l.accountWidth
  fields : ∀ item ∈ l.fields.zip values, (utf8 item.2).length = item.1.width

variable {l account values}

/-- The values of the fields, taken with their positions. -/
theorem map_values_eq : ((l.fields.zip values).zipIdx.flatMap fun item =>
      [padded l.paddingByte item.1.2 item.1.1.width]) =
    (l.fields.zip values).map fun item => padded l.paddingByte item.2 item.1.width := by
  rw [← map_zipIdx_fst, List.map_eq_flatMap]

theorem fits_fieldPieces (h : ∀ item ∈ l.fields.zip values, Padable item.2 item.1.width) :
    ∀ item ∈ (l.fields.zip values).zipIdx, Fits (fieldPieces item.1.1 item.2)
      [padded l.paddingByte item.1.2 item.1.1.width] := fun _ hitem =>
  fits_commaPieces.mpr (fits_valuePieces.mpr
    (length_padded (h _ (List.fst_mem_of_mem_zipIdx hitem)).2.2.2))

theorem fits_fieldsPieces (hlen : values.length = l.fields.length)
    (h : ∀ item ∈ l.fields.zip values, Padable item.2 item.1.width) :
    Fits l.fieldsPieces ((l.fields.zip values).map fun item =>
      padded l.paddingByte item.2 item.1.width) := by
  rw [← map_values_eq, ← flatMap_fieldPieces hlen]
  exact fits_flatMap (fits_fieldPieces h)

/-- The fields are the members of an object, with commas between them. -/
theorem fill_fieldsPieces (hlen : values.length = l.fields.length)
    (h : ∀ item ∈ l.fields.zip values, Padable item.2 item.1.width) :
    fill l.fieldsPieces ((l.fields.zip values).map fun item =>
        padded l.paddingByte item.2 item.1.width) =
      Json.commas ((l.recordEntries values).map Json.Entry.member) := by
  have hone (item : (RecordField × String) × ℕ) : fill (fieldPieces item.1.1 item.2)
      [padded l.paddingByte item.1.2 item.1.1.width] =
      (if 0 < item.2 then utf8 "," else []) ++
        (stringEntry item.1.1.key l.paddingByte item.1.2 item.1.1.width).member := by
    rw [fieldPieces, fill_commaPieces, member_eq rfl]
    simp only [keyPiece, fill, fill_valuePieces, stringEntry]
  rw [← map_values_eq, ← flatMap_fieldPieces hlen, fill_flatMap (fits_fieldPieces h)]
  simp only [hone]
  rw [flatMap_zipIdx_comma (fun item : RecordField × String =>
    (stringEntry item.1.key l.paddingByte item.2 item.1.width).member), recordEntries, List.map_map]
  rfl

/-- The body of a record response is the text of an object. -/
theorem fill_bodyPieces (hlen : values.length = l.fields.length)
    (haccount : Padable account l.accountWidth)
    (h : ∀ item ∈ l.fields.zip values, Padable item.2 item.1.width) :
    fill l.bodyPieces (l.written account values) = Json.objectText (l.entries account values) := by
  have hcomma : utf8 "," = [44] := by decide
  have hopen : utf8 "\x7b" = [123] := by decide
  have hclose : utf8 "\x7d\x7d" = [125, 125] := by decide
  have hfront : Fits l.frontPieces [padded l.paddingByte account l.accountWidth] :=
    fits_recordFront.mpr (length_padded haccount.2.2.2)
  have hfields := fits_fieldsPieces hlen h
  have hfill : fill l.bodyPieces (l.written account values ++ []) =
      fill l.frontPieces [padded l.paddingByte account l.accountWidth] ++
        (fill l.fieldsPieces ((l.fields.zip values).map fun item =>
          padded l.paddingByte item.2 item.1.width) ++ utf8 "\x7d\x7d") :=
    (fill_append hfront).trans (congrArg _ (fill_append hfields))
  rw [List.append_nil] at hfill
  rw [hfill, fill_recordFront, fill_fieldsPieces hlen h]
  simp only [entries, Json.objectText, List.map_cons, List.map_nil, Json.commas]
  rw [member_eq rfl, member_eq rfl]
  simp only [stringEntry, hcomma, hopen, hclose, List.append_assoc, List.cons_append,
    List.nil_append]

theorem plain_keys (hl : l.validate = .ok ()) :
    ∀ e ∈ l.recordEntries values, ∀ b ∈ e.key, Json.Plain b := by
  intro e he b hb
  obtain ⟨⟨field, value⟩, hitem, rfl⟩ := List.mem_map.mp he
  obtain ⟨hfield, -⟩ := List.of_mem_zip hitem
  obtain ⟨i, hi⟩ := List.mem_iff_getElem?.mp hfield
  have hvalid := (recordValidate_eq_ok.mp hl).2.2.2 (field, i) (List.mem_zipIdx_iff_getElem?.mpr hi)
  have hkey := List.all_eq_true.mp hvalid.key.2 b hb
  simp only [isAsciiAlphanumeric, Bool.or_eq_true, Bool.and_eq_true, decide_eq_true_eq,
    beq_iff_eq, UInt8.le_iff_toNat_le, ← UInt8.toNat_inj] at hkey
  rw [Json.Plain, UInt8.lt_iff_toNat_lt, ne_eq, ne_eq, ← UInt8.toNat_inj, ← UInt8.toNat_inj]
  simp at hkey ⊢
  omega

theorem exact_document (hl : l.validate = .ok ()) (hlen : values.length = l.fields.length)
    (haccount : Padable account l.accountWidth)
    (h : ∀ item ∈ l.fields.zip values, Padable item.2 item.1.width) (d : ℕ) :
    Json.Exact (Json.readValue (d + 3)) (Json.objectText (l.entries account values))
      (l.document account values) (∀ e ∈ l.entries account values, e.holds) := by
  have hne : l.recordEntries values ≠ [] := by
    have hfields := List.length_pos_of_ne_nil (recordValidate_eq_ok.mp hl).2.2.1
    refine List.ne_nil_of_length_pos ?_
    rw [recordEntries, List.length_map, List.length_zip]
    omega
  have hrecord : ∀ e ∈ l.recordEntries values,
      Json.Exact (Json.readValue (d + 1)) e.text e.value e.holds := by
    intro e he
    obtain ⟨item, hitem, rfl⟩ := List.mem_map.mp he
    exact exact_padded (h item hitem)
  have hdocument : l.document account values =
      .object ((l.entries account values).map fun e => (e.key, e.value)) := by
    simp only [document, entries, recordEntries, List.map_cons, List.map_nil, List.map_map,
      stringEntry]
    rfl
  rw [hdocument]
  refine Json.exact_entries ?_ ?_ (by simp [entries])
  · simp only [entries, List.forall_mem_cons, List.not_mem_nil, false_imp_iff, implies_true,
      and_true, stringEntry]
    exact ⟨by decide +kernel, by decide +kernel⟩
  · simp only [entries, List.forall_mem_cons, List.not_mem_nil, false_imp_iff, implies_true,
      and_true]
    exact ⟨exact_padded haccount, Json.exact_entries (plain_keys hl) hrecord hne⟩

theorem holds_iff : (∀ e ∈ l.entries account values, e.holds) ↔
    Json.Plain l.paddingByte ∨ l.Full account values := by
  simp only [entries, recordEntries, List.forall_mem_cons, List.not_mem_nil, false_imp_iff,
    implies_true, and_true, stringEntry, Stands, List.forall_mem_map]
  by_cases hplain : Json.Plain l.paddingByte
  · simp only [hplain, or_true, implies_true, and_self, true_or]
  · simp only [hplain, or_false, false_or]
    exact ⟨fun ⟨haccount, hfields⟩ => ⟨haccount, hfields⟩,
      fun ⟨haccount, hfields⟩ => ⟨haccount, hfields⟩⟩

theorem isText_entries (hp : (utf8 l.padding).length = 1) :
    IsText (Json.objectText (l.entries account values)) := by
  have hrecord : IsText (Json.objectText (l.recordEntries values)) := by
    refine IsText.objectText fun e he => ?_
    obtain ⟨item, -, rfl⟩ := List.mem_map.mp he
    exact isText_stringEntry hp _
  refine IsText.objectText ?_
  simp only [entries, List.forall_mem_cons, List.not_mem_nil, false_imp_iff, implies_true,
    and_true]
  exact ⟨isText_stringEntry hp _, ⟨_, rfl, hrecord⟩⟩

/-- A record response carries its document exactly if no padding disturbs it. -/
theorem carries_iff (hl : l.validate = .ok ()) (hstatus : 10 ∉ utf8 l.statusLine)
    (htype : 10 ∉ utf8 l.contentType) {r : RenderedRecord}
    (h : l.renderResponse account values = .ok r) :
    Carries r.bytes (l.document account values) ↔
      Json.Plain l.paddingByte ∨ l.Full account values := by
  have hp := (recordValidate_eq_ok.mp hl).1.1
  obtain ⟨⟨haccount, -⟩, hlen, hall⟩ := renderResponse_shows hp h
  have hvalues : ∀ item ∈ l.fields.zip values, Padable item.2 item.1.width := by
    intro item hitem
    obtain ⟨i, hi⟩ := List.mem_iff_getElem?.mp hitem
    have hitem : ((l.fields.zip values).zipIdx)[i]? = some (item, i) := by
      rw [List.getElem?_zipIdx, hi]
      simp
    obtain ⟨range, -, hpadable, -⟩ := exists_getElem?_of_forall₂ hall hitem
    exact hpadable
  obtain ⟨hfits, hbytes, -⟩ := renderRecord_eq hp h
  have hfill := fill_bodyPieces hlen haccount hvalues
  obtain ⟨body, hbody⟩ : IsText (Json.objectText (l.entries account values)) := isText_entries hp
  have hlong : 5 ≤ (utf8 body).length := by
    rw [hbody]
    exact Json.length_objectText (by simp [entries])
  have hexact := exact_document hl hlen haccount hvalues ((utf8 body).length - 3)
  rw [Nat.sub_add_cancel (by omega), ← hbody] at hexact
  rw [hbytes, pieces, fill_responsePieces (fits_responsePieces.mp hfits), hfill, ← hbody,
    carries_response hstatus htype hexact, holds_iff]

end RecordLayout

/-- **Padding and JSON.** What follows the first empty line of a response has the announced length
and is a JSON object with the keys of the layout in order, whose strings are the padded values,
exactly if the padding character is no quote, no backslash and no control character, or nothing is
padded. -/
theorem carries_document_iff (account : String) :
    (∀ l : Layout, l.validate = .ok () → 10 ∉ utf8 l.statusLine → 10 ∉ utf8 l.contentType →
      ∀ record r, l.renderResponse account record = .ok r →
        (Carries r.bytes (l.document account record) ↔
          Json.Plain l.paddingByte ∨ l.Full account record)) ∧
    ∀ l : RecordLayout, l.validate = .ok () → 10 ∉ utf8 l.statusLine → 10 ∉ utf8 l.contentType →
      ∀ values r, l.renderResponse account values = .ok r →
        (Carries r.bytes (l.document account values) ↔
          Json.Plain l.paddingByte ∨ l.Full account values) :=
  ⟨fun _ hl hstatus htype _ _ h => Layout.carries_iff hl hstatus htype h,
    fun _ hl hstatus htype _ _ h => RecordLayout.carries_iff hl hstatus htype h⟩

namespace Vectors

/-- The layout of `policies/layouts/income-v1.json` with another padding character. -/
def paddedLayout (padding : String) : RecordLayout where
  id := "income-v1"
  serverName := "registry.pprev.test"
  pathPrefix := "/income"
  statusLine := "HTTP/1.1 200 OK"
  contentType := "application/json"
  padding := padding
  accountWidth := 16
  fields := [⟨"monthlyIncome", 20⟩]

end Vectors

open Vectors in
theorem carries_spaces : ∃ r, (paddedLayout " ").renderResponse "ACC-1" ["3000000"] = .ok r ∧
    Carries r.bytes ((paddedLayout " ").document "ACC-1" ["3000000"]) := by
  obtain ⟨r, hr⟩ : ∃ r, (paddedLayout " ").renderResponse "ACC-1" ["3000000"] = .ok r :=
    exists_renderRecord (by decide) (by decide +kernel) rfl (by decide +kernel)
  exact ⟨r, hr, ((carries_document_iff "ACC-1").2 (paddedLayout " ") (by decide +kernel)
    (by decide) (by decide) _ r hr).mpr (.inl (by decide))⟩

open Vectors in
/-- A layout that pads with quotes is accepted; its response is no JSON text of the document. -/
theorem not_carries_quotes : (paddedLayout "\"").validate = .ok () ∧
    10 ∉ utf8 (paddedLayout "\"").statusLine ∧ 10 ∉ utf8 (paddedLayout "\"").contentType ∧
    ∃ r, (paddedLayout "\"").renderResponse "ACC-1" ["3000000"] = .ok r ∧
      ¬Carries r.bytes ((paddedLayout "\"").document "ACC-1" ["3000000"]) := by
  have hvalid : (paddedLayout "\"").validate = .ok () := by decide +kernel
  obtain ⟨r, hr⟩ : ∃ r, (paddedLayout "\"").renderResponse "ACC-1" ["3000000"] = .ok r :=
    exists_renderRecord (by decide) (by decide +kernel) rfl (by decide +kernel)
  refine ⟨hvalid, by decide, by decide, r, hr, fun hcarries => ?_⟩
  have hiff := RecordLayout.carries_iff hvalid (by decide) (by decide) hr
  rcases hiff.mp hcarries with hplain | hfull
  · exact absurd hplain (by decide)
  · exact absurd hfull.account (by decide)

end Pprev
