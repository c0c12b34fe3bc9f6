import Mathlib.Data.List.Forall2
import Pprev.Data.Slice
import Pprev.Offchain.Text

/-!
# The fixed-layout title response

The module `layout.rs`: the template of the response and the byte range of every part of it.
-/

namespace Pprev

open Evm

def KEY_ACCOUNT : String := "account"
def KEY_RECORD : String := "record"
def KEY_PROPERTY_ID : String := "propertyId"
def KEY_OWNERS : String := "owners"
def KEY_ENCUMBRANCE : String := "encumbrance"
def KEY_ASSESSED_VALUE : String := "assessedValue"
def KEY_RECORD_DATE : String := "recordDate"

structure Layout where
  serverName : String
  pathPrefix : String
  statusLine : String
  contentType : String
  /-- Single ASCII character that pads every value to its width. -/
  padding : String
  accountWidth : ℕ
  propertyIdWidth : ℕ
  ownerSlots : ℕ
  encumbranceWidth : ℕ
  assessedValueWidth : ℕ
  recordDateWidth : ℕ

/-- A title record as the registry stores it. -/
structure TitleRecord where
  propertyId : String
  owners : List String
  encumbrance : String
  assessedValue : String
  recordDate : String

/-- Why a layout, a value or a record is refused. -/
inductive LayoutError where
  /-- padding must be one ASCII character -/
  | padding
  /-- owner_slots must be positive -/
  | ownerSlots
  /-- the named width must be positive -/
  | width (name : String)
  /-- the value is not ASCII -/
  | notAscii (value : String)
  /-- the value contains a quote or backslash -/
  | quote (value : String)
  /-- the value contains a control character -/
  | control (value : String)
  /-- the value is longer than its width -/
  | tooLong (value : String) (width : ℕ)
  /-- the record has more owners than the layout allows -/
  | owners (owners slots : ℕ)
  /-- property id width exceeds 32 bytes -/
  | propertyIdWidth
  /-- owner slots are not evenly spaced -/
  | spacing
  /-- a vector cannot be given the bytes it needs: the process panics -/
  | panic
  deriving DecidableEq

/-- Nothing if the condition holds, else the error. -/
def ensure {ε : Type} (p : Prop) [Decidable p] (e : ε) : Except ε Unit :=
  if p then .ok () else .error e

@[simp] theorem ensure_eq_ok {ε : Type} {p : Prop} [Decidable p] {e : ε} {u : Unit} :
    ensure p e = .ok u ↔ p := by
  unfold ensure
  split_ifs with h <;> simp [h]

theorem bind_eq_ok {ε α β : Type} {x : Except ε α} {f : α → Except ε β} {b : β} :
    (x >>= f) = .ok b ↔ ∃ a, x = .ok a ∧ f a = .ok b := by
  cases x with
  | error e => simp [bind, Except.bind]
  | ok a => simp [bind, Except.bind]

theorem forM_eq_ok {ε α : Type} {f : α → Except ε Unit} {l : List α} {u : Unit} :
    l.forM f = .ok u ↔ ∀ x ∈ l, f x = .ok () := by
  induction l with
  | nil => simp [List.forM, pure, Except.pure]
  | cons x l ih =>
    show (f x >>= fun _ => l.forM f) = .ok u ↔ _
    rw [bind_eq_ok, ih, List.forall_mem_cons]
    exact ⟨fun ⟨_, h⟩ => h, fun h => ⟨(), h⟩⟩

theorem mapM_eq_ok {α β ε : Type} {f : α → Except ε β} {l : List α} {m : List β} :
    l.mapM f = .ok m ↔ List.Forall₂ (fun a b => f a = .ok b) l m := by
  induction l generalizing m with
  | nil => simp [pure, Except.pure, eq_comm]
  | cons a l ih =>
    simp only [List.mapM_cons, bind_eq_ok, ih, pure, Except.pure, Except.ok.injEq]
    constructor
    · rintro ⟨b, hb, m, hm, rfl⟩
      exact .cons hb hm
    · rintro (_ | ⟨hb, hm⟩)
      exact ⟨_, hb, _, hm, rfl⟩

theorem ensure_bind {ε α : Type} {p : Prop} [Decidable p] {e : ε} {f : Unit → Except ε α} :
    (ensure p e >>= f) = if p then f () else .error e := by
  unfold ensure
  split_ifs <;> rfl

theorem mapError_eq_ok {ε ε' α : Type} {x : Except ε α} {f : ε → ε'} {a : α} :
    x.mapError f = .ok a ↔ x = .ok a := by
  cases x <;> simp [Except.mapError]

/-! ## Padding -/

def isAscii (value : String) : Prop := ∀ b ∈ utf8 value, b < 128

instance (value : String) : Decidable (isAscii value) := List.decidableBAll _ (utf8 value)

def isAsciiControl (b : UInt8) : Bool := b < 32 || b == 127

/-- Pads a value to a width; rejects values that are too long or that could break the JSON
template. -/
def padValue (padding value : String) (width : ℕ) : Except LayoutError String := do
  ensure (isAscii value) (.notAscii value)
  ensure (¬(value.toList.any fun c => c == '"' || c == '\\')) (.quote value)
  ensure (¬((utf8 value).any isAsciiControl)) (.control value)
  ensure (¬width < (utf8 value).length) (.tooLong value width)
  .ok (value ++ String.ofList
    (List.replicate (width - (utf8 value).length) (padding.toList.head?.getD ' ')))

/-! ## Writing -/

/-- Half-open range of byte offsets. -/
structure Range where
  start : ℕ
  stop : ℕ
  deriving DecidableEq

def Range.len (r : Range) : ℕ := r.stop - r.start

def Range.shift (r : Range) (n : ℕ) : Range := ⟨r.start + n, r.stop + n⟩

/-- The template pieces written so far. -/
abbrev Writer := Bytes

namespace Writer

/-- Appends a piece and reports where it landed. -/
def lit (w : Writer) (s : String) : Range × Writer :=
  (⟨w.length, w.length + (utf8 s).length⟩, w ++ utf8 s)

/-- Writes `"name":` and returns its range. -/
def key (w : Writer) (name : String) : Range × Writer := w.lit ("\"" ++ name ++ "\":")

/-- Writes a quoted value and returns the range of the value without quotes. -/
def string (w : Writer) (value : String) : Range × Writer :=
  let w := (w.lit "\"").2
  let (range, w) := w.lit value
  (range, (w.lit "\"").2)

end Writer

/-- Byte ranges of one rendered response, as offsets into the received transcript. -/
structure ResponseRanges where
  len : ℕ
  statusLine : Range
  contentTypeLine : Range
  keys : List Range
  account : Range
  owners : Range
  /-- Start of each owner slot, relative to the owners. -/
  ownerSlotOffsets : List ℕ
  propertyId : Range
  deriving DecidableEq

structure Rendered where
  bytes : Bytes
  ranges : ResponseRanges

/-- The head of a response to a body of a given length, with the ranges of the status line and of
the Content-Type line. -/
def responseHead (statusLine contentType : String) (bodyLen : ℕ) : Range × Range × Writer :=
  let head : Writer := []
  let (statusLine, head) := head.lit statusLine
  let head := (head.lit "\r\n").2
  let (contentTypeLine, head) := head.lit ("Content-Type: " ++ contentType)
  let head := (head.lit "\r\n").2
  let head := (head.lit ("Content-Length: " ++ toString bodyLen ++ "\r\n")).2
  let head := (head.lit "Connection: close\r\n\r\n").2
  (statusLine, contentTypeLine, head)

namespace Layout

def validate (l : Layout) : Except LayoutError Unit := do
  ensure ((utf8 l.padding).length = 1 ∧ isAscii l.padding) .padding
  ensure (0 < l.ownerSlots) .ownerSlots
  ensure (0 < l.accountWidth) (.width "accountWidth")
  ensure (0 < l.propertyIdWidth) (.width "propertyIdWidth")
  ensure (0 < l.encumbranceWidth) (.width "encumbranceWidth")
  ensure (0 < l.assessedValueWidth) (.width "assessedValueWidth")
  ensure (0 < l.recordDateWidth) (.width "recordDateWidth")

def paddingByte (l : Layout) : UInt8 := (utf8 l.padding).headD 0

/-- Request target for a property. -/
def path (l : Layout) (propertyId : String) : String := l.pathPrefix ++ propertyId

/-- First line of the notarised request, without CRLF. -/
def requestLine (l : Layout) (propertyId : String) : String :=
  "GET " ++ l.path propertyId ++ " HTTP/1.1"

def pad (l : Layout) (value : String) (width : ℕ) : Except LayoutError String :=
  padValue l.padding value width

/-- Writes owner slot `i`. -/
def slot (l : Layout) (owners : List String) (out : List Range × Writer) (i : ℕ) :
    Except LayoutError (List Range × Writer) := do
  let body := if 0 < i then (out.2.lit ",").2 else out.2
  let owner := owners[i]?.getD ""
  let (range, body) := body.string (← l.pad owner l.accountWidth)
  .ok (out.1 ++ [range], body)

/-- The full HTTP response for an account viewing a record, with the byte range of every part. -/
def renderResponse (l : Layout) (account : String) (record : TitleRecord) :
    Except LayoutError Rendered := do
  ensure (record.owners.length ≤ l.ownerSlots) (.owners record.owners.length l.ownerSlots)
  let body : Writer := []
  let body := (body.lit "\x7b").2
  let (keyAccount, body) := body.key KEY_ACCOUNT
  let (account, body) := body.string (← l.pad account l.accountWidth)
  let body := (body.lit ",").2
  let (keyRecord, body) := body.key KEY_RECORD
  let body := (body.lit "\x7b").2
  let (keyPropertyId, body) := body.key KEY_PROPERTY_ID
  let (propertyId, body) := body.string (← l.pad record.propertyId l.propertyIdWidth)
  let body := (body.lit ",").2
  let (keyOwners, body) := body.key KEY_OWNERS
  let body := (body.lit "[").2
  let (slots, body) ← (List.range l.ownerSlots).foldlM (l.slot record.owners) ([], body)
  let body := (body.lit "],").2
  let (keyEncumbrance, body) := body.key KEY_ENCUMBRANCE
  let (_, body) := body.string (← l.pad record.encumbrance l.encumbranceWidth)
  let body := (body.lit ",").2
  let (keyAssessedValue, body) := body.key KEY_ASSESSED_VALUE
  let (_, body) := body.string (← l.pad record.assessedValue l.assessedValueWidth)
  let body := (body.lit ",").2
  let (keyRecordDate, body) := body.key KEY_RECORD_DATE
  let (_, body) := body.string (← l.pad record.recordDate l.recordDateWidth)
  let body := (body.lit "\x7d\x7d").2
  let (statusLine, contentTypeLine, head) := responseHead l.statusLine l.contentType body.length
  let shift := head.length
  let owners : Range :=
    ⟨(slots.head?.getD ⟨0, 0⟩).start + shift, (slots.getLast?.getD ⟨0, 0⟩).stop + shift⟩
  .ok {
    bytes := head ++ body
    ranges := {
      len := head.length + body.length
      statusLine := statusLine
      contentTypeLine := contentTypeLine
      keys := [keyAccount, keyRecord, keyPropertyId, keyOwners, keyEncumbrance, keyAssessedValue,
        keyRecordDate].map (·.shift shift)
      account := account.shift shift
      owners := owners
      ownerSlotOffsets := slots.map fun s => s.start + shift - owners.start
      propertyId := propertyId.shift shift } }

/-- The response for an empty record. -/
def template (l : Layout) : Except LayoutError Rendered :=
  l.renderResponse "" ⟨"", [], "", "", ""⟩

/-- Byte ranges of the response for any record. -/
def ranges (l : Layout) : Except LayoutError ResponseRanges := do
  .ok (← l.template).ranges

/-- The property identifier as the response carries it, followed by zero bytes up to 32 bytes. -/
def propertyIdWord (l : Layout) (propertyId : String) : Except LayoutError Bytes := do
  ensure (l.propertyIdWidth ≤ 32) .propertyIdWidth
  let value ← l.pad propertyId l.propertyIdWidth
  .ok (utf8 value ++ List.replicate (32 - (utf8 value).length) 0)

end Layout

end Pprev
