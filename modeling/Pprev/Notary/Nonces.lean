import Mathlib.Data.Finset.Lattice.Lemmas
import Mathlib.Data.List.Forall2
import Pprev.Data.Hex
import Pprev.Offchain.Text

/-!
# The notary's record of signed nonces

The module `nonces.rs`: an append-only file with one nonce per line as 64 hexadecimal digits, and
the set of nonces read from it. Of the bytes of the file some are synced; the rest was written after
the last sync. A write may fail after any part of a line.
-/

namespace Pprev

open Evm

/-- A 32-byte nonce. -/
abbrev Nonce := {b : Bytes // b.length = 32}

/-! ## Reading -/

/-- Characters of the Unicode property White_Space. -/
def isWhitespace (c : Char) : Bool :=
  [0x9, 0xa, 0xb, 0xc, 0xd, 0x20, 0x85, 0xa0, 0x1680, 0x2000, 0x2001, 0x2002, 0x2003, 0x2004,
    0x2005, 0x2006, 0x2007, 0x2008, 0x2009, 0x200a, 0x2028, 0x2029, 0x202f, 0x205f,
    0x3000].contains c.toNat

def trim (s : String) : String :=
  String.ofList ((s.toList.dropWhile isWhitespace).reverse.dropWhile isWhitespace).reverse

/-- A line with one byte more at its front. -/
def consLine (b : UInt8) : List Bytes → List Bytes
  | [] => [[b]]
  | line :: lines => (b :: line) :: lines

/-- The lines of a file: the parts between newlines, the last one only if it is not empty. A
carriage return before a newline is left in its line, since the line is trimmed. -/
def splitLines : Bytes → List Bytes
  | [] => []
  | b :: l => if b = 10 then [] :: splitLines l else consLine b (splitLines l)

inductive OpenError where
  /-- a line is not UTF-8 -/
  | reading
  /-- a line is not a 32-byte nonce -/
  | notANonce (line : ℕ)
  deriving DecidableEq

def readLine (i : ℕ) (line : Bytes) : Except OpenError Nonce :=
  match String.fromUTF8? ⟨line.toArray⟩ with
  | none => .error .reading
  | some s =>
    match Hex.decode (utf8 (trim s)) with
    | none => .error (.notANonce (i + 1))
    | some bytes => if h : bytes.length = 32 then .ok ⟨bytes, h⟩ else .error (.notANonce (i + 1))

def readLines : ℕ → List Bytes → Finset Nonce → Except OpenError (Finset Nonce)
  | _, [], seen => .ok seen
  | i, line :: lines, seen =>
    match readLine i line with
    | .error e => .error e
    | .ok eta => readLines (i + 1) lines (insert eta seen)

/-- The nonces of a file; a malformed line is an error. -/
def openRecord (content : Bytes) : Except OpenError (Finset Nonce) :=
  readLines 0 (splitLines content) ∅

/-! ## Writing -/

structure File where
  /-- What the last sync has made durable. -/
  synced : Bytes
  /-- What was written after it. -/
  unsynced : Bytes
  deriving DecidableEq

def File.content (file : File) : Bytes := file.synced ++ file.unsynced

/-- How the writes of a record end. -/
inductive Writes where
  /-- all bytes are written and synced -/
  | done
  /-- an error after some bytes, or of the sync after all of them -/
  | failed (written : ℕ)
  deriving DecidableEq

inductive RecordError where
  /-- the nonce has already been signed -/
  | signed
  /-- appending to the file failed -/
  | appending
  deriving DecidableEq

structure NonceStore where
  file : File
  seen : Finset Nonce

/-- The digits of a nonce and the newline. -/
def nonceLine (eta : Nonce) : Bytes := Hex.encode eta.1 ++ [10]

namespace NonceStore

def contains (store : NonceStore) (eta : Nonce) : Bool := decide (eta ∈ store.seen)

/-- Records a nonce before the notary signs with it. -/
def record (store : NonceStore) (eta : Nonce) (writes : Writes) :
    Except RecordError Unit × NonceStore :=
  if store.contains eta then (.error .signed, store)
  else
    match writes with
    | .done =>
      (.ok (), ⟨⟨store.file.content ++ nonceLine eta, []⟩, insert eta store.seen⟩)
    | .failed written =>
      (.error .appending, { store with file :=
        { store.file with unsynced := store.file.unsynced ++ (nonceLine eta).take written } })

theorem record_eq_ok {store store' : NonceStore} {eta : Nonce} {writes : Writes} :
    store.record eta writes = (.ok (), store') ↔ eta ∉ store.seen ∧ writes = .done ∧
      store' = ⟨⟨store.file.content ++ nonceLine eta, []⟩, insert eta store.seen⟩ := by
  unfold record contains
  by_cases h : eta ∈ store.seen
  · simp [h]
  · cases writes with
    | done => simp [h, eq_comm]
    | failed written => simp [h]

/-- A record that fails adds to the file only, and nothing for a nonce that was signed. -/
theorem record_eq_error {store store' : NonceStore} {eta : Nonce} {writes : Writes}
    {e : RecordError} (h : store.record eta writes = (.error e, store')) :
    store' = store ∨ ∃ more, store' =
      { store with file := { store.file with unsynced := store.file.unsynced ++ more } } := by
  unfold record at h
  split_ifs at h with hseen
  · exact .inl (Prod.mk.inj h).2.symm
  · cases writes with
    | done => simp at h
    | failed written => exact .inr ⟨_, (Prod.mk.inj h).2.symm⟩

end NonceStore

/-! ## Lines -/

/-- The line reads as the nonce. -/
def IsLine (line : Bytes) (eta : Nonce) : Prop :=
  ∃ s : String, utf8 s = line ∧ Hex.decode (utf8 (trim s)) = some eta.1

theorem fromUTF8_eq_some {line : Bytes} {s : String} :
    String.fromUTF8? ⟨line.toArray⟩ = some s ↔ utf8 s = line := by
  unfold String.fromUTF8?
  constructor
  · intro h
    split_ifs at h with hv
    rw [← Option.some.inj h]
    rfl
  · rintro rfl
    have hb : (⟨(utf8 s).toArray⟩ : ByteArray) = s.toByteArray := by
      simp [utf8]
    rw [hb, dif_pos s.isValidUTF8]
    rfl

theorem readLine_eq_ok {i : ℕ} {line : Bytes} {eta : Nonce} :
    readLine i line = .ok eta ↔ IsLine line eta := by
  unfold readLine IsLine
  constructor
  · intro h
    cases hs : String.fromUTF8? ⟨line.toArray⟩ with
    | none => simp [hs] at h
    | some s =>
      cases hd : Hex.decode (utf8 (trim s)) with
      | none => simp [hs, hd] at h
      | some bytes =>
        simp only [hs, hd] at h
        split_ifs at h with hlen
        rw [← Except.ok.inj h]
        exact ⟨s, fromUTF8_eq_some.mp hs, hd⟩
  · rintro ⟨s, hs, hd⟩
    simp only [fromUTF8_eq_some.mpr hs, hd, dif_pos eta.2]

theorem readLines_eq_ok {i : ℕ} {lines : List Bytes} {seen out : Finset Nonce} :
    readLines i lines seen = .ok out ↔
      ∃ etas, List.Forall₂ IsLine lines etas ∧ out = seen ∪ etas.toFinset := by
  induction lines generalizing i seen with
  | nil => simp [readLines, eq_comm]
  | cons line lines ih =>
    rw [readLines]
    cases hline : readLine i line with
    | error e =>
      simp only [reduceCtorEq, false_iff]
      rintro ⟨etas, hetas, -⟩
      cases hetas with
      | cons h _ => rw [readLine_eq_ok.mpr h] at hline; cases hline
    | ok eta =>
      simp only [ih]
      constructor
      · rintro ⟨etas, hetas, rfl⟩
        refine ⟨eta :: etas, .cons (readLine_eq_ok.mp hline) hetas, ?_⟩
        rw [List.toFinset_cons, Finset.insert_union, Finset.union_insert]
      · rintro ⟨_, hetas, rfl⟩
        cases hetas with
        | cons h hrest =>
          obtain rfl := Except.ok.inj ((readLine_eq_ok.mpr h).symm.trans hline)
          refine ⟨_, hrest, ?_⟩
          rw [List.toFinset_cons, Finset.insert_union, Finset.union_insert]

theorem openRecord_eq_ok {content : Bytes} {seen : Finset Nonce} :
    openRecord content = .ok seen ↔
      ∃ etas, List.Forall₂ IsLine (splitLines content) etas ∧ seen = etas.toFinset := by
  rw [openRecord, readLines_eq_ok]
  simp only [Finset.empty_union]

end Pprev
