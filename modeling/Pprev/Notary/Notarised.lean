import Mathlib.Data.Finset.Sort
import Pprev.Notary.Shape

/-!
# Notarised exchanges

What `run_mpc` and `build_presentation` of `session.rs` commit to, open and reveal of an exchange,
and what `check_shape` makes of it. The library is given by what it says of an exchange; an accepted
presentation then shows the structure of the response, and its hashes open to the hidden values; a
notarised exchange is accepted exactly if it has this structure and nothing hidden is revealed.
-/

namespace Pprev

open Evm Slice

/-! ## Exchanges -/

/-- What the client of a connection sent and received. -/
structure Exchange where
  sent : Bytes
  received : Bytes

def Exchange.side (x : Exchange) : Direction → Bytes
  | .sent => x.sent
  | .received => x.received

/-- The bytes of a side at some positions, in order. -/
def Exchange.plaintext (x : Exchange) (direction : Direction) (idx : Finset ℕ) : Option Bytes :=
  (idx.sort (· ≤ ·)).mapM fun i => (x.side direction)[i]?

theorem mapM_range' {bytes : Bytes} {start len : ℕ} (h : start + len ≤ bytes.length) :
    ((List.range' start len).mapM fun i => bytes[i]?) = some (slice bytes start len) := by
  induction len generalizing start with
  | zero => simp [slice]
  | succ len ih =>
    have hlt : start < bytes.length := by omega
    rw [List.range'_succ, List.mapM_cons, ih (by omega), List.getElem?_eq_getElem hlt]
    simp only [slice, Option.pure_def, Option.bind_eq_bind, Option.bind_some]
    rw [List.drop_eq_getElem_cons hlt, List.take_succ_cons]

/-- The positions of a range, in order. -/
def Range.positions (r : Range) : List ℕ := List.range' r.start r.len

theorem Range.mem_positions {r : Range} {i : ℕ} : i ∈ r.positions ↔ i ∈ r.set := by
  rw [Range.positions, List.mem_range'_1, Range.set, Finset.mem_Ico, Range.len]
  omega

theorem sort_rangeSet {ranges : List Range} (h : ranges.Pairwise fun r r' => r.stop ≤ r'.start) :
    (rangeSet ranges).sort (· ≤ ·) = ranges.flatMap Range.positions := by
  have hincreasing : (ranges.flatMap Range.positions).Pairwise (· < ·) := by
    refine List.pairwise_flatMap.mpr ⟨fun r _ => List.pairwise_lt_range', ?_⟩
    refine h.imp fun hrr' i hi j hj => ?_
    have hi' := Finset.mem_Ico.mp (Range.mem_positions.mp hi)
    have hj' := Finset.mem_Ico.mp (Range.mem_positions.mp hj)
    omega
  have hset : rangeSet ranges = (ranges.flatMap Range.positions).toFinset := by
    ext i
    simp only [mem_rangeSet, List.mem_toFinset, List.mem_flatMap, Range.mem_positions]
  rw [hset]
  exact (List.toFinset_sort _ hincreasing.nodup).mpr (hincreasing.imp Nat.le_of_lt)

/-- The bytes of ranges in order are those of one after another. -/
theorem Exchange.plaintext_rangeSet {x : Exchange} {direction : Direction} {ranges : List Range}
    (hincreasing : ranges.Pairwise fun r r' => r.stop ≤ r'.start)
    (hwithin : ∀ r ∈ ranges, r.start ≤ r.stop ∧ r.stop ≤ (x.side direction).length) :
    x.plaintext direction (rangeSet ranges) =
      some (ranges.flatMap fun r => r.part (x.side direction)) := by
  rw [Exchange.plaintext, sort_rangeSet hincreasing]
  clear hincreasing
  induction ranges with
  | nil => rfl
  | cons r ranges ih =>
    obtain ⟨hr, hrest⟩ := List.forall_mem_cons.mp hwithin
    have hpart : (r.positions.mapM fun i => (x.side direction)[i]?) =
        some (r.part (x.side direction)) := mapM_range' (by unfold Range.len; omega)
    rw [List.flatMap_cons, List.mapM_append, hpart, ih hrest]
    rfl

theorem Exchange.plaintext_set {x : Exchange} {direction : Direction} {r : Range}
    (h : r.start ≤ r.stop ∧ r.stop ≤ (x.side direction).length) :
    x.plaintext direction r.set = some (r.part (x.side direction)) := by
  have hone := @Exchange.plaintext_rangeSet x direction [r] (List.pairwise_singleton _ _)
    (List.forall_mem_singleton.mpr h)
  rwa [List.flatMap_singleton, rangeSet, List.foldr_cons, List.foldr_nil,
    Finset.union_empty] at hone

/-! ## What an accepted presentation shows -/

/-- A presentation is about an exchange: what is authenticated are its bytes, and the commitments
are hashes of parts of it with a blinder, of which `S` is the set. -/
structure PresentationOutput.About (output : PresentationOutput) (sha256 : Bytes → Bytes)
    (S : Set Bytes) (x : Exchange) : Prop where
  length : output.received.toNat = x.received.length
  sent : ∀ t, output.transcript = some t → ∀ i ∈ t.sentAuthed, t.sent[i]? = x.sent[i]?
  received : ∀ t, output.transcript = some t → ∀ i ∈ t.receivedAuthed,
    t.received[i]? = x.received[i]?
  opens : ∀ commitments, output.commitments = some commitments → ∀ c ∈ commitments,
    c.alg = HashAlgId.SHA256 → ∀ m, x.plaintext c.direction c.idx = some m →
      ∃ blinder : Bytes, blinder.length = 16 ∧ m ++ blinder ∈ S ∧ c.hash = sha256 (m ++ blinder)

theorem PresentationOutput.About.mono {output : PresentationOutput} {sha256 : Bytes → Bytes}
    {S S' : Set Bytes} {x : Exchange} (h : output.About sha256 S x) (hS : S ⊆ S') :
    output.About sha256 S' x := by
  refine ⟨h.length, h.sent, h.received, fun commitments hcs c hc halg m hm => ?_⟩
  obtain ⟨blinder, hblinder, hmem, hhash⟩ := h.opens commitments hcs c hc halg m hm
  exact ⟨blinder, hblinder, hS hmem, hhash⟩

/-- An exchange of a shape, whose hidden values some hashes open to. -/
structure Exchange.Has (x : Exchange) (sha256 : Bytes → Bytes) (S : Set Bytes)
    (shape : ResponseShape) (hashes : List Bytes32) : Prop where
  requestLine : utf8 shape.requestLine <+: x.sent
  length : x.received.length = shape.len
  structured : ∀ range ∈ shape.revealed, range.part x.received = range.part shape.template
  hidden : List.Forall₂ (fun range hash => ∃ blinder : Bytes, blinder.length = 16 ∧
    range.part x.received ++ blinder ∈ S ∧
      wordBytes hash = sha256 (range.part x.received ++ blinder)) shape.hidden hashes

theorem getElem?_part (r : Range) (bytes : Bytes) (i : ℕ) :
    (r.part bytes)[i]? = if i < r.len then bytes[r.start + i]? else none := by
  rw [Range.part, slice, List.getElem?_take, List.getElem?_drop]

/-- A part of which every byte agrees. -/
theorem part_congr {r : Range} {bytes bytes' : Bytes}
    (h : ∀ i ∈ r.set, bytes[i]? = bytes'[i]?) : r.part bytes = r.part bytes' := by
  refine List.ext_getElem? fun i => ?_
  rw [getElem?_part, getElem?_part]
  split_ifs with hi
  · refine h _ (Finset.mem_Ico.mpr ?_)
    unfold Range.len at hi
    omega
  · rfl

theorem PresentationOutput.Accepted.has {output : PresentationOutput} {shape : ResponseShape}
    {maxSessionSecs : Uint64} {attested : AttestedShape} {sha256 : Bytes → Bytes} {S : Set Bytes}
    {x : Exchange} (hs : shape.Apart) (h : output.Accepted shape maxSessionSecs attested)
    (hx : output.About sha256 S x) : x.Has sha256 S shape attested.hiddenHashes := by
  obtain ⟨t, ht, hsent, hline, hauthed, hstructured⟩ := h.reveals
  obtain ⟨commitments, hcs, -, halg, hhashes⟩ := h.commits
  have hlen := hx.length.symm.trans h.received
  refine ⟨?_, hlen, fun range hrange => ?_, ?_⟩
  · refine List.prefix_iff_getElem?.mpr fun i hi => ?_
    have hmem : i ∈ t.sentAuthed := by
      rw [hsent]
      exact Finset.mem_Ico.mpr ⟨Nat.zero_le _, hi⟩
    rw [← hx.sent t ht i hmem]
    exact List.prefix_iff_getElem?.mp hline i hi
  · rw [← hstructured range hrange]
    refine (part_congr fun i hi => hx.received t ht i ?_).symm
    rw [hauthed]
    exact mem_rangeSet.mpr ⟨range, hrange, hi⟩
  · refine List.forall₂_iff_get.mpr ⟨hhashes.length_eq, fun i hi hi' => ?_⟩
    obtain ⟨c, hc, hdirection, hidx, hhash⟩ := (List.forall₂_iff_get.mp hhashes).2 i hi hi'
    have hwithin := hs.within _ (List.mem_append_right _ (List.get_mem shape.hidden ⟨i, hi⟩))
    rw [hs.length, ← hlen] at hwithin
    have hplain : x.plaintext c.direction c.idx =
        some ((shape.hidden.get ⟨i, hi⟩).part x.received) := by
      rw [hdirection, hidx]
      exact Exchange.plaintext_set hwithin
    obtain ⟨blinder, hblinder, hmem, hopen⟩ := hx.opens commitments hcs c hc (halg c hc) _ hplain
    exact ⟨blinder, hblinder, hmem, hhash.symm.trans hopen⟩

/-! ## The shapes of the layouts -/

/-- A shape that a valid layout has for a request. -/
inductive ResponseShape.OfLayout (shape : ResponseShape) : Prop where
  | title {l : Layout} {propertyId : String} (valid : l.validate = .ok ())
    (shape_eq : l.shape propertyId = .ok shape)
  | record {l : RecordLayout} {subject : String} (valid : l.validate = .ok ())
    (shape_eq : l.shape subject = .ok shape)

theorem ResponseShape.OfLayout.apart {shape : ResponseShape} (h : shape.OfLayout) :
    shape.Apart := by
  cases h with
  | @title l _ hl hshape =>
    obtain ⟨t, ht, hok⟩ := bind_eq_ok.mp hshape
    cases hok
    obtain ⟨hdisjoint, hwithin, hpos⟩ := Layout.apart hl ht
    refine ⟨hdisjoint, hwithin, ?_, hpos⟩
    obtain ⟨-, rfl⟩ := (renderResponse_eq_ok hl).mp ht
    exact List.length_append
  | @record l _ hl hshape =>
    obtain ⟨t, ht, hok⟩ := bind_eq_ok.mp hshape
    cases hok
    obtain ⟨hdisjoint, hwithin, hpos⟩ := RecordLayout.apart hl ht
    exact ⟨hdisjoint, hwithin, (renderRecord_eq (recordValidate_eq_ok.mp hl).1.1 ht).2.2.1.symm,
      hpos⟩

theorem ResponseShape.OfLayout.hidden_ne_nil {shape : ResponseShape} (h : shape.OfLayout) :
    shape.hidden ≠ [] := by
  cases h with
  | title _ hshape =>
    obtain ⟨t, -, -, hhidden⟩ := Layout.shape_eq_ok hshape
    rw [hhidden]
    exact List.cons_ne_nil _ _
  | record _ hshape =>
    obtain ⟨t, -, -, hhidden⟩ := RecordLayout.shape_eq_ok hshape
    rw [hhidden]
    exact List.cons_ne_nil _ _

theorem ResponseShape.OfLayout.increasing {shape : ResponseShape} (h : shape.OfLayout) :
    shape.revealed.Pairwise fun r r' => r.stop ≤ r'.start := by
  cases h with
  | title hl hshape =>
    obtain ⟨t, ht, hrevealed, -⟩ := Layout.shape_eq_ok hshape
    rw [hrevealed]
    exact (Layout.filled hl ht).increasing
  | record hl hshape =>
    obtain ⟨t, ht, hrevealed, -⟩ := RecordLayout.shape_eq_ok hshape
    rw [hrevealed]
    exact (RecordLayout.filled hl ht).increasing

/-! ## What the prover commits to -/

/-- A secret of the prover: the blinder of one of its commitments. -/
structure TranscriptSecret where
  direction : Direction
  idx : Finset ℕ
  blinder : Bytes

/-- Plaintext and blinder of one hidden commitment. -/
structure FieldOpening where
  range : Range
  plaintext : Bytes
  blinder : Bytes

/-- Plaintext and blinder of one commitment to a set of ranges. -/
structure CommittedOpening where
  plaintext : Bytes
  blinder : Bytes

/-- The hash that the circuit opens. -/
def FieldOpening.commitment (sha256 : Bytes → Bytes) (opening : FieldOpening) : Bytes :=
  sha256 (opening.plaintext ++ opening.blinder)

inductive SessionError where
  /-- request does not start with the request line -/
  | requestLine
  /-- response has another length than the layout -/
  | length (n len : ℕ)
  /-- the library does not prove the commitments -/
  | prove
  /-- no hash commitment secret -/
  | secret (direction : Direction) (idx : Finset ℕ)
  /-- a position is not within the transcript -/
  | panic

/-- The openings of an exchange that is notarised, with the secrets of the prover. -/
structure NotarizedShape where
  secrets : List TranscriptSecret
  openings : List FieldOpening
  /-- The opening of the request line. -/
  request : CommittedOpening
  /-- The opening of the structure of the response. -/
  structured : CommittedOpening

/-- The blinder of the first commitment to some bytes that has one of 16 bytes. -/
def blinderOf (secrets : List TranscriptSecret) (direction : Direction) (idx : Finset ℕ) :
    Option Bytes :=
  secrets.findSome? fun secret =>
    if secret.direction = direction ∧ secret.idx = idx ∧ secret.blinder.length = 16 then
      some secret.blinder
    else none

def committedOpening (x : Exchange) (secrets : List TranscriptSecret) (direction : Direction)
    (idx : Finset ℕ) : Except SessionError CommittedOpening := do
  let blinder ← context (blinderOf secrets direction idx) (.secret direction idx)
  let plaintext ← context (x.plaintext direction idx) .panic
  .ok ⟨plaintext, blinder⟩

def opening (x : Exchange) (secrets : List TranscriptSecret) (range : Range) :
    Except SessionError FieldOpening := do
  let blinder ← context (blinderOf secrets .received range.set) (.secret .received range.set)
  let plaintext ← (range.index x.received).mapError fun _ => .panic
  .ok ⟨range, plaintext, blinder⟩

/-- What the prover commits to: the request line, the structure of the response, and each of the
hidden values. -/
def commitConfig (shape : ResponseShape) : List (Direction × Finset ℕ) :=
  [(.sent, (⟨0, (utf8 shape.requestLine).length⟩ : Range).set),
    (.received, rangeSet shape.revealed)] ++ shape.hidden.map fun r => (.received, r.set)

/-- The rest of `run_mpc` once the exchange is done, for a library that proves commitments to the
notary: the transcript has to follow the layout before anything is committed. -/
def notarizeExchange (prove : List (Direction × Finset ℕ) → Option (List TranscriptSecret))
    (shape : ResponseShape) (x : Exchange) : Except SessionError NotarizedShape := do
  ensure (utf8 (shape.requestLine ++ "\r\n") <+: x.sent) .requestLine
  ensure (x.received.length = shape.len) (.length x.received.length shape.len)
  let secrets ← context (prove (commitConfig shape)) .prove
  let openings ← shape.hidden.mapM (opening x secrets)
  let request ← committedOpening x secrets .sent (⟨0, (utf8 shape.requestLine).length⟩ : Range).set
  let structured ← committedOpening x secrets .received (rangeSet shape.revealed)
  .ok ⟨secrets, openings, request, structured⟩

/-- The positions of the request and of the response that a presentation shows. -/
def buildPresentation (shape : ResponseShape) (revealHidden : Bool) : Finset ℕ × Finset ℕ :=
  ((⟨0, (utf8 shape.requestLine).length⟩ : Range).set,
    rangeSet shape.revealed ∪ if revealHidden then rangeSet shape.hidden else ∅)

/-- The library proves the commitments it is asked for, each with a blinder of 16 bytes. -/
structure Proves (prove : List (Direction × Finset ℕ) → Option (List TranscriptSecret)) : Prop where
  perm : ∀ config secrets, config.Nodup → prove config = some secrets →
    (secrets.map fun secret => (secret.direction, secret.idx)).Perm config
  blinder : ∀ config secrets, prove config = some secrets →
    ∀ secret ∈ secrets, secret.blinder.length = 16

/-- The commitment to a part of an exchange that a secret is of. -/
def TranscriptSecret.Commits (secret : TranscriptSecret) (sha256 : Bytes → Bytes) (x : Exchange)
    (c : CommittedHash) : Prop :=
  c.direction = secret.direction ∧ c.idx = secret.idx ∧ c.alg = HashAlgId.SHA256 ∧
    ∃ m, x.plaintext secret.direction secret.idx = some m ∧ c.hash = sha256 (m ++ secret.blinder)

/-- What the library says of the presentation of an exchange that was notarised with some secrets
and that shows some positions; the notary signs its time as an extension. -/
structure PresentationOutput.Presents (output : PresentationOutput) (sha256 : Bytes → Bytes)
    (serverName : String) (x : Exchange) (secrets : List TranscriptSecret) (tAtt time : Uint64)
    (shown : Finset ℕ × Finset ℕ) : Prop where
  serverName : output.serverName = some serverName
  connectionTime : output.connectionTime = time
  received : output.received = BitVec.ofNat 32 x.received.length
  extensions : output.extensions = [⟨T_ATT_EXTENSION_ID, (littleEndian 8 tAtt.toNat).reverse⟩]
  transcript : ∃ t, output.transcript = some t ∧ t.sentAuthed = shown.1 ∧
    t.receivedAuthed = shown.2 ∧ (∀ i ∈ shown.1, t.sent[i]? = x.sent[i]?) ∧
      ∀ i ∈ shown.2, t.received[i]? = x.received[i]?
  commitments : ∃ commitments, output.commitments = some commitments ∧
    List.Forall₂ (fun secret c => secret.Commits sha256 x c) secrets commitments

/-! ## The openings of a notarised exchange -/

theorem nodup_commitConfig {shape : ResponseShape} (hs : shape.Apart) :
    (commitConfig shape).Nodup :=
  nodup_expectedCommitments hs.disjoint hs.nonempty

theorem exists_mapM {α β : Type} {f : α → Option β} {l : List α} (h : ∀ a ∈ l, ∃ b, f a = some b) :
    ∃ m, l.mapM f = some m := by
  induction l with
  | nil => exact ⟨[], rfl⟩
  | cons a l ih =>
    obtain ⟨b, hb⟩ := h a (by simp)
    obtain ⟨m, hm⟩ := ih fun c hc => h c (List.mem_cons_of_mem _ hc)
    exact ⟨b :: m, by simp [List.mapM_cons, hb, hm]⟩

theorem exists_forall₂ {α β : Type} {R : α → β → Prop} {as : List α} (h : ∀ a ∈ as, ∃ b, R a b) :
    ∃ bs, List.Forall₂ R as bs := by
  induction as with
  | nil => exact ⟨[], .nil⟩
  | cons a as ih =>
    obtain ⟨b, hb⟩ := h a (by simp)
    obtain ⟨bs, hbs⟩ := ih fun c hc => h c (List.mem_cons_of_mem _ hc)
    exact ⟨b :: bs, .cons hb hbs⟩

theorem exists_mapM_ok {α β ε : Type} {f : α → Except ε β} {l : List α}
    (h : ∀ a ∈ l, ∃ b, f a = .ok b) : ∃ m, l.mapM f = .ok m := by
  obtain ⟨m, hm⟩ := exists_forall₂ h
  exact ⟨m, mapM_eq_ok.mpr hm⟩

theorem Exchange.exists_plaintext {x : Exchange} {direction : Direction} {idx : Finset ℕ}
    (h : ∀ i ∈ idx, i < (x.side direction).length) : ∃ m, x.plaintext direction idx = some m :=
  exists_mapM fun i hi => ⟨_, List.getElem?_eq_getElem (h i ((Finset.mem_sort _).mp hi))⟩

section

variable {secrets : List TranscriptSecret}

/-- The blinder that is found is that of the only secret for these bytes. -/
theorem blinderOf_eq_some
    (hnodup : (secrets.map fun secret => (secret.direction, secret.idx)).Nodup)
    (hblinder : ∀ secret ∈ secrets, secret.blinder.length = 16) {direction : Direction}
    {idx : Finset ℕ} {b : Bytes} :
    blinderOf secrets direction idx = some b ↔ ⟨direction, idx, b⟩ ∈ secrets := by
  induction secrets with
  | nil => simp [blinderOf]
  | cons secret secrets ih =>
    obtain ⟨hnotMem, hnodup⟩ := List.nodup_cons.mp hnodup
    have hlen := hblinder secret (by simp)
    have hrest := ih hnodup fun s hs => hblinder s (List.mem_cons_of_mem _ hs)
    obtain ⟨d, i, blinder⟩ := secret
    rw [List.mem_cons, blinderOf, List.findSome?_cons]
    by_cases hkey : d = direction ∧ i = idx
    · obtain ⟨rfl, rfl⟩ := hkey
      have hnone : ⟨d, i, b⟩ ∉ secrets := fun hmem =>
        hnotMem (List.mem_map.mpr ⟨_, hmem, rfl⟩)
      simp only [hlen, and_self, if_true, Option.some.injEq, TranscriptSecret.mk.injEq, true_and,
        hnone, or_false]
      exact eq_comm
    · have hne : (⟨direction, idx, b⟩ : TranscriptSecret) ≠ ⟨d, i, blinder⟩ := by
        rintro ⟨⟩
        exact hkey ⟨rfl, rfl⟩
      rw [if_neg fun h => hkey ⟨h.1, h.2.1⟩, ← hrest]
      simp only [hne, false_or]
      rfl

/-- The secrets of a session. -/
structure Secrets (shape : ResponseShape) (secrets : List TranscriptSecret) : Prop where
  perm : (secrets.map fun secret => (secret.direction, secret.idx)).Perm (commitConfig shape)
  blinder : ∀ secret ∈ secrets, secret.blinder.length = 16

variable {shape : ResponseShape} {x : Exchange}

theorem Secrets.blinderOf_eq_some (hs : shape.Apart) (h : Secrets shape secrets)
    {direction : Direction} {idx : Finset ℕ} {b : Bytes} :
    blinderOf secrets direction idx = some b ↔ ⟨direction, idx, b⟩ ∈ secrets :=
  Pprev.blinderOf_eq_some (h.perm.nodup_iff.mpr (nodup_commitConfig hs)) h.blinder

theorem Secrets.exists_blinder (hs : shape.Apart) (h : Secrets shape secrets)
    {direction : Direction} {idx : Finset ℕ} (hmem : (direction, idx) ∈ commitConfig shape) :
    ∃ b, blinderOf secrets direction idx = some b := by
  obtain ⟨⟨d, i, b⟩, hsecret, heq⟩ := List.mem_map.mp (h.perm.mem_iff.mpr hmem)
  obtain ⟨rfl, rfl⟩ := Prod.mk.inj heq
  exact ⟨b, (h.blinderOf_eq_some hs).mpr hsecret⟩

theorem opening_eq_ok (hs : shape.Apart) (h : Secrets shape secrets) {range : Range}
    {out : FieldOpening} : opening x secrets range = .ok out ↔
      (range.start ≤ range.stop ∧ range.stop ≤ x.received.length) ∧ out.range = range ∧
        out.plaintext = range.part x.received ∧
          ⟨.received, range.set, out.blinder⟩ ∈ secrets := by
  simp only [opening, bind_eq_ok, context_eq_ok, h.blinderOf_eq_some hs, mapError_eq_ok,
    Range.index_eq_ok, Except.ok.injEq]
  constructor
  · rintro ⟨b, hb, _, ⟨hwithin, rfl⟩, rfl⟩
    exact ⟨hwithin, rfl, rfl, hb⟩
  · rintro ⟨hwithin, rfl, hplain, hb⟩
    exact ⟨_, hb, _, ⟨hwithin, rfl⟩, by rw [← hplain]⟩

theorem committedOpening_eq_ok (hs : shape.Apart) (h : Secrets shape secrets)
    {direction : Direction} {idx : Finset ℕ} {out : CommittedOpening} :
    committedOpening x secrets direction idx = .ok out ↔
      ⟨direction, idx, out.blinder⟩ ∈ secrets ∧ x.plaintext direction idx = some out.plaintext := by
  simp only [committedOpening, bind_eq_ok, context_eq_ok, h.blinderOf_eq_some hs, Except.ok.injEq]
  constructor
  · rintro ⟨b, hb, m, hm, rfl⟩
    exact ⟨hb, hm⟩
  · rintro ⟨hb, hm⟩
    exact ⟨_, hb, _, hm, rfl⟩

/-- The ranges of the shape are within a response of its length. -/
theorem ResponseShape.Apart.within_received (hs : shape.Apart)
    (hlen : x.received.length = shape.len) {range : Range}
    (hrange : range ∈ shape.revealed ++ shape.hidden) :
    range.start ≤ range.stop ∧ range.stop ≤ x.received.length := by
  have hwithin := hs.within range hrange
  rwa [hs.length, ← hlen] at hwithin

theorem requestLine_begins (h : utf8 (shape.requestLine ++ "\r\n") <+: x.sent) :
    utf8 shape.requestLine <+: x.sent := by
  rw [utf8_append] at h
  exact (List.prefix_append _ _).trans h

theorem requestLine_lt (h : utf8 (shape.requestLine ++ "\r\n") <+: x.sent) {i : ℕ}
    (hi : i ∈ (⟨0, (utf8 shape.requestLine).length⟩ : Range).set) : i < x.sent.length :=
  (Finset.mem_Ico.mp hi).2.trans_le (requestLine_begins h).length_le

theorem revealed_lt (hs : shape.Apart) (hlen : x.received.length = shape.len) {i : ℕ}
    (hi : i ∈ rangeSet shape.revealed) : i < x.received.length := by
  obtain ⟨range, hrange, hmem⟩ := mem_rangeSet.mp hi
  exact (Finset.mem_Ico.mp hmem).2.trans_le
    (hs.within_received hlen (List.mem_append_left _ hrange)).2

/-- What is committed to is within the transcript. -/
theorem commitConfig_lt (hs : shape.Apart) (hline : utf8 (shape.requestLine ++ "\r\n") <+: x.sent)
    (hlen : x.received.length = shape.len) {direction : Direction} {idx : Finset ℕ}
    (hmem : (direction, idx) ∈ commitConfig shape) : ∀ i ∈ idx, i < (x.side direction).length := by
  rcases List.mem_append.mp hmem with hrevealed | hhidden
  · rcases List.mem_cons.mp hrevealed with heq | hmem
    · obtain ⟨rfl, rfl⟩ := Prod.mk.inj heq
      exact fun i hi => requestLine_lt hline hi
    · obtain ⟨rfl, rfl⟩ := Prod.mk.inj (List.mem_singleton.mp hmem)
      exact fun i hi => revealed_lt hs hlen hi
  · obtain ⟨range, hrange, heq⟩ := List.mem_map.mp hhidden
    obtain ⟨rfl, rfl⟩ := Prod.mk.inj heq
    exact fun i hi => (Finset.mem_Ico.mp hi).2.trans_le
      (hs.within_received hlen (List.mem_append_right _ hrange)).2

/-- Within the transcript every commitment can be opened. -/
theorem exists_opening (hs : shape.Apart) (h : Secrets shape secrets)
    (hlen : x.received.length = shape.len) {range : Range} (hrange : range ∈ shape.hidden) :
    ∃ out, opening x secrets range = .ok out := by
  have hmem : (Direction.received, range.set) ∈ commitConfig shape :=
    List.mem_append_right _ (List.mem_map_of_mem hrange)
  obtain ⟨b, hb⟩ := h.exists_blinder hs hmem
  have hwithin := hs.within_received hlen (List.mem_append_right _ hrange)
  exact ⟨⟨range, range.part x.received, b⟩, (opening_eq_ok hs h).mpr
    ⟨hwithin, rfl, rfl, (h.blinderOf_eq_some hs).mp hb⟩⟩

theorem exists_committedOpening (hs : shape.Apart) (h : Secrets shape secrets)
    (hline : utf8 (shape.requestLine ++ "\r\n") <+: x.sent) (hlen : x.received.length = shape.len)
    {direction : Direction} {idx : Finset ℕ} (hmem : (direction, idx) ∈ commitConfig shape) :
    ∃ out, committedOpening x secrets direction idx = .ok out := by
  obtain ⟨b, hb⟩ := h.exists_blinder hs hmem
  obtain ⟨m, hm⟩ := Exchange.exists_plaintext (commitConfig_lt hs hline hlen hmem)
  exact ⟨⟨m, b⟩, bind_eq_ok.mpr ⟨b, context_eq_ok.mpr hb, bind_eq_ok.mpr
    ⟨m, context_eq_ok.mpr hm, rfl⟩⟩⟩

/-- The session of an exchange that follows the layout, whose commitments are proved. -/
structure Notarises (prove : List (Direction × Finset ℕ) → Option (List TranscriptSecret))
    (shape : ResponseShape) (x : Exchange) : Prop where
  requestLine : utf8 (shape.requestLine ++ "\r\n") <+: x.sent
  length : x.received.length = shape.len
  proves : (prove (commitConfig shape)).isSome

variable {prove : List (Direction × Finset ℕ) → Option (List TranscriptSecret)}

theorem Secrets.of_prove (hprove : Proves prove) (hs : shape.Apart)
    (h : prove (commitConfig shape) = some secrets) : Secrets shape secrets :=
  ⟨hprove.perm _ _ (nodup_commitConfig hs) h, hprove.blinder _ _ h⟩

/-- An exchange that follows the layout is notarised. -/
theorem Notarises.exists_ok (hprove : Proves prove) (hs : shape.Apart)
    (h : Notarises prove shape x) :
    ∃ notarized, notarizeExchange prove shape x = .ok notarized := by
  obtain ⟨secrets, hsecrets⟩ := Option.isSome_iff_exists.mp h.proves
  have hsec := Secrets.of_prove hprove hs hsecrets
  obtain ⟨openings, hopenings⟩ : ∃ openings, shape.hidden.mapM (opening x secrets) = .ok openings :=
    exists_mapM_ok fun range hrange => exists_opening hs hsec h.length hrange
  have hline : (Direction.sent, (⟨0, (utf8 shape.requestLine).length⟩ : Range).set) ∈
      commitConfig shape := List.mem_cons_self
  obtain ⟨request, hrequest⟩ := exists_committedOpening hs hsec h.requestLine h.length hline
  have hrevealed : (Direction.received, rangeSet shape.revealed) ∈ commitConfig shape :=
    List.mem_cons_of_mem _ List.mem_cons_self
  obtain ⟨structured, hstructured⟩ :=
    exists_committedOpening hs hsec h.requestLine h.length hrevealed
  refine ⟨⟨secrets, openings, request, structured⟩, ?_⟩
  simp only [notarizeExchange, bind_eq_ok, ensure_eq_ok, context_eq_ok]
  exact ⟨(), h.requestLine, (), h.length, secrets, hsecrets, openings, hopenings, request, hrequest,
    structured, hstructured, rfl⟩

theorem notarizeExchange_eq_ok {notarized : NotarizedShape}
    (h : notarizeExchange prove shape x = .ok notarized) : Notarises prove shape x ∧
      prove (commitConfig shape) = some notarized.secrets ∧
      List.Forall₂ (fun range out => opening x notarized.secrets range = .ok out) shape.hidden
        notarized.openings ∧
      committedOpening x notarized.secrets .sent
        (⟨0, (utf8 shape.requestLine).length⟩ : Range).set = .ok notarized.request ∧
      committedOpening x notarized.secrets .received (rangeSet shape.revealed) =
        .ok notarized.structured := by
  simp only [notarizeExchange, bind_eq_ok, ensure_eq_ok, context_eq_ok, mapM_eq_ok, exists_const,
    Except.ok.injEq] at h
  obtain ⟨hline, hlen, secrets, hsecrets, openings, hopenings, request, hrequest, structured,
    hstructured, rfl⟩ := h
  exact ⟨⟨hline, hlen, by rw [hsecrets]; rfl⟩, hsecrets, hopenings, hrequest, hstructured⟩

theorem plaintext_requestLine (h : utf8 (shape.requestLine ++ "\r\n") <+: x.sent) :
    x.plaintext .sent (⟨0, (utf8 shape.requestLine).length⟩ : Range).set =
      some (utf8 shape.requestLine) := by
  have hline := requestLine_begins h
  rw [Exchange.plaintext_set ⟨Nat.zero_le _, hline.length_le⟩, List.prefix_iff_eq_take.mp hline,
    Range.part, slice, Range.len, List.drop_zero, List.length_take_of_le hline.length_le]
  rfl

theorem plaintext_revealed (hs : shape.OfLayout) (hlen : x.received.length = shape.len) :
    x.plaintext .received (rangeSet shape.revealed) =
      some (shape.revealed.flatMap fun range => range.part x.received) :=
  Exchange.plaintext_rangeSet hs.increasing fun _ hrange =>
    hs.apart.within_received hlen (List.mem_append_left _ hrange)

/-- What stops a session is the transcript or the library. -/
theorem notarizeExchange_error (hprove : Proves prove) (hs : shape.Apart) {e : SessionError}
    (h : notarizeExchange prove shape x = .error e) :
    e = .requestLine ∨ e = .length x.received.length shape.len ∨ e = .prove := by
  by_cases hline : utf8 (shape.requestLine ++ "\r\n") <+: x.sent
  · by_cases hlen : x.received.length = shape.len
    · cases hproves : prove (commitConfig shape) with
      | none =>
        simp only [notarizeExchange, ensure, hline, hlen, hproves, context, if_true] at h
        exact .inr (.inr (Except.error.inj h).symm)
      | some secrets =>
        obtain ⟨_, hok⟩ := Notarises.exists_ok hprove hs ⟨hline, hlen, by rw [hproves]; rfl⟩
        cases hok.symm.trans h
    · simp only [notarizeExchange, ensure, hline, hlen, if_true, if_false] at h
      exact .inr (.inl (Except.error.inj h).symm)
  · simp only [notarizeExchange, ensure, hline, if_false] at h
    exact .inl (Except.error.inj h).symm

end

/-! ## The presentation of a notarised exchange -/

theorem packed_littleEndian (len n : ℕ) : packed (littleEndian len n).reverse = n % 256 ^ len := by
  induction len generalizing n with
  | zero => simp [littleEndian, packed, digits, Digits.bigEndian, Nat.mod_one]
  | succ len ih =>
    have hbyte : packed [UInt8.ofNat n] = n % 256 := by
      simp [packed, digits, Digits.bigEndian]
    rw [littleEndian, List.reverse_cons, packed_append, ih, hbyte, List.length_singleton, pow_one,
      pow_succ', Nat.mod_mul]
    omega

theorem length_littleEndian (len n : ℕ) : (littleEndian len n).length = len := by
  induction len generalizing n with
  | zero => rfl
  | succ len ih => rw [littleEndian, List.length_cons, ih]

theorem forall₂_iff_map_eq {α β γ δ : Type} {R : α → β → Prop} {Q : α → γ → Prop} {f : γ → δ}
    {g : β → δ} {as : List α} {bs : List β} (h : List.Forall₂ R as bs)
    (hQ : ∀ a b, R a b → ∀ c, Q a c ↔ f c = g b) (cs : List γ) :
    List.Forall₂ Q as cs ↔ cs.map f = bs.map g := by
  induction h generalizing cs with
  | nil => simp
  | @cons a b as bs hab _ ih =>
    cases cs with
    | nil => simp
    | cons c cs => rw [List.forall₂_cons, List.map_cons, List.map_cons, List.cons.injEq, hQ a b hab,
        ih]

theorem map_eq_of_forall₂ {α β γ : Type} {R : α → β → Prop} {f : α → γ} {g : β → γ} {as : List α}
    {bs : List β} (h : List.Forall₂ R as bs) (hR : ∀ a b, R a b → f a = g b) :
    as.map f = bs.map g := by
  induction h with
  | nil => rfl
  | cons hab _ ih => rw [List.map_cons, List.map_cons, hR _ _ hab, ih]

theorem exists_of_forall₂_left {α β : Type} {R : α → β → Prop} {as : List α} {bs : List β}
    (h : List.Forall₂ R as bs) {a : α} (ha : a ∈ as) : ∃ b ∈ bs, R a b := by
  induction h with
  | nil => cases ha
  | cons hab _ ih =>
    rcases List.mem_cons.mp ha with rfl | ha
    · exact ⟨_, List.mem_cons_self, hab⟩
    · obtain ⟨b, hb, hR⟩ := ih ha
      exact ⟨b, List.mem_cons_of_mem _ hb, hR⟩

theorem exists_of_forall₂_right {α β : Type} {R : α → β → Prop} {as : List α} {bs : List β}
    (h : List.Forall₂ R as bs) {b : β} (hb : b ∈ bs) : ∃ a ∈ as, R a b :=
  exists_of_forall₂_left (R := flip R) (List.Forall₂.flip (R := flip R) h) hb

section

variable {sha256 : Bytes → Bytes} {shape : ResponseShape} {x : Exchange}
  {secrets : List TranscriptSecret} {tAtt time : Uint64} {revealHidden : Bool}
  {output : PresentationOutput}

theorem PresentationOutput.Presents.tAttOf_eq {shown : Finset ℕ × Finset ℕ}
    (h : output.Presents sha256 shape.serverName x secrets tAtt time shown) :
    tAttOf output = .ok tAtt := by
  refine tAttOf_eq_ok.mpr ⟨(littleEndian 8 tAtt.toNat).reverse, ?_, ?_, ?_⟩
  · rw [h.extensions]
    simp
  · rw [List.length_reverse, length_littleEndian]
  · rw [packed_littleEndian]
    exact (Nat.mod_eq_of_lt tAtt.isLt).symm

/-- What is presented of an exchange is about it. -/
theorem PresentationOutput.Presents.about {shown : Finset ℕ × Finset ℕ} {S : Set Bytes}
    (hsec : Secrets shape secrets) (hlt : x.received.length < 2 ^ 32)
    (hS : ∀ secret ∈ secrets, ∀ m, x.plaintext secret.direction secret.idx = some m →
      m ++ secret.blinder ∈ S)
    (h : output.Presents sha256 shape.serverName x secrets tAtt time shown) :
    output.About sha256 S x := by
  obtain ⟨t, ht, hsent, hreceived, hsentEq, hreceivedEq⟩ := h.transcript
  obtain ⟨commitments, hcs, hcommits⟩ := h.commitments
  refine ⟨?_, fun t' ht' => ?_, fun t' ht' => ?_, fun cs' hcs' c hc _ m hm => ?_⟩
  · rw [h.received, BitVec.toNat_ofNat]
    exact Nat.mod_eq_of_lt hlt
  · obtain rfl := Option.some.inj (ht.symm.trans ht')
    rwa [hsent]
  · obtain rfl := Option.some.inj (ht.symm.trans ht')
    rwa [hreceived]
  · obtain rfl := Option.some.inj (hcs.symm.trans hcs')
    obtain ⟨secret, hsecret, hdir, hset, -, m', hm', hopen⟩ := exists_of_forall₂_right hcommits hc
    rw [hdir, hset, hm'] at hm
    obtain rfl := Option.some.inj hm
    exact ⟨secret.blinder, hsec.blinder secret hsecret, hS secret hsecret _ hm', hopen⟩

/-- The commitments that are presented are those of the openings. -/
theorem commitment_iff (hs : shape.Apart) (hsec : Secrets shape secrets)
    {commitments : List CommittedHash}
    (h : List.Forall₂ (fun secret c => secret.Commits sha256 x c) secrets commitments)
    {range : Range} {out : FieldOpening} (hout : opening x secrets range = .ok out) (w : Bytes32) :
    (∃ c ∈ commitments, c.direction = .received ∧ c.idx = range.set ∧ c.hash = wordBytes w) ↔
      wordBytes w = out.commitment sha256 := by
  obtain ⟨hwithin, -, hplain, hmem⟩ := (opening_eq_ok hs hsec).mp hout
  have hpart : x.plaintext .received range.set = some (range.part x.received) :=
    Exchange.plaintext_set hwithin
  constructor
  · rintro ⟨c, hc, hdirection, hidx, hhash⟩
    obtain ⟨⟨d, idx, b⟩, hsecret, hdir, hset, -, m, hm, hopen⟩ := exists_of_forall₂_right h hc
    obtain rfl : d = .received := hdir.symm.trans hdirection
    obtain rfl : idx = range.set := hset.symm.trans hidx
    -- the bytes have one secret
    have hb := ((hsec.blinderOf_eq_some hs).mpr hsecret).symm.trans
      ((hsec.blinderOf_eq_some hs).mpr hmem)
    rw [← hhash, hopen, Option.some.inj (hm.symm.trans hpart), Option.some.inj hb,
      FieldOpening.commitment, hplain]
  · intro hw
    obtain ⟨c, hc, hdir, hset, -, m, hm, hopen⟩ := exists_of_forall₂_left h hmem
    refine ⟨c, hc, hdir, hset, ?_⟩
    rw [hopen, Option.some.inj (hm.symm.trans hpart), hw, FieldOpening.commitment, hplain]

/-- What is committed to is what the secrets are of. -/
theorem map_key_perm (hsec : Secrets shape secrets) {commitments : List CommittedHash}
    (h : List.Forall₂ (fun secret c => secret.Commits sha256 x c) secrets commitments) :
    (commitments.map fun c => (c.direction, c.idx)).Perm (expectedCommitments shape) := by
  have hkeys : (secrets.map fun secret => (secret.direction, secret.idx)) =
      commitments.map fun c => (c.direction, c.idx) :=
    map_eq_of_forall₂ h fun _ _ hc => Prod.ext hc.1.symm hc.2.1.symm
  rw [← hkeys]
  exact hsec.perm

/-- A presentation that shows hidden values has other revealed bytes than the layout. -/
theorem shown_eq_iff (hs : shape.Apart) (hne : shape.hidden ≠ []) :
    (buildPresentation shape revealHidden).2 = rangeSet shape.revealed ↔ revealHidden = false := by
  cases revealHidden with
  | false => simp [buildPresentation]
  | true =>
    simp only [buildPresentation, if_true, Bool.true_eq_false, iff_false]
    intro heq
    obtain ⟨range, hrange⟩ := List.exists_mem_of_ne_nil _ hne
    have hstart := Range.start_mem (hs.nonempty range hrange)
    have hmem : range.start ∈ rangeSet shape.revealed := by
      rw [← heq]
      exact Finset.mem_union_right _ (mem_rangeSet.mpr ⟨range, hrange, hstart⟩)
    obtain ⟨revealed, hrevealed, hin⟩ := mem_rangeSet.mp hmem
    exact ((List.pairwise_append.mp hs.disjoint).2.2 revealed hrevealed range hrange).notMem hin
      hstart

/-- What a presentation shows is expected if it shows nothing hidden and the structure is that of
the layout. -/
theorem reveals_iff_structured (hs : shape.Apart) (hne : shape.hidden ≠ [])
    (hline : utf8 (shape.requestLine ++ "\r\n") <+: x.sent) {t : PartialTranscript}
    (hsent : t.sentAuthed = (buildPresentation shape revealHidden).1)
    (hreceived : t.receivedAuthed = (buildPresentation shape revealHidden).2)
    (hsentEq : ∀ i ∈ (buildPresentation shape revealHidden).1, t.sent[i]? = x.sent[i]?)
    (hreceivedEq : ∀ i ∈ (buildPresentation shape revealHidden).2,
      t.received[i]? = x.received[i]?) :
    t.Reveals shape ↔ revealHidden = false ∧
      ∀ range ∈ shape.revealed, range.part x.received = range.part shape.template := by
  have hstructured (hshown : revealHidden = false) :
      (∀ range ∈ shape.revealed, range.part t.received = range.part shape.template) ↔
        ∀ range ∈ shape.revealed, range.part x.received = range.part shape.template := by
    refine forall₂_congr fun range hrange => ?_
    rw [part_congr fun i hi => hreceivedEq i ?_]
    rw [(shown_eq_iff hs hne).mpr hshown]
    exact mem_rangeSet.mpr ⟨range, hrange, hi⟩
  constructor
  · intro h
    have hshown := (shown_eq_iff hs hne).mp (hreceived.symm.trans h.receivedAuthed)
    exact ⟨hshown, (hstructured hshown).mp h.structured⟩
  · rintro ⟨hshown, hparts⟩
    refine ⟨hsent, List.prefix_iff_getElem?.mpr fun i hi => ?_,
      hreceived.trans ((shown_eq_iff hs hne).mpr hshown), (hstructured hshown).mpr hparts⟩
    rw [hsentEq i (Finset.mem_Ico.mpr ⟨Nat.zero_le _, hi⟩)]
    exact List.prefix_iff_getElem?.mp (requestLine_begins hline) i hi

/-- What is committed to is expected, with the hashes of the openings. -/
theorem commits_iff_openings (hs : shape.Apart) (hsec : Secrets shape secrets)
    {commitments : List CommittedHash}
    (h : List.Forall₂ (fun secret c => secret.Commits sha256 x c) secrets commitments)
    {openings : List FieldOpening}
    (hopenings : List.Forall₂ (fun range out => opening x secrets range = .ok out) shape.hidden
      openings) {hashes : List Bytes32} :
    Commits commitments shape hashes ↔
      hashes.map wordBytes = openings.map fun out => out.commitment sha256 := by
  have hhashes := forall₂_iff_map_eq hopenings
    (fun range out hout w => commitment_iff hs hsec h hout w) hashes
  refine ⟨fun hcommits => hhashes.mp hcommits.hashes, fun hmap =>
    ⟨map_key_perm hsec h, fun c hc => ?_, hhashes.mpr hmap⟩⟩
  obtain ⟨_, -, -, -, halg, -⟩ := exists_of_forall₂_right h hc
  exact halg

/-- What the verifier makes of the presentation of a notarised exchange. -/
theorem presented_eq_ok (hs : shape.Apart) (hne : shape.hidden ≠ []) {notarized : NotarizedShape}
    (hsec : Secrets shape notarized.secrets) (hlen : x.received.length = shape.len)
    (hline : utf8 (shape.requestLine ++ "\r\n") <+: x.sent)
    (hopenings : List.Forall₂ (fun range out => opening x notarized.secrets range = .ok out)
      shape.hidden notarized.openings)
    (h : output.Presents sha256 shape.serverName x notarized.secrets tAtt time
      (buildPresentation shape revealHidden))
    (hfits : tAtt.toNat + 5 < 2 ^ 64) {build : Build} {maxSessionSecs : Uint64}
    {attested : AttestedShape} :
    checkOutput build output shape maxSessionSecs = .ok attested ↔
      revealHidden = false ∧ shape.len < 2 ^ 32 ∧
        (∀ range ∈ shape.revealed, range.part x.received = range.part shape.template) ∧
        time.toNat ≤ tAtt.toNat + 5 ∧ tAtt.toNat ≤ time.toNat + maxSessionSecs.toNat ∧
        attested.tAtt = tAtt ∧ attested.hiddenHashes.map wordBytes =
          notarized.openings.map fun out => out.commitment sha256 := by
  have htAtt := h.tAttOf_eq
  obtain ⟨t, ht, hsent, hreceived, hsentEq, hreceivedEq⟩ := h.transcript
  obtain ⟨commitments, hcs, hcommits⟩ := h.commitments
  have hreceivedLen : output.received.toNat = shape.len ↔ shape.len < 2 ^ 32 := by
    rw [h.received, hlen, BitVec.toNat_ofNat]
    exact ⟨fun heq => heq ▸ Nat.mod_lt _ (by decide), Nat.mod_eq_of_lt⟩
  have hreveals := reveals_iff_structured hs hne hline hsent hreceived hsentEq hreceivedEq
  have hcommitted : Commits commitments shape attested.hiddenHashes ↔ _ :=
    commits_iff_openings hs hsec hcommits hopenings
  rw [checkOutput_eq_ok hs fun tAtt' htAtt' => by
    rw [← Except.ok.inj (htAtt.symm.trans htAtt')]
    exact hfits]
  constructor
  · intro hacc
    obtain ⟨t', ht', hshows⟩ := hacc.reveals
    obtain rfl := Option.some.inj (ht.symm.trans ht')
    obtain ⟨cs', hcs', hopens⟩ := hacc.commits
    obtain rfl := Option.some.inj (hcs.symm.trans hcs')
    obtain ⟨hshown, hparts⟩ := hreveals.mp hshows
    have htime : attested.tAtt = tAtt :=
      Except.ok.inj ((tAttOf_eq_ok.mpr hacc.tAtt).symm.trans htAtt)
    have hbefore := hacc.notBefore
    have hafter := hacc.notAfter
    rw [htime, h.connectionTime] at hbefore hafter
    exact ⟨hshown, hreceivedLen.mp hacc.received, hparts, hbefore, hafter, htime,
      hcommitted.mp hopens⟩
  · rintro ⟨hshown, hlt, hparts, hbefore, hafter, htime, hmap⟩
    exact {
      identity := h.serverName
      tAtt := tAttOf_eq_ok.mp (htime ▸ htAtt)
      notBefore := by rw [htime, h.connectionTime]; exact hbefore
      notAfter := by rw [htime, h.connectionTime]; exact hafter
      received := hreceivedLen.mpr hlt
      reveals := ⟨t, ht, hreveals.mpr ⟨hshown, hparts⟩⟩
      commits := ⟨commitments, hcs, hcommitted.mpr hmap⟩ }

/-- Every commitment that a session makes can be presented. -/
theorem exists_presents (hs : shape.Apart) (hsec : Secrets shape secrets)
    (hlen : x.received.length = shape.len) (hlt : shape.len < 2 ^ 32)
    (hline : utf8 (shape.requestLine ++ "\r\n") <+: x.sent) :
    ∃ output : PresentationOutput, output.Presents sha256 shape.serverName x secrets tAtt time
      (buildPresentation shape revealHidden) := by
  have hcommits : ∀ secret ∈ secrets, ∃ c, secret.Commits sha256 x c := by
    intro secret hsecret
    have hkey : (secret.direction, secret.idx) ∈ commitConfig shape :=
      hsec.perm.mem_iff.mp (List.mem_map_of_mem hsecret)
    obtain ⟨m, hm⟩ := Exchange.exists_plaintext (commitConfig_lt hs hline hlen hkey)
    exact ⟨⟨secret.direction, secret.idx, .SHA256, sha256 (m ++ secret.blinder)⟩, rfl, rfl, rfl, m,
      hm, rfl⟩
  obtain ⟨commitments, hforall⟩ := exists_forall₂ hcommits
  let t : PartialTranscript := {
    sent := x.sent
    received := x.received
    sentAuthed := (buildPresentation shape revealHidden).1
    receivedAuthed := (buildPresentation shape revealHidden).2
    sent_within := fun i hi => requestLine_lt hline hi }
  refine ⟨{
    serverName := some shape.serverName
    connectionTime := time
    received := BitVec.ofNat 32 x.received.length
    extensions := [⟨T_ATT_EXTENSION_ID, (littleEndian 8 tAtt.toNat).reverse⟩]
    transcript := some t
    commitments := some commitments
    received_length := fun t' ht' => ?_ }, rfl, rfl, rfl, rfl,
    ⟨t, rfl, rfl, rfl, fun _ _ => rfl, fun _ _ => rfl⟩, commitments, rfl, hforall⟩
  obtain rfl := Option.some.inj ht'
  rw [BitVec.toNat_ofNat]
  exact (Nat.mod_eq_of_lt (hlen ▸ hlt)).symm

end

/-! ## Sessions about records -/

/-- A response that follows a layout. -/
structure ResponseShape.Follows (shape : ResponseShape) (bytes : Bytes) : Prop where
  length : bytes.length = shape.len
  structured : ∀ range ∈ shape.revealed, range.part bytes = range.part shape.template

/-- A rendered title follows its layout. -/
theorem Layout.follows {l : Layout} (hl : l.validate = .ok ()) {propertyId : String}
    {shape : ResponseShape} (hshape : l.shape propertyId = .ok shape) {account : String}
    {record : TitleRecord} {r : Rendered} (hr : l.renderResponse account record = .ok r) :
    shape.Follows r.bytes ∧ shape.requestLine = l.requestLine propertyId ∧
      shape.revealed = r.ranges.revealed ∧ shape.hidden = r.ranges.hidden := by
  obtain ⟨t, ht, hok⟩ := bind_eq_ok.mp hshape
  have hlen := (ResponseShape.OfLayout.title hl hshape).apart.length
  have hranges := Layout.ranges_eq_ranges hl ht hr
  have hfilled := Layout.filled hl hr
  have hfilledT := Layout.filled hl ht
  cases hok
  refine ⟨⟨(hfilled.length.trans hfilledT.length.symm).trans hlen, fun range hrange => ?_⟩,
    rfl, congrArg ResponseRanges.revealed hranges, congrArg ResponseRanges.hidden hranges⟩
  exact hfilled.part_eq hfilledT (hranges ▸ hrange)

theorem RecordLayout.follows {l : RecordLayout} (hl : l.validate = .ok ()) {subject : String}
    {shape : ResponseShape} (hshape : l.shape subject = .ok shape) {account : String}
    {values : List String} {r : RenderedRecord} (hr : l.renderResponse account values = .ok r) :
    shape.Follows r.bytes ∧ shape.requestLine = l.requestLine subject ∧
      shape.revealed = r.ranges.revealed ∧ shape.hidden = r.ranges.hidden := by
  obtain ⟨t, ht, hok⟩ := bind_eq_ok.mp hshape
  have hlen := (ResponseShape.OfLayout.record hl hshape).apart.length
  have hranges := RecordLayout.ranges_eq_ranges hl ht hr
  have hfilled := RecordLayout.filled hl hr
  have hfilledT := RecordLayout.filled hl ht
  cases hok
  refine ⟨⟨(hfilled.length.trans hfilledT.length.symm).trans hlen, fun range hrange => ?_⟩,
    rfl, congrArg RecordRanges.revealed hranges, congrArg RecordRanges.hidden hranges⟩
  exact hfilled.part_eq hfilledT (hranges ▸ hrange)

/-- What a session commits to. -/
def committedTexts (shape : ResponseShape) (x : Exchange) : List Bytes :=
  utf8 shape.requestLine :: (shape.revealed.flatMap fun range => range.part x.received) ::
    shape.hidden.map fun range => range.part x.received

section

variable {shape : ResponseShape} {x : Exchange}

theorem map_plaintext_commitConfig (hs : shape.OfLayout) (hlen : x.received.length = shape.len)
    (hline : utf8 (shape.requestLine ++ "\r\n") <+: x.sent) :
    (commitConfig shape).map (fun key => x.plaintext key.1 key.2) =
      (committedTexts shape x).map some := by
  rw [commitConfig, committedTexts, List.map_append, List.map_cons, List.map_cons, List.map_nil,
    plaintext_requestLine hline, plaintext_revealed hs hlen, List.map_cons, List.map_cons,
    List.cons_append, List.cons_append, List.nil_append, List.map_map, List.map_map]
  refine congrArg (fun l => _ :: _ :: l) (List.map_congr_left fun range hrange => ?_)
  exact Exchange.plaintext_set (hs.apart.within_received hlen (List.mem_append_right _ hrange))

/-- Secrets with given blinders. -/
def secretsOf (config : List (Direction × Finset ℕ)) (blinders : List Bytes) :
    List TranscriptSecret :=
  List.zipWith (fun key b => ⟨key.1, key.2, b⟩) config blinders

theorem mem_committed (hs : shape.OfLayout) (hlen : x.received.length = shape.len)
    (hline : utf8 (shape.requestLine ++ "\r\n") <+: x.sent) {blinders : List Bytes}
    {secret : TranscriptSecret} (hsecret : secret ∈ secretsOf (commitConfig shape) blinders)
    {m : Bytes}
    (hm : x.plaintext secret.direction secret.idx = some m) :
    m ++ secret.blinder ∈ List.zipWith (· ++ ·) (committedTexts shape x) blinders := by
  have hmap := map_plaintext_commitConfig hs hlen hline
  obtain ⟨i, hi, rfl⟩ := List.mem_iff_getElem.mp hsecret
  have hi' := hi
  rw [secretsOf, List.length_zipWith, lt_min_iff] at hi'
  have hlength : (committedTexts shape x).length = (commitConfig shape).length := by
    rw [← List.length_map, ← hmap, List.length_map]
  have hget := congrArg (fun l => l[i]?) hmap
  simp only [List.getElem?_map, List.getElem?_eq_getElem hi'.1,
    List.getElem?_eq_getElem (hlength ▸ hi'.1), Option.map_some, Option.some.injEq] at hget
  simp only [secretsOf, List.getElem_zipWith] at hm ⊢
  obtain rfl := Option.some.inj (hm.symm.trans hget)
  refine List.mem_iff_getElem.mpr ⟨i, ?_, by rw [List.getElem_zipWith]⟩
  rw [List.length_zipWith, lt_min_iff, hlength]
  exact hi'

/-- Hidden values are opened with the blinders after the first two. -/
theorem openings_eq (hs : shape.OfLayout) (hlen : x.received.length = shape.len)
    {first second : Bytes} {rest : List Bytes} (hrest : rest.length = shape.hidden.length)
    (hsec : Secrets shape (secretsOf (commitConfig shape) (first :: second :: rest))) :
    shape.hidden.mapM (opening x (secretsOf (commitConfig shape) (first :: second :: rest))) =
      .ok (List.zipWith (fun range b => ⟨range, range.part x.received, b⟩) shape.hidden rest) := by
  refine mapM_eq_ok.mpr (List.forall₂_iff_get.mpr ⟨by simp [hrest], fun i hi hi' => ?_⟩)
  simp only [List.get_eq_getElem, List.getElem_zipWith]
  have hwithin := hs.apart.within_received hlen (List.mem_append_right _ (List.getElem_mem hi))
  refine (opening_eq_ok hs.apart hsec).mpr ⟨hwithin, rfl, rfl, ?_⟩
  refine List.mem_cons_of_mem _ (List.mem_cons_of_mem _ (List.mem_iff_getElem.mpr ⟨i, ?_, ?_⟩))
  · simpa [hrest] using hi
  · rw [List.getElem_zipWith]
    simp

end

/-- The session about a response that follows its layout, if the library proves with given blinders,
is notarised and accepted. -/
theorem exists_session {shape : ResponseShape} {x : Exchange} (hs : shape.OfLayout)
    (hlt : shape.len < 2 ^ 32) (hline : utf8 (shape.requestLine ++ "\r\n") <+: x.sent)
    (hfollows : shape.Follows x.received) (first second : Bytes) (rest : List Bytes)
    (hlen : rest.length = shape.hidden.length)
    {prove : List (Direction × Finset ℕ) → Option (List TranscriptSecret)} (hprove : Proves prove)
    (hsecrets : prove (commitConfig shape) =
      some (secretsOf (commitConfig shape) (first :: second :: rest)))
    (tAtt time maxSessionSecs : Uint64) (hfits : tAtt.toNat + 5 < 2 ^ 64)
    (hbefore : time.toNat ≤ tAtt.toNat + 5)
    (hafter : tAtt.toNat ≤ time.toNat + maxSessionSecs.toNat) (word : Bytes → Bytes32) :
    ∃ (notarized : NotarizedShape) (output : PresentationOutput),
      notarizeExchange prove shape x = .ok notarized ∧
      output.Presents (fun m => wordBytes (word m)) shape.serverName x notarized.secrets tAtt time
        (buildPresentation shape false) ∧
      (∀ build, checkOutput build output shape maxSessionSecs = .ok ⟨tAtt,
        List.zipWith (fun value b => word (value ++ b))
          (shape.hidden.map fun range => range.part x.received) rest⟩) ∧
      output.About (fun m => wordBytes (word m))
        {m | m ∈ List.zipWith (· ++ ·) (committedTexts shape x) (first :: second :: rest)} x := by
  obtain ⟨notarized, hnotarized⟩ := Notarises.exists_ok hprove hs.apart
    ⟨hline, hfollows.length, by rw [hsecrets]; rfl⟩
  obtain ⟨-, hproved, hopenings, -, -⟩ := notarizeExchange_eq_ok hnotarized
  have hsec := Secrets.of_prove hprove hs.apart hproved
  have hzip : notarized.secrets = secretsOf (commitConfig shape) (first :: second :: rest) :=
    Option.some.inj (hproved.symm.trans hsecrets)
  obtain ⟨output, hpresents⟩ := exists_presents hs.apart hsec hfollows.length hlt hline
  have hopened : notarized.openings =
      List.zipWith (fun range b => ⟨range, range.part x.received, b⟩) shape.hidden rest :=
    Except.ok.inj ((mapM_eq_ok.mpr hopenings).symm.trans
      (hzip ▸ openings_eq hs hfollows.length hlen (hzip ▸ hsec)))
  refine ⟨notarized, output, hnotarized, hpresents, fun build => ?_, ?_⟩
  · refine (presented_eq_ok hs.apart hs.hidden_ne_nil hsec hfollows.length hline hopenings hpresents
      hfits).mpr ⟨rfl, hlt, hfollows.structured, hbefore, hafter, rfl, ?_⟩
    rw [hopened, List.zipWith_map_left, List.map_zipWith, List.map_zipWith]
    rfl
  · exact hpresents.about hsec (hfollows.length ▸ hlt) fun secret hsecret m hm =>
      mem_committed hs hfollows.length hline (hzip ▸ hsecret) hm

/-- The session about a record commits to the keys and to the padded values. -/
theorem RecordLayout.committedTexts_eq {l : RecordLayout} (hl : l.validate = .ok ())
    {subject : String}
    {shape : ResponseShape} (hshape : l.shape subject = .ok shape) {account : String}
    {values : List String} {r : RenderedRecord} (hr : l.renderResponse account values = .ok r)
    (sent : Bytes) : committedTexts shape ⟨sent, r.bytes⟩ = utf8 (l.requestLine subject) ::
      (Template.markedTexts l.pieces).flatten :: l.written account values := by
  obtain ⟨-, hline, hrevealed, hhidden⟩ := RecordLayout.follows hl hshape hr
  have hfilled := RecordLayout.filled hl hr
  rw [committedTexts, hline, hrevealed, hhidden, hfilled.map_values, List.flatMap_def,
    hfilled.map_revealed]

/-! ## The session of a title -/

namespace Vectors

/-- A library that proves with given blinders. -/
def prover (blinders : List Bytes) (config : List (Direction × Finset ℕ)) :
    Option (List TranscriptSecret) :=
  if config.length = blinders.length ∧ ∀ b ∈ blinders, b.length = 16 then
    some (secretsOf config blinders)
  else none

theorem prover_eq_some {blinders : List Bytes} {config : List (Direction × Finset ℕ)}
    {secrets : List TranscriptSecret} : prover blinders config = some secrets ↔
      (config.length = blinders.length ∧ ∀ b ∈ blinders, b.length = 16) ∧
        secretsOf config blinders = secrets := by
  unfold prover
  split_ifs with h
  · rw [Option.some.injEq, and_iff_right h]
  · simp only [h, false_and]

theorem prover_proves (blinders : List Bytes) : Proves (prover blinders) where
  perm config secrets _ h := by
    obtain ⟨⟨hlen, -⟩, rfl⟩ := prover_eq_some.mp h
    rw [secretsOf, List.map_zipWith]
    refine .of_eq (List.ext_getElem (by simp [hlen]) fun i hi hi' => ?_)
    rw [List.getElem_zipWith]
  blinder config secrets h secret hsecret := by
    obtain ⟨⟨-, hblinders⟩, rfl⟩ := prover_eq_some.mp h
    obtain ⟨i, hi, rfl⟩ := List.mem_iff_getElem.mp hsecret
    simp only [secretsOf, List.getElem_zipWith]
    exact hblinders _ (List.getElem_mem _)

/-- SHA-256 on what the session of a title commits to, each with a blinder that repeats its
position. -/
def sessionTexts : List (Bytes × Bytes32) :=
  [(utf8 "GET /title/TR-06-CANKAYA-000123 HTTP/1.1" ++ List.replicate 16 0,
      0x369c3c2f4ad43f9ddf026afb43266357f54295f2ade25dd6dd13e029010fae40),
    (utf8 ("HTTP/1.1 200 OKContent-Type: application/json\"account\":\"record\":\"propertyId\":" ++
      "\"owners\":\"encumbrance\":\"assessedValue\":\"recordDate\":") ++ List.replicate 16 1,
      0xe81ec178705d1593cd0debedf4fbcf7c06c1793847104214acb9668986e7f1e5),
    (utf8 account ++ List.replicate 16 2,
      0xca19083a9253cb1732a002278bb1c7f38e3b00415a1523dec84bf58d6bc67154),
    (utf8 ownersText ++ List.replicate 16 3,
      0xba77d562c787c3d8a572ba00625510f370cd4269b4a1e96f29239796050257dd),
    (utf8 titleRecord.propertyId ++ List.replicate 16 4,
      0x9a0f204f32396d3c3dd6d010fb887ddad62297263fc3953502c63347baa4a5fb)]

def sessionWord (m : Bytes) : Bytes32 := (sessionTexts.lookup m).getD 0

def titleBlinders : List Bytes := (List.range 5).map fun i => List.replicate 16 (UInt8.ofNat i)

def titleSent : Bytes :=
  utf8 ("GET /title/TR-06-CANKAYA-000123 HTTP/1.1\r\nauthorization: Bearer " ++
    "abababababababababababababababababababababababababababababababab\r\n\r\n")

/-- What the session of a title commits to. -/
theorem title_committed {shape : ResponseShape} {r : Rendered}
    (hshape : titleLayout.shape titleRecord.propertyId = .ok shape)
    (hr : titleLayout.renderResponse account titleRecord = .ok r) :
    committedTexts shape ⟨titleSent, r.bytes⟩ = [utf8 "GET /title/TR-06-CANKAYA-000123 HTTP/1.1",
      utf8 ("HTTP/1.1 200 OKContent-Type: application/json\"account\":\"record\":\"propertyId\":" ++
        "\"owners\":\"encumbrance\":\"assessedValue\":\"recordDate\":"),
      utf8 account, utf8 ownersText, utf8 titleRecord.propertyId] := by
  obtain ⟨-, hline, hrevealed, hhidden⟩ := Layout.follows titleLayout_valid hshape hr
  rw [committedTexts, hline, hrevealed, hhidden, (eq_rendering titleLayout_valid hr).2]
  decide +kernel

/-- The session of the owner of the committed layout's example. -/
theorem exists_titleSession (word : Bytes → Bytes32) : ∃ (shape : ResponseShape) (r : Rendered)
      (notarized : NotarizedShape) (output : PresentationOutput), shape.OfLayout ∧
    titleLayout.shape titleRecord.propertyId = .ok shape ∧
    titleLayout.renderResponse account titleRecord = .ok r ∧ shape.len < 2 ^ 32 ∧
    shape.Follows r.bytes ∧
    notarizeExchange (prover titleBlinders) shape ⟨titleSent, r.bytes⟩ = .ok notarized ∧
    output.Presents (fun m => wordBytes (word m)) shape.serverName ⟨titleSent, r.bytes⟩
      notarized.secrets 1760000000 1759999970 (buildPresentation shape false) ∧
    (∀ build, checkOutput build output shape 300 = .ok ⟨1760000000,
      [word (utf8 account ++ List.replicate 16 2), word (utf8 ownersText ++ List.replicate 16 3),
        word (utf8 titleRecord.propertyId ++ List.replicate 16 4)]⟩) ∧
    output.About (fun m => wordBytes (word m)) {m | m ∈ sessionTexts.map Prod.fst}
      ⟨titleSent, r.bytes⟩ := by
  obtain ⟨r, hr⟩ := exists_title
  obtain ⟨t, ht⟩ := Layout.exists_template titleLayout_valid
  obtain ⟨shape, hshape⟩ : ∃ shape, titleLayout.shape titleRecord.propertyId = .ok shape :=
    ⟨_, bind_eq_ok.mpr ⟨t, ht, rfl⟩⟩
  have hs : shape.OfLayout := .title titleLayout_valid hshape
  obtain ⟨hfollows, hline, -, hhidden⟩ := Layout.follows titleLayout_valid hshape hr
  have hlt : shape.len < 2 ^ 32 := by
    rw [← hfollows.length, (Layout.filled titleLayout_valid hr).length]
    decide +kernel
  have htexts := title_committed hshape hr
  have hvalues := (List.cons.inj (List.cons.inj htexts).2).2
  have hsent : utf8 (shape.requestLine ++ "\r\n") <+: titleSent := by
    rw [hline]
    decide +kernel
  have hproved : prover titleBlinders (commitConfig shape) =
      some (secretsOf (commitConfig shape) titleBlinders) := by
    refine prover_eq_some.mpr ⟨⟨?_, by decide⟩, rfl⟩
    rw [commitConfig, hhidden]
    rfl
  obtain ⟨notarized, output, hnotarized, hpresents, hchecked, habout⟩ :=
    exists_session (x := ⟨titleSent, r.bytes⟩) hs hlt hsent hfollows (List.replicate 16 0)
      (List.replicate 16 1) (titleBlinders.drop 2) (by rw [hhidden]; rfl)
      (prover_proves titleBlinders) hproved 1760000000 1759999970 300 (by decide) (by decide)
      (by decide) word
  refine ⟨shape, r, notarized, output, hs, hshape, hr, hlt, hfollows, hnotarized, hpresents,
    fun build => ?_, ?_⟩
  · rw [hchecked build, hvalues]
    rfl
  · rw [htexts] at habout
    exact habout

end Vectors

/-! ## Presentations and exchanges -/

/-- The library verifies a presentation with the roots that are trusted. -/
def AttestationLibrary.Verifies {Presentation VerifyingKey : Type}
    (library : AttestationLibrary Presentation VerifyingKey) (rootCerts : List Bytes)
    (presentation : Presentation) (output : PresentationOutput) : Prop :=
  ∃ verify, library.provider rootCerts = some verify ∧ verify presentation = some output

theorem checkShape_eq_ok {Presentation VerifyingKey : Type} [DecidableEq VerifyingKey]
    {library : AttestationLibrary Presentation VerifyingKey} {build : Build}
    {presentation : Presentation} {exp : ShapeExpectation VerifyingKey} {attested : AttestedShape} :
    checkShape library build presentation exp = .ok attested ↔
      library.verifyingKey presentation = exp.attestationKey ∧
        ∃ output, library.Verifies exp.rootCerts presentation output ∧
          checkOutput build output exp.shape exp.maxSessionSecs = .ok attested := by
  simp only [checkShape, bind_eq_ok, ensure_eq_ok, context_eq_ok, exists_const,
    AttestationLibrary.Verifies]
  constructor
  · rintro ⟨hkey, verify, hverify, output, houtput, hcheck⟩
    exact ⟨hkey, output, ⟨verify, hverify, houtput⟩, hcheck⟩
  · rintro ⟨hkey, output, ⟨verify, hverify, houtput⟩, hcheck⟩
    exact ⟨hkey, verify, hverify, output, houtput, hcheck⟩

/-- **What the verifier accepts shows the layout.** For a shape of a valid layout the check of a
presentation takes no slice out of bounds, and accepts exactly the presentations of the trusted key
that verify and that reveal and commit to what the layout says, no more and no less. An exchange
that such a presentation is about then has the request line, the length and the structure of the
layout, and the hashes that are returned open to its hidden values. -/
theorem checked_presentation {Presentation VerifyingKey : Type} [DecidableEq VerifyingKey]
    (library : AttestationLibrary Presentation VerifyingKey) (build : Build)
    (presentation : Presentation) (exp : ShapeExpectation VerifyingKey) (hs : exp.shape.OfLayout)
    (hfits : ∀ output, library.Verifies exp.rootCerts presentation output →
      ∀ tAtt, tAttOf output = .ok tAtt → tAtt.toNat + 5 < 2 ^ 64) :
    checkShape library build presentation exp ≠ .error .panic ∧
    ∀ attested, (checkShape library build presentation exp = .ok attested ↔
        library.verifyingKey presentation = exp.attestationKey ∧
          ∃ output, library.Verifies exp.rootCerts presentation output ∧
            output.Accepted exp.shape exp.maxSessionSecs attested) ∧
      (checkShape library build presentation exp = .ok attested →
        ∀ (sha256 : Bytes → Bytes) (S : Set Bytes) (x : Exchange),
          (∀ output, library.Verifies exp.rootCerts presentation output →
            output.About sha256 S x) → x.Has sha256 S exp.shape attested.hiddenHashes) := by
  have haccepted {output : PresentationOutput} {attested : AttestedShape}
      (hverifies : library.Verifies exp.rootCerts presentation output) :
      checkOutput build output exp.shape exp.maxSessionSecs = .ok attested ↔
        output.Accepted exp.shape exp.maxSessionSecs attested :=
    checkOutput_eq_ok hs.apart (hfits output hverifies)
  refine ⟨?_, fun attested => ⟨?_, fun hok sha256 S x habout => ?_⟩⟩
  · unfold checkShape
    exact bind_ne (ensure_ne (by simp)) fun _ _ => bind_ne (context_ne (by simp)) fun _ _ =>
      bind_ne (context_ne (by simp)) fun _ _ => checkOutput_ne_panic hs.apart _ _
  · rw [checkShape_eq_ok]
    exact and_congr_right fun _ => exists_congr fun output => and_congr_right haccepted
  · obtain ⟨-, output, hverifies, hcheck⟩ := checkShape_eq_ok.mp hok
    exact ((haccepted hverifies).mp hcheck).has hs.apart (habout output hverifies)

open Vectors in
/-- The presentation of the title is accepted, and shows its structure. -/
theorem checked_presentation_title : ∃ (shape : ResponseShape) (x : Exchange)
      (library : AttestationLibrary Unit ℕ) (attested : AttestedShape),
    titleLayout.shape titleRecord.propertyId = .ok shape ∧
    checkShape library .release () ⟨shape, 7, [], 300⟩ = .ok attested ∧
    attested.tAtt = 1760000000 ∧ attested.hiddenHashes.length = 3 ∧
    x.Has (fun m => wordBytes (sessionWord m)) {m | m ∈ sessionTexts.map Prod.fst} shape
      attested.hiddenHashes := by
  obtain ⟨shape, r, notarized, output, hs, hshape, -, -, -, -, hpresents, hchecked, habout⟩ :=
    exists_titleSession sessionWord
  let library : AttestationLibrary Unit ℕ := ⟨fun _ => 7, fun _ => some fun _ => some output⟩
  have hverifies {output' : PresentationOutput} (h : library.Verifies [] () output') :
      output' = output := by
    obtain ⟨_, ⟨⟩, ⟨⟩⟩ := h
    rfl
  have hcheck : checkShape library .release () ⟨shape, 7, [], 300⟩ = .ok _ :=
    checkShape_eq_ok.mpr ⟨rfl, output, ⟨_, rfl, rfl⟩, hchecked .release⟩
  obtain ⟨-, hiff⟩ := checked_presentation library .release () ⟨shape, 7, [], 300⟩ hs
    fun output' h tAtt htAtt => by
      obtain rfl := hverifies h
      rw [← Except.ok.inj (hpresents.tAttOf_eq.symm.trans htAtt)]
      decide
  refine ⟨shape, ⟨titleSent, r.bytes⟩, library, _, hshape, hcheck, rfl, rfl,
    (hiff _).2 hcheck _ _ _ fun output' h => ?_⟩
  obtain rfl := hverifies h
  exact habout

/-- **A notarised exchange is accepted as it is.** The prover's session commits to what the verifier
expects: it stops only if the transcript does not follow the layout or the library fails, and its
openings are of the request line, of what is revealed and of the hidden values. What the library
makes of it is accepted exactly if nothing hidden is revealed, the revealed bytes are those of the
layout, and the time fits; the hashes that are returned are then those of the openings. -/
theorem notarized_accepted {shape : ResponseShape} (hs : shape.OfLayout)
    {prove : List (Direction × Finset ℕ) → Option (List TranscriptSecret)} (hprove : Proves prove)
    (x : Exchange) (sha256 : Bytes → Bytes) :
    ((∃ notarized, notarizeExchange prove shape x = .ok notarized) ↔ Notarises prove shape x) ∧
    (∀ e, notarizeExchange prove shape x = .error e →
      e = .requestLine ∨ e = .length x.received.length shape.len ∨ e = .prove) ∧
    ∀ notarized, notarizeExchange prove shape x = .ok notarized →
      notarized.request.plaintext = utf8 shape.requestLine ∧
      notarized.structured.plaintext = shape.revealed.flatMap (fun range => range.part x.received) ∧
      notarized.openings.map (·.plaintext) = shape.hidden.map (fun range => range.part x.received) ∧
      ∀ (build : Build) (maxSessionSecs tAtt time : Uint64) (revealHidden : Bool)
        (output : PresentationOutput) (attested : AttestedShape), tAtt.toNat + 5 < 2 ^ 64 →
        output.Presents sha256 shape.serverName x notarized.secrets tAtt time
          (buildPresentation shape revealHidden) →
        (checkOutput build output shape maxSessionSecs = .ok attested ↔
          revealHidden = false ∧ shape.len < 2 ^ 32 ∧
          (∀ range ∈ shape.revealed, range.part x.received = range.part shape.template) ∧
          time.toNat ≤ tAtt.toNat + 5 ∧ tAtt.toNat ≤ time.toNat + maxSessionSecs.toNat ∧
          attested.tAtt = tAtt ∧ attested.hiddenHashes.map wordBytes =
            notarized.openings.map fun out => out.commitment sha256) := by
  refine ⟨⟨fun ⟨_, hok⟩ => (notarizeExchange_eq_ok hok).1, fun h => h.exists_ok hprove hs.apart⟩,
    fun e he => notarizeExchange_error hprove hs.apart he, fun notarized hok => ?_⟩
  obtain ⟨hnotarises, hsecrets, hopenings, hrequest, hstructured⟩ := notarizeExchange_eq_ok hok
  have hsec := Secrets.of_prove hprove hs.apart hsecrets
  refine ⟨?_, ?_, ?_, ?_⟩
  · have hplain := ((committedOpening_eq_ok hs.apart hsec).mp hrequest).2
    exact Option.some.inj (hplain.symm.trans (plaintext_requestLine hnotarises.requestLine))
  · have hplain := ((committedOpening_eq_ok hs.apart hsec).mp hstructured).2
    exact Option.some.inj (hplain.symm.trans (plaintext_revealed hs hnotarises.length))
  · have hparts : (shape.hidden.map fun range => range.part x.received) =
        notarized.openings.map (·.plaintext) :=
      map_eq_of_forall₂ hopenings fun _ _ hout =>
        ((opening_eq_ok hs.apart hsec).mp hout).2.2.1.symm
    exact hparts.symm
  · intro build maxSessionSecs tAtt time revealHidden output attested hfits hpresents
    exact presented_eq_ok hs.apart hs.hidden_ne_nil hsec hnotarises.length hnotarises.requestLine
      hopenings hpresents hfits

open Vectors in
/-- The session of the title ends in hashes of its three hidden values. -/
theorem notarized_accepted_title : ∃ (shape : ResponseShape) (r : Rendered)
      (notarized : NotarizedShape) (output : PresentationOutput) (attested : AttestedShape),
    titleLayout.shape titleRecord.propertyId = .ok shape ∧
    titleLayout.renderResponse account titleRecord = .ok r ∧
    notarizeExchange (prover titleBlinders) shape ⟨titleSent, r.bytes⟩ = .ok notarized ∧
    checkOutput .release output shape 300 = .ok attested ∧ attested.tAtt = 1760000000 ∧
    attested.hiddenHashes.map wordBytes =
      notarized.openings.map fun out => out.commitment fun m => wordBytes (sessionWord m) := by
  obtain ⟨shape, r, notarized, output, hs, hshape, hr, -, -, hok, hpresents, hchecked, -⟩ :=
    exists_titleSession sessionWord
  obtain ⟨-, -, haccepted⟩ := notarized_accepted hs (prover_proves titleBlinders)
    ⟨titleSent, r.bytes⟩ fun m => wordBytes (sessionWord m)
  obtain ⟨-, -, -, hiff⟩ := haccepted notarized hok
  obtain ⟨-, -, -, -, -, -, hhashes⟩ :=
    (hiff .release 300 _ _ _ output _ (by decide) hpresents).mp (hchecked .release)
  exact ⟨shape, r, notarized, output, _, hshape, hr, hok, hchecked .release, rfl, hhashes⟩

end Pprev
