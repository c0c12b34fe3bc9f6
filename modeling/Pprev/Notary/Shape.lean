import Mathlib.Data.List.Nodup
import Mathlib.Data.List.Perm.Subperm
import Pprev.Baseline.Times
import Pprev.Notary.Places
import Pprev.Notary.PolicyVerifier

/-!
# The check of a presentation

`check_shape` of `presentation.rs`, over what the attestation library makes of a presentation. A
presentation is accepted exactly if it reveals the request line and the structure of the response
and nothing else, and commits to these and to each hidden range once.
-/

namespace Pprev

open Evm Slice

/-! ## What the library returns -/

/-- An identifier of a hash algorithm. -/
abbrev HashAlgId := UInt8

def HashAlgId.SHA256 : HashAlgId := 1

/-- A transcript commitment as the attestation body records it. -/
structure CommittedHash where
  direction : Direction
  idx : Finset ℕ
  alg : HashAlgId
  hash : Bytes

structure Extension where
  id : Bytes
  value : Bytes

/-- The two sides of a transcript, of which only some positions are authenticated. -/
structure PartialTranscript where
  sent : Bytes
  received : Bytes
  sentAuthed : Finset ℕ
  receivedAuthed : Finset ℕ
  sent_within : ∀ i ∈ sentAuthed, i < sent.length

/-- What a verified presentation says. -/
structure PresentationOutput where
  /-- The DNS name of the server, if it was verified. -/
  serverName : Option String
  connectionTime : Uint64
  /-- The number of bytes received. -/
  received : BitVec 32
  extensions : List Extension
  transcript : Option PartialTranscript
  /-- The commitments of the attestation body; none if it holds another kind of commitment. -/
  commitments : Option (List CommittedHash)
  received_length : ∀ t, transcript = some t → t.received.length = received.toNat

/-- The attestation library: the key of a presentation, and its verification with the roots that
are trusted for the server. -/
structure AttestationLibrary (Presentation VerifyingKey : Type) where
  verifyingKey : Presentation → VerifyingKey
  /-- None if the roots are malformed. -/
  provider : List Bytes → Option (Presentation → Option PresentationOutput)

/-! ## The checks -/

inductive ShapeError where
  /-- attestation key is not trusted -/
  | key
  /-- the roots are malformed -/
  | roots
  /-- presentation does not verify -/
  | presentation
  /-- server identity is not the layout's -/
  | identity (other : Option String)
  /-- attestation has no t_att extension -/
  | noTAtt
  /-- attestation has more than one t_att extension -/
  | manyTAtt
  /-- t_att extension is not 8 bytes -/
  | tAttLength
  | times (e : TimesError)
  /-- received other than the layout has -/
  | received (n len : ℕ)
  /-- presentation reveals no transcript -/
  | transcript
  /-- revealed request ranges differ from the layout -/
  | requestRanges
  /-- revealed request line is not the layout's -/
  | requestLine
  /-- revealed response ranges differ from the layout -/
  | responseRanges
  /-- revealed response bytes differ from the layout -/
  | responseBytes (range : Range)
  /-- unsupported transcript commitment kind -/
  | commitmentKind
  /-- attestation has another number of commitments than the layout -/
  | commitmentCount (n expected : ℕ)
  /-- a commitment does not appear once -/
  | commitment (expected : Direction × Finset ℕ) (n : ℕ)
  /-- commitments must use SHA-256 -/
  | algorithm
  /-- commitment is not 32 bytes -/
  | hash
  /-- a range is not within a slice -/
  | panic

def T_ATT_EXTENSION_ID : Bytes := utf8 "pprev.t_att"

/-- Reads `t_att` from the notary's extension. -/
def tAttOf (output : PresentationOutput) : Except ShapeError Uint64 :=
  match output.extensions.filter fun e => e.id = T_ATT_EXTENSION_ID with
  | [] => .error .noTAtt
  | [ext] =>
    if ext.value.length = 8 then .ok (BitVec.ofNat 64 (packed ext.value)) else .error .tAttLength
  | _ :: _ :: _ => .error .manyTAtt

/-- The bytes of a range, which has to lie within the slice. -/
def Range.index (r : Range) (bytes : Bytes) : Except ShapeError Bytes :=
  if r.start ≤ r.stop ∧ r.stop ≤ bytes.length then .ok (r.part bytes) else .error .panic

/-- The revealed bytes at a range are those of the template. -/
def checkRevealed (received template : Bytes) (range : Range) : Except ShapeError Unit := do
  let shown ← range.index received
  let expected ← range.index template
  ensure (shown = expected) (.responseBytes range)

/-- The commitments to some bytes. -/
def CommittedHash.at (commitments : List CommittedHash) (expected : Direction × Finset ℕ) :
    List CommittedHash :=
  commitments.filter fun c => (c.direction, c.idx) = expected

/-- The hash of the commitment to a hidden range. -/
def hashOf (commitments : List CommittedHash) (range : Range) : Except ShapeError Bytes32 :=
  match CommittedHash.at commitments (.received, range.set) with
  | [] => .error .panic
  | c :: _ =>
    if c.hash.length = 32 then .ok (BitVec.ofNat 256 (packed c.hash)) else .error .hash

/-- The checks of a verified presentation. -/
def checkOutput (build : Build) (output : PresentationOutput) (shape : ResponseShape)
    (maxSessionSecs : Uint64) : Except ShapeError AttestedShape := do
  ensure (output.serverName = some shape.serverName) (.identity output.serverName)
  let tAtt ← tAttOf output
  (checkTimes build tAtt output.connectionTime maxSessionSecs).mapError .times
  ensure (output.received.toNat = shape.len) (.received output.received.toNat shape.len)
  let transcript ← context output.transcript .transcript
  let request : Range := ⟨0, (utf8 shape.requestLine).length⟩
  ensure (transcript.sentAuthed = request.set) .requestRanges
  let requestLine ← request.index transcript.sent
  ensure (requestLine = utf8 shape.requestLine) .requestLine
  ensure (transcript.receivedAuthed = rangeSet shape.revealed) .responseRanges
  shape.revealed.forM (checkRevealed transcript.received shape.template)
  let commitments ← context output.commitments .commitmentKind
  let expected := expectedCommitments shape
  ensure (commitments.length = expected.length)
    (.commitmentCount commitments.length expected.length)
  expected.forM fun e =>
    ensure ((CommittedHash.at commitments e).length = 1)
      (.commitment e (CommittedHash.at commitments e).length)
  ensure (∀ c ∈ commitments, c.alg = HashAlgId.SHA256) .algorithm
  let hiddenHashes ← shape.hidden.mapM (hashOf commitments)
  .ok ⟨tAtt, hiddenHashes⟩

/-- Checks a presentation against a response shape. -/
def checkShape {Presentation VerifyingKey : Type} [DecidableEq VerifyingKey]
    (library : AttestationLibrary Presentation VerifyingKey) (build : Build)
    (presentation : Presentation) (exp : ShapeExpectation VerifyingKey) :
    Except ShapeError AttestedShape := do
  ensure (library.verifyingKey presentation = exp.attestationKey) .key
  let verify ← context (library.provider exp.rootCerts) .roots
  let output ← context (verify presentation) .presentation
  checkOutput build output exp.shape exp.maxSessionSecs

/-! ## Which presentations are accepted -/

/-- What is revealed and what is hidden of a response do not overlap, the template has the length of
the response, and no hidden value is empty. -/
structure ResponseShape.Apart (shape : ResponseShape) : Prop where
  disjoint : (shape.revealed ++ shape.hidden).Pairwise Range.Disjoint
  within : ∀ range ∈ shape.revealed ++ shape.hidden,
    range.start ≤ range.stop ∧ range.stop ≤ shape.template.length
  length : shape.template.length = shape.len
  nonempty : ∀ range ∈ shape.hidden, range.start < range.stop

/-- A transcript that shows the request line, and the bytes of the template in the revealed ranges,
and nothing else. -/
structure PartialTranscript.Reveals (t : PartialTranscript) (shape : ResponseShape) : Prop where
  sentAuthed : t.sentAuthed = Finset.Ico 0 (utf8 shape.requestLine).length
  requestLine : utf8 shape.requestLine <+: t.sent
  receivedAuthed : t.receivedAuthed = rangeSet shape.revealed
  structured : ∀ range ∈ shape.revealed, range.part t.received = range.part shape.template

/-- Commitments that are the expected ones up to their order, with the hashes of the hidden
ranges. -/
structure Commits (commitments : List CommittedHash) (shape : ResponseShape)
    (hashes : List Bytes32) : Prop where
  perm : (commitments.map fun c => (c.direction, c.idx)).Perm (expectedCommitments shape)
  algorithm : ∀ c ∈ commitments, c.alg = HashAlgId.SHA256
  hashes : List.Forall₂ (fun range hash => ∃ c ∈ commitments, c.direction = .received ∧
    c.idx = range.set ∧ c.hash = wordBytes hash) shape.hidden hashes

/-- A verified presentation that is accepted. -/
structure PresentationOutput.Accepted (output : PresentationOutput) (shape : ResponseShape)
    (maxSessionSecs : Uint64) (attested : AttestedShape) : Prop where
  identity : output.serverName = some shape.serverName
  tAtt : ∃ value, (output.extensions.filter fun e => e.id = T_ATT_EXTENSION_ID) =
    [⟨T_ATT_EXTENSION_ID, value⟩] ∧ value.length = 8 ∧ attested.tAtt.toNat = packed value
  notBefore : output.connectionTime.toNat ≤ attested.tAtt.toNat + 5
  notAfter : attested.tAtt.toNat ≤ output.connectionTime.toNat + maxSessionSecs.toNat
  received : output.received.toNat = shape.len
  reveals : ∃ t, output.transcript = some t ∧ t.Reveals shape
  commits : ∃ commitments, output.commitments = some commitments ∧
    Commits commitments shape attested.hiddenHashes

section

variable {output : PresentationOutput} {shape : ResponseShape}

theorem tAttOf_eq_ok {tAtt : Uint64} : tAttOf output = .ok tAtt ↔
    ∃ value, (output.extensions.filter fun e => e.id = T_ATT_EXTENSION_ID) =
      [⟨T_ATT_EXTENSION_ID, value⟩] ∧ value.length = 8 ∧ tAtt.toNat = packed value := by
  have hid : ∀ e ∈ output.extensions.filter fun e => e.id = T_ATT_EXTENSION_ID,
      e.id = T_ATT_EXTENSION_ID := fun e he => by simpa using (List.mem_filter.mp he).2
  have hvalue {value : Bytes} (hlen : value.length = 8) :
      (BitVec.ofNat 64 (packed value)).toNat = packed value := by
    have hlt := packed_lt value
    rw [hlen] at hlt
    rw [BitVec.toNat_ofNat]
    exact Nat.mod_eq_of_lt hlt
  unfold tAttOf
  generalize output.extensions.filter (fun e => e.id = T_ATT_EXTENSION_ID) = found at hid
  match found with
  | [] => simp
  | [ext] =>
    obtain ⟨id, value⟩ := ext
    obtain rfl : id = T_ATT_EXTENSION_ID := hid ⟨id, value⟩ (by simp)
    simp only [List.cons.injEq, Extension.mk.injEq, true_and, and_true]
    constructor
    · intro h
      split_ifs at h with hlen
      obtain rfl := Except.ok.inj h
      exact ⟨value, rfl, hlen, hvalue hlen⟩
    · rintro ⟨_, rfl, hlen, hpacked⟩
      rw [if_pos hlen, Except.ok.injEq]
      exact BitVec.eq_of_toNat_eq ((hvalue hlen).trans hpacked.symm)
  | _ :: _ :: _ => simp

theorem Range.index_eq_ok {r : Range} {bytes out : Bytes} : r.index bytes = .ok out ↔
    (r.start ≤ r.stop ∧ r.stop ≤ bytes.length) ∧ out = r.part bytes := by
  unfold Range.index
  split_ifs with h
  · rw [Except.ok.injEq]
    exact ⟨fun heq => ⟨h, heq.symm⟩, fun heq => heq.2.symm⟩
  · simp [h]

theorem checkRevealed_eq_ok {received template : Bytes} {range : Range} :
    checkRevealed received template range = .ok () ↔
      (range.start ≤ range.stop ∧ range.stop ≤ received.length ∧ range.stop ≤ template.length) ∧
        range.part received = range.part template := by
  simp only [checkRevealed, bind_eq_ok, ensure_eq_ok, Range.index_eq_ok]
  constructor
  · rintro ⟨_, ⟨⟨hle, hreceived⟩, rfl⟩, _, ⟨⟨-, htemplate⟩, rfl⟩, heq⟩
    exact ⟨⟨hle, hreceived, htemplate⟩, heq⟩
  · rintro ⟨⟨hle, hreceived, htemplate⟩, heq⟩
    exact ⟨_, ⟨⟨hle, hreceived⟩, rfl⟩, _, ⟨⟨hle, htemplate⟩, rfl⟩, heq⟩

theorem length_at (commitments : List CommittedHash) (e : Direction × Finset ℕ) :
    (CommittedHash.at commitments e).length =
      (commitments.map fun c => (c.direction, c.idx)).count e := by
  rw [CommittedHash.at, List.count, List.countP_map, List.countP_eq_length_filter]
  congr 1
  refine List.filter_congr fun c _ => ?_
  simp [Function.comp, beq_eq_decide]

/-- As many commitments as are expected, each of these once, are the expected ones. -/
theorem perm_iff {l expected : List (Direction × Finset ℕ)} (h : expected.Nodup) :
    (l.length = expected.length ∧ ∀ e ∈ expected, l.count e = 1) ↔ l.Perm expected := by
  constructor
  · rintro ⟨hlen, hcount⟩
    have hsub : expected ⊆ l := fun e he => by
      rw [← List.count_pos_iff, hcount e he]
      exact Nat.one_pos
    exact ((h.subperm hsub).perm_of_length_le hlen.le).symm
  · intro hperm
    refine ⟨hperm.length_eq, fun e he => ?_⟩
    rw [hperm.count_eq, List.count_eq_one_of_mem h he]

theorem wordBytes_eq_iff {hash : Bytes} {w : Bytes32} :
    hash = wordBytes w ↔ hash.length = 32 ∧ BitVec.ofNat 256 (packed hash) = w := by
  constructor
  · rintro rfl
    rw [packed_wordBytes, BitVec.ofNat_toNat, BitVec.setWidth_eq]
    exact ⟨length_wordBytes w, rfl⟩
  · rintro ⟨hlen, rfl⟩
    refine packed_inj (hlen.trans (length_wordBytes _).symm) ?_
    have hlt := packed_lt hash
    rw [hlen] at hlt
    rw [packed_wordBytes, BitVec.toNat_ofNat]
    exact (Nat.mod_eq_of_lt hlt).symm

/-- The hash of a commitment that appears once. -/
theorem hashOf_eq_ok {commitments : List CommittedHash} {range : Range}
    (h : (CommittedHash.at commitments (.received, range.set)).length = 1) {w : Bytes32} :
    hashOf commitments range = .ok w ↔ ∃ c ∈ commitments, c.direction = .received ∧
      c.idx = range.set ∧ c.hash = wordBytes w := by
  obtain ⟨c, hc⟩ := List.length_eq_one_iff.mp h
  have hmem (c' : CommittedHash) : (c' ∈ commitments ∧ c'.direction = .received ∧
      c'.idx = range.set) ↔ c' = c := by
    rw [show c' = c ↔ c' ∈ [c] from List.mem_singleton.symm, ← hc, CommittedHash.at,
      List.mem_filter, decide_eq_true_eq, Prod.mk.injEq]
  have hexists : (∃ c' ∈ commitments, c'.direction = .received ∧ c'.idx = range.set ∧
      c'.hash = wordBytes w) ↔ c.hash = wordBytes w := by
    constructor
    · rintro ⟨c', hc', hdirection, hidx, hhash⟩
      rwa [← (hmem c').mp ⟨hc', hdirection, hidx⟩]
    · intro hhash
      obtain ⟨hc', hdirection, hidx⟩ := (hmem c).mpr rfl
      exact ⟨c, hc', hdirection, hidx, hhash⟩
  rw [hexists, wordBytes_eq_iff, hashOf, hc]
  dsimp only
  split_ifs with hlen
  · simp [hlen]
  · simp [hlen]

theorem mem_expected {range : Range} (h : range ∈ shape.hidden) :
    (Direction.received, range.set) ∈ expectedCommitments shape :=
  List.mem_append_right _ (List.mem_map_of_mem h)

/-- The commitments that pass the checks. -/
theorem commits_iff (hs : shape.Apart) {commitments : List CommittedHash} {hashes : List Bytes32} :
    (commitments.length = (expectedCommitments shape).length ∧
      (∀ e ∈ expectedCommitments shape, (CommittedHash.at commitments e).length = 1) ∧
      (∀ c ∈ commitments, c.alg = HashAlgId.SHA256) ∧
      List.Forall₂ (fun range hash => hashOf commitments range = .ok hash) shape.hidden hashes) ↔
    Commits commitments shape hashes := by
  have hnodup := nodup_expectedCommitments hs.disjoint hs.nonempty
  have hhashes (hcount : ∀ e ∈ expectedCommitments shape,
      (CommittedHash.at commitments e).length = 1) : List.Forall₂ (fun range hash =>
        hashOf commitments range = .ok hash) shape.hidden hashes ↔
      List.Forall₂ (fun range hash => ∃ c ∈ commitments, c.direction = .received ∧
        c.idx = range.set ∧ c.hash = wordBytes hash) shape.hidden hashes := by
    let once (range : Range) : Prop :=
      (CommittedHash.at commitments (.received, range.set)).length = 1
    have honce : ∀ range ∈ shape.hidden, once range := fun range hrange =>
      hcount _ (mem_expected hrange)
    have heq : (fun range hash => once range ∧ hashOf commitments range = .ok hash) =
        fun range hash => once range ∧ ∃ c ∈ commitments, c.direction = .received ∧
          c.idx = range.set ∧ c.hash = wordBytes hash := by
      funext range hash
      exact propext (and_congr_right fun h => hashOf_eq_ok h)
    have hleft := List.forall₂_and_left (p := once)
      (R := fun range hash => hashOf commitments range = .ok hash) shape.hidden hashes
    rw [heq, List.forall₂_and_left, and_iff_right honce, and_iff_right honce] at hleft
    exact hleft.symm
  constructor
  · rintro ⟨hlen, hcount, halg, hhash⟩
    refine ⟨(perm_iff hnodup).mp ⟨by rw [List.length_map, hlen], fun e he => ?_⟩, halg,
      (hhashes hcount).mp hhash⟩
    rw [← length_at, hcount e he]
  · rintro ⟨hperm, halg, hhash⟩
    obtain ⟨hlen, hcount⟩ := (perm_iff hnodup).mpr hperm
    have hcount' : ∀ e ∈ expectedCommitments shape,
        (CommittedHash.at commitments e).length = 1 := fun e he => by rw [length_at, hcount e he]
    exact ⟨by rw [← hlen, List.length_map], hcount', halg, (hhashes hcount').mpr hhash⟩

/-- The transcripts that pass the checks. -/
theorem reveals_iff (hs : shape.Apart) {t : PartialTranscript}
    (hlen : t.received.length = shape.len) :
    (t.sentAuthed = (⟨0, (utf8 shape.requestLine).length⟩ : Range).set ∧
      (∃ line, (⟨0, (utf8 shape.requestLine).length⟩ : Range).index t.sent = .ok line ∧
        line = utf8 shape.requestLine) ∧
      t.receivedAuthed = rangeSet shape.revealed ∧
      ∀ range ∈ shape.revealed, checkRevealed t.received shape.template range = .ok ()) ↔
    t.Reveals shape := by
  have hpart : (⟨0, (utf8 shape.requestLine).length⟩ : Range).part t.sent =
      t.sent.take (utf8 shape.requestLine).length := rfl
  have hrevealed : (∀ range ∈ shape.revealed,
        checkRevealed t.received shape.template range = .ok ()) ↔
      ∀ range ∈ shape.revealed, range.part t.received = range.part shape.template := by
    refine forall₂_congr fun range hrange => ?_
    obtain ⟨hle, hstop⟩ := hs.within range (List.mem_append_left _ hrange)
    rw [checkRevealed_eq_ok, hlen, ← hs.length]
    exact and_iff_right ⟨hle, hstop, hstop⟩
  rw [hrevealed]
  constructor
  · rintro ⟨hsent, ⟨line, hindex, rfl⟩, hreceived, hstructured⟩
    obtain ⟨-, hline⟩ := Range.index_eq_ok.mp hindex
    refine ⟨hsent, ?_, hreceived, hstructured⟩
    rw [List.prefix_iff_eq_take, ← hpart, ← hline]
  · rintro ⟨hsent, hline, hreceived, hstructured⟩
    refine ⟨hsent, ⟨_, Range.index_eq_ok.mpr ⟨⟨Nat.zero_le _, hline.length_le⟩, rfl⟩, ?_⟩,
      hreceived, hstructured⟩
    rw [hpart, ← List.prefix_iff_eq_take.mp hline]

/-- The checks of a verified presentation find those that are accepted. -/
theorem checkOutput_eq_ok (hs : shape.Apart) {build : Build} {maxSessionSecs : Uint64}
    {attested : AttestedShape}
    (hfits : ∀ tAtt, tAttOf output = .ok tAtt → tAtt.toNat + 5 < 2 ^ 64) :
    checkOutput build output shape maxSessionSecs = .ok attested ↔
      output.Accepted shape maxSessionSecs attested := by
  have htimes {tAtt : Uint64} (h : tAtt.toNat + 5 < 2 ^ 64) :
      checkTimes build tAtt output.connectionTime maxSessionSecs = .ok () ↔
        output.connectionTime.toNat ≤ tAtt.toNat + 5 ∧
          tAtt.toNat ≤ output.connectionTime.toNat + maxSessionSecs.toNat := by
    rw [checkTimes_eq h]
    split_ifs <;> simp_all
  simp only [checkOutput, bind_eq_ok, ensure_eq_ok, mapError_eq_ok, context_eq_ok, forM_eq_ok,
    mapM_eq_ok, exists_const, Except.ok.injEq]
  constructor
  · rintro ⟨hname, tAtt, htAtt, _, hwindow, hreceived, t, ht, hsent, line, hline, hrequest, hauthed,
      hrevealed, cs, hcs, hlen, hcount, halg, hashes, hhashes, rfl⟩
    obtain ⟨hnotBefore, hnotAfter⟩ := (htimes (hfits tAtt htAtt)).mp hwindow
    exact {
      identity := hname
      tAtt := tAttOf_eq_ok.mp htAtt
      notBefore := hnotBefore
      notAfter := hnotAfter
      received := hreceived
      reveals := ⟨t, ht, (reveals_iff hs ((output.received_length t ht).trans hreceived)).mp
        ⟨hsent, ⟨line, hline, hrequest⟩, hauthed, hrevealed⟩⟩
      commits := ⟨cs, hcs, (commits_iff hs).mp ⟨hlen, hcount, halg, hhashes⟩⟩ }
  · rintro ⟨hname, htAtt, hnotBefore, hnotAfter, hreceived, ⟨t, ht, hreveals⟩, cs, hcs, hcommits⟩
    have htAtt' := tAttOf_eq_ok.mpr htAtt
    obtain ⟨hsent, ⟨line, hline, hrequest⟩, hauthed, hrevealed⟩ :=
      (reveals_iff hs ((output.received_length t ht).trans hreceived)).mpr hreveals
    obtain ⟨hlen, hcount, halg, hhashes⟩ := (commits_iff hs).mpr hcommits
    exact ⟨hname, attested.tAtt, htAtt', (), (htimes (hfits _ htAtt')).mpr ⟨hnotBefore, hnotAfter⟩,
      hreceived, t, ht, hsent, line, hline, hrequest, hauthed, hrevealed, cs, hcs, hlen, hcount,
      halg, _, hhashes, rfl⟩

end

/-! ## No panic -/

section

variable {ε α β : Type} {e : ε}

theorem bind_ne {x : Except ε α} {f : α → Except ε β} (hx : x ≠ .error e)
    (hf : ∀ a, x = .ok a → f a ≠ .error e) : (x >>= f) ≠ .error e := by
  cases x with
  | error e' => exact fun h => hx (congrArg Except.error (Except.error.inj h))
  | ok a => exact hf a rfl

theorem ensure_ne {p : Prop} [Decidable p] {e' : ε} (h : e' ≠ e) : ensure p e' ≠ .error e := by
  unfold ensure
  split_ifs
  · exact nofun
  · exact fun heq => h (Except.error.inj heq)

theorem context_ne {value : Option α} {e' : ε} (h : e' ≠ e) : context value e' ≠ .error e := by
  cases value with
  | none => exact fun heq => h (Except.error.inj heq)
  | some a => exact nofun

theorem forM_ne {f : α → Except ε Unit} {l : List α} (h : ∀ a ∈ l, f a ≠ .error e) :
    l.forM f ≠ .error e := by
  induction l with
  | nil => exact nofun
  | cons a l ih =>
    exact bind_ne (h a (by simp)) fun _ _ => ih fun b hb => h b (List.mem_cons_of_mem _ hb)

theorem mapM_ne {f : α → Except ε β} {l : List α} (h : ∀ a ∈ l, f a ≠ .error e) :
    l.mapM f ≠ .error e := by
  induction l with
  | nil => exact nofun
  | cons a l ih =>
    rw [List.mapM_cons]
    refine bind_ne (h a (by simp)) fun _ _ =>
      bind_ne (ih fun b hb => h b (List.mem_cons_of_mem _ hb)) fun _ _ => nofun

end

section

variable {output : PresentationOutput} {shape : ResponseShape}

theorem index_ne_panic {r : Range} {bytes : Bytes} (h : r.start ≤ r.stop ∧ r.stop ≤ bytes.length) :
    r.index bytes ≠ .error .panic := by
  rw [Range.index, if_pos h]
  exact nofun

/-- The slices that are taken lie within what was received and within the template. -/
theorem checkOutput_ne_panic (hs : shape.Apart) (build : Build) (maxSessionSecs : Uint64) :
    checkOutput build output shape maxSessionSecs ≠ .error .panic := by
  have htAtt : tAttOf output ≠ .error .panic := by
    unfold tAttOf
    split
    · simp
    · split_ifs <;> simp
    · simp
  have htimes {tAtt : Uint64} : ((checkTimes build tAtt output.connectionTime
      maxSessionSecs).mapError ShapeError.times) ≠ .error .panic := by
    cases checkTimes build tAtt output.connectionTime maxSessionSecs <;> simp [Except.mapError]
  unfold checkOutput
  refine bind_ne (ensure_ne (by simp)) fun _ _ => bind_ne htAtt fun _ _ => bind_ne htimes fun _ _ =>
    bind_ne (ensure_ne (by simp)) fun _ hreceived => bind_ne (context_ne (by simp)) fun t ht => ?_
  rw [ensure_eq_ok] at hreceived
  have hlen := (output.received_length t (context_eq_ok.mp ht)).trans hreceived
  refine bind_ne (ensure_ne (by simp)) fun _ hsent => bind_ne ?_ fun _ _ =>
    bind_ne (ensure_ne (by simp)) fun _ _ => bind_ne (ensure_ne (by simp)) fun _ _ =>
    bind_ne (forM_ne fun range hrange => ?_) fun _ _ => bind_ne (context_ne (by simp)) fun cs _ =>
    bind_ne (ensure_ne (by simp)) fun _ _ => bind_ne (forM_ne fun _ _ => ensure_ne (by simp))
      fun _ hcount => bind_ne (ensure_ne (by simp)) fun _ _ =>
    bind_ne (mapM_ne fun range hrange => ?_) fun _ _ => by simp
  · -- the last byte of the request line is authenticated, so it is there
    rw [ensure_eq_ok] at hsent
    refine index_ne_panic ⟨Nat.zero_le _, ?_⟩
    by_contra hlt
    have hmem : (utf8 shape.requestLine).length - 1 ∈ t.sentAuthed := by
      rw [hsent, Range.set, Finset.mem_Ico]
      dsimp only at hlt ⊢
      omega
    have := t.sent_within _ hmem
    dsimp only at hlt
    omega
  · obtain ⟨hle, hstop⟩ := hs.within range (List.mem_append_left _ hrange)
    refine bind_ne (index_ne_panic ⟨hle, ?_⟩) fun _ _ => bind_ne (index_ne_panic ⟨hle, hstop⟩)
      fun _ _ => ensure_ne (by simp)
    rw [hlen, ← hs.length]
    exact hstop
  · have honce := ensure_eq_ok.mp (forM_eq_ok.mp hcount _ (mem_expected hrange))
    obtain ⟨c, hc⟩ := List.length_eq_one_iff.mp honce
    unfold hashOf
    rw [hc]
    dsimp only
    split_ifs <;> simp

end

end Pprev
