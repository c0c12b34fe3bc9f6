import Pprev.Offchain.PublicInputs
import Pprev.Offchain.Record

/-!
# Presentations

The module `presentation.rs` over a given check of a presentation against a response shape, which
returns the attested time and the hashes of the hidden values in the order of the shape.
-/

namespace Pprev

open Evm

/-- One notarised exchange: the request line, the response of an empty record, and the ranges that
the presentation reveals and that stay hidden. -/
structure ResponseShape where
  serverName : String
  path : String
  requestLine : String
  template : Bytes
  len : ℕ
  revealed : List Range
  hidden : List Range

namespace ResponseRanges

/-- Ranges the presentation reveals: status line, Content-Type line, JSON keys. -/
def revealed (r : ResponseRanges) : List Range := [r.statusLine, r.contentTypeLine] ++ r.keys

/-- Ranges committed with a hash and never opened. -/
def hidden (r : ResponseRanges) : List Range := [r.account, r.owners, r.propertyId]

end ResponseRanges

def Layout.shape (l : Layout) (propertyId : String) : Except LayoutError ResponseShape := do
  let template ← l.template
  .ok {
    serverName := l.serverName
    path := l.path propertyId
    requestLine := l.requestLine propertyId
    len := template.ranges.len
    revealed := template.ranges.revealed
    hidden := template.ranges.hidden
    template := template.bytes }

def RecordLayout.shape (l : RecordLayout) (subject : String) :
    Except RecordLayoutError ResponseShape := do
  let template ← l.template
  .ok {
    serverName := l.serverName
    path := l.path subject
    requestLine := l.requestLine subject
    len := template.ranges.len
    revealed := template.ranges.revealed
    hidden := template.ranges.hidden
    template := template.bytes }

/-- What is expected of a presentation, for any response layout. -/
structure ShapeExpectation (VerifyingKey : Type) where
  shape : ResponseShape
  attestationKey : VerifyingKey
  rootCerts : List Bytes
  maxSessionSecs : Uint64

/-- What is taken from an accepted presentation, for any response layout. -/
structure AttestedShape where
  tAtt : Uint64
  /-- SHA-256 of the hidden values with their blinders, in the order of the shape. -/
  hiddenHashes : List Bytes32

/-- What is expected of a presentation for a registration. -/
structure Expectation (VerifyingKey : Type) where
  layout : Layout
  attestationKey : VerifyingKey
  rootCerts : List Bytes
  propertyId : String
  maxSessionSecs : Uint64

structure Attested where
  tAtt : Uint64
  accountHash : Bytes
  ownersHash : Bytes
  propertyIdHash : Bytes

inductive PresentationError (ε : Type) where
  | layout (e : LayoutError)
  /-- the title layout has three hidden fields -/
  | hidden
  | shape (e : ε)

/-- The hashes of the hidden fields of a title, by their positions. -/
def Attested.ofShape {ε : Type} (attested : AttestedShape) : Except (PresentationError ε) Attested :=
  match attested.hiddenHashes with
  | [account, owners, propertyId] =>
    .ok ⟨attested.tAtt, wordBytes account, wordBytes owners, wordBytes propertyId⟩
  | _ => .error .hidden

/-- Checks a presentation against the layout of a title and returns the attested time and the hashes
of the hidden fields. -/
def checkPresentation {Presentation VerifyingKey ε : Type}
    (checkShape : Presentation → ShapeExpectation VerifyingKey → Except ε AttestedShape)
    (presentation : Presentation) (expected : Expectation VerifyingKey) :
    Except (PresentationError ε) Attested := do
  let shape ← (expected.layout.shape expected.propertyId).mapError .layout
  let attested ← (checkShape presentation {
    shape := shape
    attestationKey := expected.attestationKey
    rootCerts := expected.rootCerts
    maxSessionSecs := expected.maxSessionSecs }).mapError .shape
  Attested.ofShape attested

namespace Attested

/-- A commitment as a word. -/
def word (hash : Bytes) : Except PublicInputError Bytes32 :=
  if hash.length = 32 then .ok (BitVec.ofNat 256 (packed hash)) else .error .commitment

/-- The public side of `PhiR`: the attested commitments, `txData.propertyId` and the digest. -/
def phiRPublic (x : Attested) (propertyId digest : Bytes32) :
    Except PublicInputError PhiRPublic := do
  .ok ⟨← word x.accountHash, ← word x.ownersHash, ← word x.propertyIdHash, propertyId, digest⟩

end Attested

theorem Attested.ofShape_eq_ok {ε : Type} {attested : AttestedShape} {out : Attested} :
    Attested.ofShape (ε := ε) attested = .ok out ↔ ∃ account owners property,
      attested = ⟨out.tAtt, [account, owners, property]⟩ ∧
        out = ⟨out.tAtt, wordBytes account, wordBytes owners, wordBytes property⟩ := by
  obtain ⟨tAtt, hashes⟩ := attested
  unfold Attested.ofShape
  constructor
  · intro h
    split at h
    · rename_i account owners property heq
      obtain rfl := Except.ok.inj h
      obtain rfl : hashes = [account, owners, property] := heq
      exact ⟨account, owners, property, rfl, rfl⟩
    · cases h
  · rintro ⟨account, owners, property, hattested, hout⟩
    rw [hout, hattested]

theorem checkPresentation_eq_ok {Presentation VerifyingKey ε : Type}
    {checkShape : Presentation → ShapeExpectation VerifyingKey → Except ε AttestedShape}
    {presentation : Presentation} {expected : Expectation VerifyingKey} {out : Attested} :
    checkPresentation checkShape presentation expected = .ok out ↔
      ∃ shape account owners property,
        expected.layout.shape expected.propertyId = .ok shape ∧
        checkShape presentation
          ⟨shape, expected.attestationKey, expected.rootCerts, expected.maxSessionSecs⟩ =
            .ok ⟨out.tAtt, [account, owners, property]⟩ ∧
        out = ⟨out.tAtt, wordBytes account, wordBytes owners, wordBytes property⟩ := by
  simp only [checkPresentation, bind_eq_ok, mapError_eq_ok, Attested.ofShape_eq_ok]
  constructor
  · rintro ⟨shape, hshape, _, hcheck, account, owners, property, rfl, hout⟩
    exact ⟨shape, account, owners, property, hshape, hcheck, hout⟩
  · rintro ⟨shape, account, owners, property, hshape, hcheck, hout⟩
    exact ⟨shape, hshape, _, hcheck, account, owners, property, rfl, hout⟩

namespace Attested

theorem word_wordBytes (w : Bytes32) : word (wordBytes w) = .ok w := by
  rw [word, if_pos (length_wordBytes w), packed_wordBytes, BitVec.ofNat_toNat, BitVec.setWidth_eq]

theorem phiRPublic_eq (tAtt : Uint64) (account owners property propertyId digest : Bytes32) :
    phiRPublic ⟨tAtt, wordBytes account, wordBytes owners, wordBytes property⟩ propertyId digest =
      .ok ⟨account, owners, property, propertyId, digest⟩ := by
  simp only [phiRPublic, word_wordBytes]
  rfl

end Attested

end Pprev
