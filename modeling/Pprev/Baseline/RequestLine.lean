import Mathlib.Data.List.DropRight
import Pprev.Offchain.Ownership

/-!
# The request line of a registration

The contract finds the request line in the word of the property, without its padding; the policy
verifier takes it from the identifier of the request, which it compares with the word only after it
padded it.
-/

namespace Pprev

open Evm

/-- The word up to its first zero byte, then without trailing spaces. -/
def unpadded (word : Bytes32) : Bytes :=
  ((wordBytes word).takeWhile (· ≠ 0)).rdropWhile (· = 32)

/-- The request line that the contract wants revealed. -/
def registerRequestLine (propertyId : Bytes32) : Bytes :=
  utf8 "GET /title/" ++ unpadded propertyId ++ utf8 " HTTP/1.1"

/-- The identifier does not end with a space. -/
def NoTrailingSpace (propertyId : String) : Prop := (utf8 propertyId).getLast? ≠ some 32

instance (propertyId : String) : Decidable (NoTrailingSpace propertyId) := by
  unfold NoTrailingSpace
  infer_instance

theorem rdropWhile_append_replicate (m : Bytes) (n : ℕ) :
    (m ++ List.replicate n 32).rdropWhile (· = 32) = m.rdropWhile (· = 32) := by
  induction n with
  | zero => rw [List.replicate_zero, List.append_nil]
  | succ n ih =>
    rw [List.replicate_succ', ← List.append_assoc, List.rdropWhile_concat_pos _ _ _ (by decide), ih]

theorem takeWhile_append_zeros {m : Bytes} (h : 0 ∉ m) (n : ℕ) :
    (m ++ List.replicate n 0).takeWhile (· ≠ 0) = m := by
  rw [List.takeWhile_append_of_pos fun b hb => by
    simp only [ne_eq, decide_eq_true_eq]
    rintro rfl
    exact h hb]
  cases n <;> simp [List.replicate_succ]

theorem rdropWhile_eq_self_iff (m : Bytes) :
    m.rdropWhile (· = 32) = m ↔ m.getLast? ≠ some 32 := by
  rcases List.eq_nil_or_concat' m with rfl | ⟨m, b, rfl⟩
  · simp
  · rw [List.rdropWhile_eq_self_iff]
    simp

section

variable {l : Layout} {propertyId : String} {word : Bytes32}

/-- What is left of the word is the identifier without its trailing spaces. -/
theorem unpadded_eq (hpadding : l.padding = " ")
    (hword : l.propertyIdWord propertyId = .ok (wordBytes word)) :
    unpadded word = (utf8 propertyId).rdropWhile (· = 32) := by
  have hp : (utf8 l.padding).length = 1 := by rw [hpadding]; decide
  have hbyte : l.paddingByte = 32 := by rw [Layout.paddingByte, hpadding]; decide
  obtain ⟨-, ⟨-, -, hcontrol, -⟩, hbytes⟩ := propertyIdWord_eq_ok hp hword
  have hzero : 0 ∉ utf8 propertyId ++
      List.replicate (l.propertyIdWidth - (utf8 propertyId).length) 32 := by
    rw [List.mem_append, not_or]
    constructor
    · exact fun h => hcontrol (List.any_eq_true.mpr ⟨0, h, by decide⟩)
    · exact fun h => absurd (List.eq_of_mem_replicate h) (by decide)
  rw [unpadded, hbytes, padded, hbyte, takeWhile_append_zeros hzero, rdropWhile_append_replicate]

/-- The word has the request line of its identifier exactly if the identifier does not end with the
padding. -/
theorem requestLine_eq_iff (hpadding : l.padding = " ")
    (hword : l.propertyIdWord propertyId = .ok (wordBytes word)) :
    utf8 (l.requestLine propertyId) =
        utf8 "GET " ++ utf8 l.pathPrefix ++ unpadded word ++ utf8 " HTTP/1.1" ↔
      NoTrailingSpace propertyId := by
  simp only [Layout.requestLine, Layout.path, utf8_append]
  rw [unpadded_eq hpadding hword, NoTrailingSpace, ← rdropWhile_eq_self_iff]
  simp only [List.append_assoc, List.append_cancel_left_eq, List.append_cancel_right_eq]
  exact eq_comm

/-- A request that the policy verifier finds to be about the property of its statement needs the
request line in the word exactly if its identifier does not end with the padding; for the path of
titles that line is the contract's. Two such requests for one word need one request line. -/
theorem requestLine_determined (hpadding : l.padding = " ")
    (hword : l.propertyIdWord propertyId = .ok (wordBytes word)) :
    (utf8 (l.requestLine propertyId) =
        utf8 "GET " ++ utf8 l.pathPrefix ++ unpadded word ++ utf8 " HTTP/1.1" ↔
      NoTrailingSpace propertyId) ∧
    (l.pathPrefix = "/title/" →
      (utf8 (l.requestLine propertyId) = registerRequestLine word ↔ NoTrailingSpace propertyId)) ∧
    (NoTrailingSpace propertyId → ∀ other, l.propertyIdWord other = .ok (wordBytes word) →
      NoTrailingSpace other → l.requestLine other = l.requestLine propertyId) := by
  have hline := requestLine_eq_iff hpadding hword
  refine ⟨hline, fun hstart => ?_, fun hid other hother hid' => ?_⟩
  · rw [← hline, registerRequestLine, hstart, ← utf8_append "GET " "/title/"]
    rfl
  · have hline' := (requestLine_eq_iff hpadding hother).mpr hid'
    exact utf8_injective (hline'.trans (hline.mpr hid).symm)

end

open Vectors

/-- The word of `TR-06-CANKAYA-000123`. -/
theorem requestLine_determined_title :
    utf8 (titleLayout.requestLine "TR-06-CANKAYA-000123") = registerRequestLine txData.propertyId :=
  ((requestLine_determined (l := titleLayout) rfl (by decide +kernel)).2.1 rfl).mpr (by decide)

/-- Two identifiers that pad to one word and have different request lines. -/
theorem requestLine_trailing :
    titleLayout.propertyIdWord "A " = titleLayout.propertyIdWord "A" ∧
      titleLayout.propertyIdWord "A " = .ok (wordBytes
        0x4120202020202020202020202020202020202020000000000000000000000000) ∧
      titleLayout.requestLine "A " = "GET /title/A  HTTP/1.1" ∧
      registerRequestLine 0x4120202020202020202020202020202020202020000000000000000000000000 =
        utf8 "GET /title/A HTTP/1.1" := by
  decide +kernel

end Pprev
