import Pprev.Contract.Encoding

/-!
# Text as bytes

The UTF-8 bytes of texts: of concatenations, of ASCII characters, and of decimal numbers.
-/

namespace Pprev

open Evm

@[simp] theorem utf8_empty : utf8 "" = [] := rfl

@[simp] theorem utf8_append (s t : String) : utf8 (s ++ t) = utf8 s ++ utf8 t := by
  simp [utf8]

theorem utf8_injective : Function.Injective utf8 := by
  intro s t h
  rw [← String.toByteArray_inj]
  exact ByteArray.ext (Array.toList_inj.mp h)

theorem utf8_ofList (l : List Char) : utf8 (String.ofList l) = l.flatMap String.utf8EncodeChar := by
  simp [utf8, List.utf8Encode]

theorem utf8_eq (s : String) : utf8 s = s.toList.flatMap String.utf8EncodeChar := by
  rw [← utf8_ofList, String.ofList_toList]

/-- A character that is one byte. -/
theorem utf8_replicate {c : Char} {b : UInt8} (h : String.utf8EncodeChar c = [b]) (n : ℕ) :
    utf8 (String.ofList (List.replicate n c)) = List.replicate n b := by
  rw [utf8_ofList]
  induction n with
  | zero => rfl
  | succ n ih => rw [List.replicate_succ, List.flatMap_cons, h, ih, List.replicate_succ]; rfl

/-- A text of one byte is one character. -/
theorem exists_char_of_length_utf8 {s : String} (h : (utf8 s).length = 1) :
    ∃ c b, s.toList = [c] ∧ String.utf8EncodeChar c = [b] ∧ utf8 s = [b] := by
  have hpos (c : Char) : 0 < (String.utf8EncodeChar c).length :=
    List.length_pos_iff.mpr String.utf8EncodeChar_ne_nil
  rw [utf8_eq] at h ⊢
  match hs : s.toList with
  | [] => simp [hs] at h
  | [c] =>
    simp only [hs, List.flatMap_singleton] at h
    obtain ⟨b, hb⟩ := List.length_eq_one_iff.mp h
    exact ⟨c, b, rfl, hb, by simp [hb]⟩
  | c :: d :: l =>
    have hc := hpos c
    have hd := hpos d
    simp only [hs, List.flatMap_cons, List.length_append] at h
    omega

/-- The text of bytes that are ASCII characters. -/
def asciiText (l : Bytes) : String := String.ofList (l.map fun b => Char.ofNat b.toNat)

theorem utf8_asciiText {l : Bytes} (h : ∀ b ∈ l, b.toNat < 128) : utf8 (asciiText l) = l := by
  have hchar : ∀ n < 128, String.utf8EncodeChar (Char.ofNat n) = [UInt8.ofNat n] := by
    decide +kernel
  rw [asciiText, utf8_ofList, List.flatMap_map]
  calc l.flatMap (fun b => String.utf8EncodeChar (Char.ofNat b.toNat))
      = l.flatMap fun b => [b] := List.flatMap_congr fun b hb => by
        rw [hchar b.toNat (h b hb), UInt8.ofNat_toNat]
    _ = l := by simp

end Pprev
