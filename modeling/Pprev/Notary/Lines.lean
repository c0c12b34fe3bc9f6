import Mathlib.Data.List.TakeWhile
import Mathlib.Tactic.FinCases
import Pprev.Notary.Nonces

/-!
# Lines of the nonce record

What a line reads as: the digits of a nonce read as the nonce, and behind anything that no newline
ends they read as that nonce or make the line malformed.
-/

namespace Pprev

open Evm

/-! ## Splitting -/

/-- The content ends at a line boundary. -/
def Ended (content : Bytes) : Prop := content = [] ∨ ∃ l, content = l ++ [10]

instance (content : Bytes) : Decidable (Ended content) :=
  decidable_of_iff (content = [] ∨ content.getLast? = some 10) <| by
    unfold Ended
    refine or_congr Iff.rfl ?_
    rw [List.getLast?_eq_some_iff]

theorem splitLines_newline {line : Bytes} (h : 10 ∉ line) (rest : Bytes) :
    splitLines (line ++ 10 :: rest) = line :: splitLines rest := by
  induction line with
  | nil => simp [splitLines]
  | cons b line ih =>
    rw [List.mem_cons, not_or] at h
    rw [List.cons_append, splitLines, if_neg (Ne.symm h.1), ih h.2]
    rfl

theorem splitLines_last {line : Bytes} (h : 10 ∉ line) (hne : line ≠ []) :
    splitLines line = [line] := by
  induction line with
  | nil => exact absurd rfl hne
  | cons b line ih =>
    rw [List.mem_cons, not_or] at h
    rw [splitLines, if_neg (Ne.symm h.1)]
    cases line with
    | nil => rfl
    | cons c line => rw [ih h.2 (List.cons_ne_nil _ _)]; rfl

theorem splitLines_append_newline (l rest : Bytes) :
    splitLines (l ++ 10 :: rest) = splitLines (l ++ [10]) ++ splitLines rest := by
  induction l with
  | nil => simp [splitLines]
  | cons b l ih =>
    rw [List.cons_append, List.cons_append, splitLines, splitLines]
    split_ifs with h
    · rw [ih, List.cons_append]
    · rw [ih]
      -- the line that goes on is there, since the content ends with a newline
      cases hl : splitLines (l ++ [10]) with
      | nil =>
        cases l with
        | nil => simp [splitLines] at hl
        | cons c l =>
          rw [List.cons_append, splitLines] at hl
          split_ifs at hl
          cases hr : splitLines (l ++ [10]) <;> simp [hr, consLine] at hl
      | cons line lines => rfl

theorem Ended.splitLines_append {content : Bytes} (h : Ended content) (rest : Bytes) :
    splitLines (content ++ rest) = splitLines content ++ splitLines rest := by
  obtain rfl | ⟨l, rfl⟩ := h
  · simp [splitLines]
  · rw [List.append_assoc, List.singleton_append, splitLines_append_newline]

/-- A content is lines that ended and the start of a line. -/
theorem exists_ended (content : Bytes) : ∃ l line, content = l ++ line ∧ Ended l ∧ 10 ∉ line := by
  induction content using List.reverseRecOn with
  | nil => exact ⟨[], [], rfl, .inl rfl, List.not_mem_nil⟩
  | append_singleton content b ih =>
    by_cases hb : b = 10
    · exact ⟨content ++ [b], [], by simp, .inr ⟨content, by rw [hb]⟩, List.not_mem_nil⟩
    · obtain ⟨l, line, rfl, hl, hline⟩ := ih
      refine ⟨l, line ++ [b], by simp, hl, ?_⟩
      simp only [List.mem_append, List.mem_singleton, not_or]
      exact ⟨hline, Ne.symm hb⟩

/-! ## Digits and white space -/

theorem value_eq_none_of_isWhitespace {c : Char} (h : isWhitespace c) :
    ∀ b ∈ String.utf8EncodeChar c, Hex.value b = none := by
  have hc : c = Char.ofNat c.toNat := (Char.ofNat_toNat c).symm
  unfold isWhitespace at h
  rw [List.contains_iff_mem] at h
  rw [hc]
  revert h
  generalize c.toNat = n
  intro h
  fin_cases h <;> decide +kernel

/-- A digit as a character. -/
theorem utf8EncodeChar_of_value {b : UInt8} (h : (Hex.value b).isSome) :
    String.utf8EncodeChar (Char.ofNat b.toNat) = [b] ∧
      isWhitespace (Char.ofNat b.toNat) = false := by
  have digits : ∀ n < 256, (Hex.value (UInt8.ofNat n)).isSome →
      String.utf8EncodeChar (Char.ofNat n) = [UInt8.ofNat n] ∧
        isWhitespace (Char.ofNat n) = false := by
    decide +kernel
  have := digits b.toNat b.toNat_lt
  rw [UInt8.ofNat_toNat] at this
  exact this h

/-! ## What a line reads as -/

theorem exists_trim (s : String) : ∃ before after : List Char,
    s.toList = before ++ (trim s).toList ++ after ∧
      (∀ c ∈ before, isWhitespace c) ∧ ∀ c ∈ after, isWhitespace c := by
  set rest := s.toList.dropWhile isWhitespace with hrest
  refine ⟨s.toList.takeWhile isWhitespace, (rest.reverse.takeWhile isWhitespace).reverse,
    ?_, ?_, ?_⟩
  · have htrim : (trim s).toList = (rest.reverse.dropWhile isWhitespace).reverse := by
      simp [trim, hrest]
    rw [htrim, List.append_assoc, ← List.reverse_append, List.takeWhile_append_dropWhile,
      List.reverse_reverse, hrest, List.takeWhile_append_dropWhile]
  · exact fun c hc => List.mem_takeWhile_imp hc
  · exact fun c hc => List.mem_takeWhile_imp (List.mem_reverse.mp hc)

/-- A line is digits between bytes that are none. -/
theorem IsLine.exists_digits {line : Bytes} {eta : Nonce} (h : IsLine line eta) :
    ∃ before digits after, line = before ++ digits ++ after ∧ Hex.decode digits = some eta.1 ∧
      (∀ b ∈ before, Hex.value b = none) ∧ ∀ b ∈ after, Hex.value b = none := by
  obtain ⟨s, rfl, hdecode⟩ := h
  obtain ⟨before, after, hs, hbefore, hafter⟩ := exists_trim s
  have none_of (l : List Char) (hl : ∀ c ∈ l, isWhitespace c) :
      ∀ b ∈ utf8 (String.ofList l), Hex.value b = none := by
    intro b hb
    rw [utf8_ofList, List.mem_flatMap] at hb
    obtain ⟨c, hc, hb⟩ := hb
    exact value_eq_none_of_isWhitespace (hl c hc) b hb
  refine ⟨_, _, _, ?_, hdecode, none_of before hbefore, none_of after hafter⟩
  rw [utf8_eq s, hs, List.flatMap_append, List.flatMap_append, utf8_ofList, utf8_ofList, ← utf8_eq]

/-- Digits at the end of a line are what it reads as, and nothing before them is a digit. -/
theorem IsLine.of_append_encode {before : Bytes} {eta n : Nonce}
    (h : IsLine (before ++ Hex.encode eta.1) n) :
    n = eta ∧ ∀ b ∈ before, Hex.value b = none := by
  obtain ⟨before', digits, after, hline, hdecode, hbefore, hafter⟩ := h.exists_digits
  have hlen : (Hex.encode eta.1).length = digits.length := by
    rw [Hex.length_encode, (Hex.of_decode hdecode).1, eta.2, n.2]
  -- the last byte of the line is a digit
  have hnil : after = [] := by
    rcases List.eq_nil_or_concat' after with hnil | ⟨l, b, rfl⟩
    · exact hnil
    · rcases List.eq_nil_or_concat' (Hex.encode eta.1) with h0 | ⟨l', b', heta⟩
      · have := congrArg List.length h0
        rw [Hex.length_encode, eta.2] at this
        exact absurd this (by decide)
      · rw [heta, ← List.append_assoc, ← List.append_assoc] at hline
        obtain ⟨-, hb⟩ := List.append_inj' hline rfl
        have hdigit := Hex.isSome_of_mem_encode b' (by rw [heta]; simp)
        rw [List.cons.inj hb |>.1, hafter b (by simp)] at hdigit
        exact absurd hdigit (by decide)
  subst hnil
  rw [List.append_nil] at hline
  obtain ⟨rfl, hdigits⟩ := List.append_inj' hline hlen
  refine ⟨Subtype.ext ?_, hbefore⟩
  rw [← hdigits, Hex.decode_encode] at hdecode
  exact (Option.some.inj hdecode).symm

/-- What reads as a nonce does not go on to read as another. -/
theorem IsLine.not_append_encode {line : Bytes} {eta n n' : Nonce} (h : IsLine line n) :
    ¬ IsLine (line ++ Hex.encode eta.1) n' := by
  intro h'
  obtain ⟨before, digits, after, rfl, hdecode, -⟩ := h.exists_digits
  obtain ⟨hlen, hdigits⟩ := Hex.of_decode hdecode
  rw [n.2] at hlen
  obtain ⟨b, hb⟩ : ∃ b, b ∈ digits := List.exists_mem_of_length_pos (by omega)
  have hnone := h'.of_append_encode.2 b (by simp [hb])
  have hsome := hdigits b hb
  rw [hnone] at hsome
  exact absurd hsome (by decide)

theorem isLine_encode (eta : Nonce) : IsLine (Hex.encode eta.1) eta := by
  set chars := (Hex.encode eta.1).map fun b => Char.ofNat b.toNat with hchars
  have hdigit : ∀ b ∈ Hex.encode eta.1, _ := fun b hb =>
    utf8EncodeChar_of_value (Hex.isSome_of_mem_encode b hb)
  have hutf8 : utf8 (String.ofList chars) = Hex.encode eta.1 := by
    rw [utf8_ofList, hchars, List.flatMap_map]
    calc (Hex.encode eta.1).flatMap (fun b => String.utf8EncodeChar (Char.ofNat b.toNat))
        = (Hex.encode eta.1).flatMap fun b => [b] :=
          List.flatMap_congr fun b hb => (hdigit b hb).1
      _ = Hex.encode eta.1 := by simp
  have htrim : trim (String.ofList chars) = String.ofList chars := by
    have hfalse : ∀ c ∈ chars, ¬ isWhitespace c := by
      intro c hc
      obtain ⟨b, hb, rfl⟩ := List.mem_map.mp hc
      simp [(hdigit b hb).2]
    have hdrop : ∀ l : List Char, (∀ c ∈ l, ¬ isWhitespace c) → l.dropWhile isWhitespace = l := by
      intro l hl
      cases l with
      | nil => rfl
      | cons c l => exact List.dropWhile_cons_of_neg (hl c List.mem_cons_self)
    rw [trim, String.toList_ofList, hdrop _ hfalse, hdrop _ (by simpa using hfalse),
      List.reverse_reverse]
  exact ⟨_, hutf8, by rw [htrim, hutf8, Hex.decode_encode]⟩

theorem newline_notMem_encode (eta : Nonce) : 10 ∉ Hex.encode eta.1 := by
  intro h
  exact absurd (Hex.isSome_of_mem_encode _ h) (by decide)

end Pprev
