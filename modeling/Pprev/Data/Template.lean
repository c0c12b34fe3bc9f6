import Mathlib.Algebra.GroupWithZero.Nat
import Mathlib.Data.List.Forall2
import Pprev.Data.Slice

/-!
# Templates

Texts with holes of fixed widths. The fixed parts are plain or marked; where the marked parts and
the holes lie does not depend on what is filled in, and neither does anything outside the holes.
-/

namespace Template

open Slice

variable {α : Type*}

inductive Piece (α : Type*) where
  | text (t : List α)
  | marked (t : List α)
  | hole (width : ℕ)

/-- A place in a text. -/
structure Span where
  start : ℕ
  len : ℕ

namespace Span

def Contains (s : Span) (i : ℕ) : Prop := s.start ≤ i ∧ i < s.start + s.len

def Before (s t : Span) : Prop := s.start + s.len ≤ t.start

/-- No place lies in both. -/
def Disjoint (s t : Span) : Prop := s.Before t ∨ t.Before s

theorem Disjoint.symm {s t : Span} (h : s.Disjoint t) : t.Disjoint s := Or.symm h

/-- The part of a text there. -/
def of (s : Span) (l : List α) : List α := slice l s.start s.len

def shift (s : Span) (n : ℕ) : Span := ⟨s.start + n, s.len⟩

/-- A span lies within bounds. -/
def Within (s : Span) (start stop : ℕ) : Prop := start ≤ s.start ∧ s.start + s.len ≤ stop

theorem Within.mono {s : Span} {a b a' b' : ℕ} (h : s.Within a b) (ha : a' ≤ a) (hb : b ≤ b') :
    s.Within a' b' := ⟨Nat.le_trans ha h.1, Nat.le_trans h.2 hb⟩

end Span

namespace Piece

def width : Piece α → ℕ
  | text t => t.length
  | marked t => t.length
  | hole w => w

end Piece

def width (ps : List (Piece α)) : ℕ := (ps.map Piece.width).sum

/-- The text with values in its holes. -/
def fill : List (Piece α) → List (List α) → List α
  | [], _ => []
  | .text t :: ps, vs => t ++ fill ps vs
  | .marked t :: ps, vs => t ++ fill ps vs
  | .hole _ :: ps, v :: vs => v ++ fill ps vs
  | .hole _ :: ps, [] => fill ps []

/-- The holes, when the text starts at an offset. -/
def holes : List (Piece α) → ℕ → List Span
  | [], _ => []
  | .hole w :: ps, s => ⟨s, w⟩ :: holes ps (s + w)
  | .text t :: ps, s => holes ps (s + t.length)
  | .marked t :: ps, s => holes ps (s + t.length)

/-- The marked parts, when the text starts at an offset. -/
def marks : List (Piece α) → ℕ → List Span
  | [], _ => []
  | .hole w :: ps, s => marks ps (s + w)
  | .text t :: ps, s => marks ps (s + t.length)
  | .marked t :: ps, s => ⟨s, t.length⟩ :: marks ps (s + t.length)

def markedTexts : List (Piece α) → List (List α)
  | [] => []
  | .hole _ :: ps => markedTexts ps
  | .text _ :: ps => markedTexts ps
  | .marked t :: ps => t :: markedTexts ps

def widths : List (Piece α) → List ℕ
  | [] => []
  | .hole w :: ps => w :: widths ps
  | .text _ :: ps => widths ps
  | .marked _ :: ps => widths ps

/-- There is one value for each hole, of its width. -/
def Fits (ps : List (Piece α)) (vs : List (List α)) : Prop := vs.map List.length = widths ps

/-! ## One piece at the front -/

section

variable {t : List α} {w s : ℕ} {ps qs : List (Piece α)} {vs us : List (List α)}

@[simp] theorem width_nil : width ([] : List (Piece α)) = 0 := rfl

@[simp] theorem width_cons (p : Piece α) (ps : List (Piece α)) :
    width (p :: ps) = p.width + width ps := by
  simp [width]

@[simp] theorem width_append : width (ps ++ qs) = width ps + width qs := by
  simp [width]

@[simp] theorem fits_nil : Fits ([] : List (Piece α)) vs ↔ vs = [] := by
  simp [Fits, widths]

@[simp] theorem fits_text : Fits (.text t :: ps) vs ↔ Fits ps vs := Iff.rfl

@[simp] theorem fits_marked : Fits (.marked t :: ps) vs ↔ Fits ps vs := Iff.rfl

theorem fits_hole : Fits (.hole w :: ps) vs ↔ ∃ v vs', vs = v :: vs' ∧ v.length = w ∧ Fits ps vs' := by
  cases vs with
  | nil => simp [Fits, widths]
  | cons v vs => simp [Fits, widths]

theorem widths_append : widths (ps ++ qs) = widths ps ++ widths qs := by
  induction ps with
  | nil => rfl
  | cons p ps ih => cases p <;> simp [widths, ih]

theorem holes_append (s : ℕ) : holes (ps ++ qs) s = holes ps s ++ holes qs (s + width ps) := by
  induction ps generalizing s with
  | nil => rfl
  | cons p ps ih => cases p <;> simp [holes, ih, Piece.width, Nat.add_assoc]

theorem marks_append (s : ℕ) : marks (ps ++ qs) s = marks ps s ++ marks qs (s + width ps) := by
  induction ps generalizing s with
  | nil => rfl
  | cons p ps ih => cases p <;> simp [marks, ih, Piece.width, Nat.add_assoc]

theorem markedTexts_append : markedTexts (ps ++ qs) = markedTexts ps ++ markedTexts qs := by
  induction ps with
  | nil => rfl
  | cons p ps ih => cases p <;> simp [markedTexts, ih]

theorem Fits.append (h : Fits ps vs) (h' : Fits qs us) : Fits (ps ++ qs) (vs ++ us) := by
  rw [Fits, List.map_append, h, h', widths_append]

theorem fill_append (h : Fits ps vs) : fill (ps ++ qs) (vs ++ us) = fill ps vs ++ fill qs us := by
  induction ps generalizing vs with
  | nil =>
    obtain rfl := fits_nil.mp h
    rfl
  | cons p ps ih =>
    cases p with
    | text t => simp [fill, ih (fits_text.mp h)]
    | marked t => simp [fill, ih (fits_marked.mp h)]
    | hole w =>
      obtain ⟨v, vs, rfl, -, hvs⟩ := fits_hole.mp h
      simp [fill, ih hvs]

theorem length_fill (h : Fits ps vs) : (fill ps vs).length = width ps := by
  induction ps generalizing vs with
  | nil => rfl
  | cons p ps ih =>
    cases p with
    | text t => simp [fill, ih (fits_text.mp h), Piece.width]
    | marked t => simp [fill, ih (fits_marked.mp h), Piece.width]
    | hole w =>
      obtain ⟨v, vs, rfl, hv, hvs⟩ := fits_hole.mp h
      simp [fill, ih hvs, Piece.width, hv]

theorem fits_flatMap {β : Type*} {f : β → List (Piece α)} {g : β → List (List α)} {xs : List β}
    (h : ∀ x ∈ xs, Fits (f x) (g x)) : Fits (xs.flatMap f) (xs.flatMap g) := by
  induction xs with
  | nil => rfl
  | cons x xs ih =>
    rw [List.forall_mem_cons] at h
    exact h.1.append (ih h.2)

theorem fill_flatMap {β : Type*} {f : β → List (Piece α)} {g : β → List (List α)} {xs : List β}
    (h : ∀ x ∈ xs, Fits (f x) (g x)) :
    fill (xs.flatMap f) (xs.flatMap g) = xs.flatMap fun x => fill (f x) (g x) := by
  induction xs with
  | nil => rfl
  | cons x xs ih =>
    rw [List.forall_mem_cons] at h
    rw [List.flatMap_cons, List.flatMap_cons, fill_append h.1, ih h.2, List.flatMap_cons]

/-! ## The places -/

theorem holes_shift (n s : ℕ) : holes ps (s + n) = (holes ps s).map (·.shift n) := by
  induction ps generalizing s with
  | nil => rfl
  | cons p ps ih =>
    cases p <;> simp only [holes, List.map_cons, Nat.add_right_comm s n, ih]
    rfl

theorem marks_shift (n s : ℕ) : marks ps (s + n) = (marks ps s).map (·.shift n) := by
  induction ps generalizing s with
  | nil => rfl
  | cons p ps ih =>
    cases p <;> simp only [marks, List.map_cons, Nat.add_right_comm s n, ih]
    rfl

theorem holes_within (s : ℕ) : ∀ span ∈ holes ps s, span.Within s (s + width ps) := by
  induction ps generalizing s with
  | nil => simp [holes]
  | cons p ps ih =>
    have hmono : ∀ n, ∀ span ∈ holes ps (s + n), span.Within s (s + (n + width ps)) :=
      fun n span hspan => (ih _ span hspan).mono (by omega) (by omega)
    cases p with
    | text t => exact width_cons (.text t) ps ▸ hmono t.length
    | marked t => exact width_cons (.marked t) ps ▸ hmono t.length
    | hole w =>
      rw [width_cons, holes, List.forall_mem_cons]
      exact ⟨⟨by simp, by simp [Piece.width]⟩, hmono w⟩

theorem marks_within (s : ℕ) : ∀ span ∈ marks ps s, span.Within s (s + width ps) := by
  induction ps generalizing s with
  | nil => simp [marks]
  | cons p ps ih =>
    have hmono : ∀ n, ∀ span ∈ marks ps (s + n), span.Within s (s + (n + width ps)) :=
      fun n span hspan => (ih _ span hspan).mono (by omega) (by omega)
    cases p with
    | text t => exact width_cons (.text t) ps ▸ hmono t.length
    | hole w => exact width_cons (.hole w) ps ▸ hmono w
    | marked t =>
      rw [width_cons, marks, List.forall_mem_cons]
      exact ⟨⟨by simp, by simp [Piece.width]⟩, hmono t.length⟩

/-- Marked parts and holes do not overlap. -/
theorem pairwise_disjoint (s : ℕ) : (marks ps s ++ holes ps s).Pairwise Span.Disjoint := by
  induction ps generalizing s with
  | nil => exact .nil
  | cons p ps ih =>
    -- the first piece lies before all others
    have hfirst (n : ℕ) : ∀ span ∈ marks ps (s + n) ++ holes ps (s + n),
        Span.Disjoint ⟨s, n⟩ span := by
      intro span hspan
      rcases List.mem_append.mp hspan with hspan | hspan
      · exact .inl (marks_within _ span hspan).1
      · exact .inl (holes_within _ span hspan).1
    cases p with
    | text t => exact ih _
    | marked t => exact .cons (hfirst _) (ih _)
    | hole w =>
      rw [marks, holes, List.pairwise_middle Span.Disjoint.symm]
      exact .cons (hfirst w) (ih _)

/-- Marked parts come one after another. -/
theorem pairwise_marks (s : ℕ) : (marks ps s).Pairwise Span.Before := by
  induction ps generalizing s with
  | nil => exact .nil
  | cons p ps ih =>
    cases p with
    | text t => exact ih _
    | hole w => exact ih _
    | marked t => exact .cons (fun span hspan => (marks_within _ span hspan).1) (ih _)

/-! ## What stands at the places -/

/-- The holes show the values. -/
theorem map_holes (h : Fits ps vs) (front : List α) :
    (holes ps front.length).map (fun span => span.of (front ++ fill ps vs)) = vs := by
  induction ps generalizing vs front with
  | nil => exact (fits_nil.mp h).symm
  | cons p ps ih =>
    cases p with
    | text t =>
      have := ih (fits_text.mp h) (front ++ t)
      rwa [List.length_append, List.append_assoc] at this
    | marked t =>
      have := ih (fits_marked.mp h) (front ++ t)
      rwa [List.length_append, List.append_assoc] at this
    | hole w =>
      obtain ⟨v, vs, rfl, rfl, hvs⟩ := fits_hole.mp h
      have := ih hvs (front ++ v)
      rw [List.length_append, List.append_assoc] at this
      exact List.cons_eq_cons.mpr ⟨slice_middle front v _, this⟩

/-- The marked places show the marked texts. -/
theorem map_marks (h : Fits ps vs) (front : List α) :
    (marks ps front.length).map (fun span => span.of (front ++ fill ps vs)) = markedTexts ps := by
  induction ps generalizing vs front with
  | nil => rfl
  | cons p ps ih =>
    cases p with
    | text t =>
      have := ih (fits_text.mp h) (front ++ t)
      rwa [List.length_append, List.append_assoc] at this
    | marked t =>
      have := ih (fits_marked.mp h) (front ++ t)
      rw [List.length_append, List.append_assoc] at this
      exact List.cons_eq_cons.mpr ⟨slice_middle front t _, this⟩
    | hole w =>
      obtain ⟨v, vs, rfl, rfl, hvs⟩ := fits_hole.mp h
      have := ih hvs (front ++ v)
      rwa [List.length_append, List.append_assoc] at this

/-- Outside the holes the text is the same for all values. -/
theorem getElem?_fill (h : Fits ps vs) (h' : Fits ps us) {s i : ℕ}
    (hi : ∀ span ∈ holes ps s, ¬span.Contains (s + i)) : (fill ps vs)[i]? = (fill ps us)[i]? := by
  induction ps generalizing vs us s i with
  | nil => rfl
  | cons p ps ih =>
    -- past the first piece
    have hrest : ∀ {t t' : List α} {vs us : List (List α)}, t.length = t'.length → Fits ps vs →
        Fits ps us → t.length ≤ i → (∀ span ∈ holes ps (s + t.length), ¬span.Contains (s + i)) →
        (t ++ fill ps vs)[i]? = (t' ++ fill ps us)[i]? := by
      intro t t' vs us hlen hvs hus hle hspans
      rw [List.getElem?_append_right hle, List.getElem?_append_right (by omega), ← hlen]
      refine ih hvs hus (s := s + t.length) ?_
      rwa [show s + t.length + (i - t.length) = s + i by omega]
    -- within a fixed piece
    have hfixed : ∀ t : List α, Fits ps vs → Fits ps us →
        (∀ span ∈ holes ps (s + t.length), ¬span.Contains (s + i)) →
        (t ++ fill ps vs)[i]? = (t ++ fill ps us)[i]? := by
      intro t hvs hus hspans
      by_cases hlt : i < t.length
      · rw [List.getElem?_append_left hlt, List.getElem?_append_left hlt]
      · exact hrest rfl hvs hus (by omega) hspans
    cases p with
    | text t => exact hfixed t (fits_text.mp h) (fits_text.mp h') hi
    | marked t => exact hfixed t (fits_marked.mp h) (fits_marked.mp h') hi
    | hole w =>
      obtain ⟨v, vs, rfl, hv, hvs⟩ := fits_hole.mp h
      obtain ⟨u, us, rfl, hu, hus⟩ := fits_hole.mp h'
      rw [holes, List.forall_mem_cons] at hi
      have hle : w ≤ i := by
        by_contra hlt
        exact hi.1 ⟨Nat.le_add_right s i, Nat.add_lt_add_left (Nat.lt_of_not_le hlt) s⟩
      exact hrest (hv.trans hu.symm) hvs hus (by omega) (by rw [hv]; exact hi.2)

/-- The values can be read off the text. -/
theorem fill_inj (h : Fits ps vs) (h' : Fits ps us) (heq : fill ps vs = fill ps us) : vs = us := by
  rw [← map_holes h [], ← map_holes h' [], heq]

end

end Template
