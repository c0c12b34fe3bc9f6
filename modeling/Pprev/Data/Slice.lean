import Mathlib.Data.List.Basic

/-!
# Parts of sequences

The part of a sequence with a given start and length, in concatenations and in parts, and the
pieces of a sequence that is written in pieces of one length.
-/

namespace Slice

variable {α : Type*}

/-- The part of a sequence with a given start and length. -/
def slice (l : List α) (start len : ℕ) : List α := (l.drop start).take len

theorem length_slice {l : List α} {start len : ℕ} (h : start + len ≤ l.length) :
    (slice l start len).length = len := by
  rw [slice, List.length_take, List.length_drop]
  omega

theorem slice_append_left {l m : List α} {start len : ℕ} (h : start + len ≤ l.length) :
    slice (l ++ m) start len = slice l start len := by
  rw [slice, List.drop_append_of_le_length (by omega),
    List.take_append_of_le_length (by rw [List.length_drop]; omega), slice]

theorem slice_append_right (l m : List α) (start len : ℕ) :
    slice (l ++ m) (l.length + start) len = slice m start len := by
  rw [slice, List.drop_append, List.drop_eq_nil_of_le (by omega), List.nil_append,
    Nat.add_sub_cancel_left, slice]

/-- What stands between two other parts. -/
theorem slice_middle (l m r : List α) : slice (l ++ (m ++ r)) l.length m.length = m := by
  have h := slice_append_right l (m ++ r) 0 m.length
  rw [Nat.add_zero] at h
  rw [h, slice, List.drop_zero, List.take_left]

theorem slice_slice {l : List α} {start len a b : ℕ} (h : a + b ≤ len) :
    slice (slice l start len) a b = slice l (start + a) b := by
  rw [slice, slice, List.drop_take, List.take_take, List.drop_drop, Nat.min_eq_left (by omega),
    slice]

theorem slice_add (l : List α) (start a b : ℕ) :
    slice l start (a + b) = slice l start a ++ slice l (start + a) b := by
  rw [slice, List.take_add, List.drop_drop, slice, slice]

/-! ## Pieces of one length -/

theorem length_flatMap_range {f : ℕ → List α} {s n : ℕ} (h : ∀ i < n, (f i).length = s) :
    ((List.range n).flatMap f).length = n * s := by
  induction n with
  | zero => simp
  | succ n ih =>
    rw [List.range_succ, List.flatMap_append, List.length_append, ih fun i hi => h i (by omega)]
    simp [h n (by omega), Nat.succ_mul]

/-- The pieces from the `k`-th one on. -/
theorem drop_flatMap_range {f : ℕ → List α} {s n k : ℕ} (h : ∀ i < n, (f i).length = s)
    (hk : k ≤ n) :
    ((List.range n).flatMap f).drop (k * s) = (List.range (n - k)).flatMap fun i => f (k + i) := by
  obtain ⟨m, rfl⟩ := Nat.exists_eq_add_of_le hk
  rw [Nat.add_sub_cancel_left, List.range_add, List.flatMap_append, List.flatMap_map,
    ← length_flatMap_range fun i hi => h i (by omega), List.drop_left]

theorem slice_flatMap_range {f : ℕ → List α} {s n k : ℕ} (h : ∀ i < n, (f i).length = s)
    (hk : k < n) : slice ((List.range n).flatMap f) (k * s) s = f k := by
  rw [slice, drop_flatMap_range h (Nat.le_of_lt hk)]
  obtain ⟨m, hm⟩ : ∃ m, n - k = m + 1 := ⟨n - k - 1, by omega⟩
  rw [hm, List.range_succ_eq_map, List.flatMap_cons, Nat.add_zero, ← h k hk, List.take_left]

/-! ## Chunks -/

/-- The pieces of a length that follow one another; the last one may be shorter. -/
def chunks (n : ℕ) (l : List α) : List (List α) :=
  if n = 0 ∨ l = [] then [] else l.take n :: chunks n (l.drop n)
termination_by l.length
decreasing_by
  have := List.length_pos_iff.mpr (not_or.mp ‹_›).2
  rw [List.length_drop]
  omega

@[simp] theorem chunks_nil (n : ℕ) : chunks n ([] : List α) = [] := by
  rw [chunks, if_pos (.inr rfl)]

theorem chunks_eq {n : ℕ} {l : List α} (hn : n ≠ 0) (hl : l ≠ []) :
    chunks n l = l.take n :: chunks n (l.drop n) := by
  rw [chunks, if_neg (not_or.mpr ⟨hn, hl⟩)]

end Slice
