import Mathlib.Data.List.Basic
import Mathlib.Data.Set.Function

/-!
# Merkle trees

Trees over a list of leaves, layer by layer: a node of the layer above hashes two neighbours, and a
node without a sibling moves up. As long as no two pairs that are hashed collide, a root determines
the leaves of trees of one size.
-/

namespace Merkle

variable {α : Type*} (node : α → α → α)

/-- The layer above. -/
def above : List α → List α
  | [] => []
  | [x] => [x]
  | x :: y :: layer => node x y :: above layer

/-- The pairs that are hashed for the layer above. -/
def siblings : List α → List (α × α)
  | [] => []
  | [_] => []
  | x :: y :: layer => (x, y) :: siblings layer

@[simp] theorem length_above (layer : List α) :
    (above node layer).length = (layer.length + 1) / 2 := by
  induction layer using above.induct with
  | case1 => simp [above]
  | case2 x => simp [above]
  | case3 x y layer ih =>
    simp only [above, List.length_cons, ih]
    omega

/-- A node of the layer above, at any position. -/
theorem getD_above (layer : List α) (i : ℕ) (d : α) :
    (above node layer).getD i d = if 2 * i + 1 < layer.length
      then node (layer.getD (2 * i) d) (layer.getD (2 * i + 1) d) else layer.getD (2 * i) d := by
  induction layer using above.induct generalizing i with
  | case1 => simp [above]
  | case2 x => cases i <;> simp [above]
  | case3 x y layer ih =>
    cases i with
    | zero => simp [above]
    | succ i =>
      rw [above, List.getD_cons_succ, ih i, Nat.mul_succ]
      simp only [List.getD_cons_succ, List.length_cons,
        show 2 * i + 2 + 1 < layer.length + 1 + 1 ↔ 2 * i + 1 < layer.length by omega]

/-- The root, if there are leaves. -/
def root (layer : List α) : Option α :=
  if layer.length ≤ 1 then layer.head? else root (above node layer)
termination_by layer.length
decreasing_by
  rw [length_above]
  omega

@[simp] theorem root_singleton (x : α) : root node [x] = some x := by
  rw [root, if_pos (by simp), List.head?_cons]

/-- A layer and the layer above have one root. -/
theorem root_above {layer : List α} (h : 1 < layer.length) :
    root node (above node layer) = root node layer := by
  rw [root.eq_def node layer, if_neg (by omega)]

/-- All pairs that are hashed for the root. -/
def pairs (layer : List α) : List (α × α) :=
  if layer.length ≤ 1 then [] else siblings layer ++ pairs (above node layer)
termination_by layer.length
decreasing_by
  rw [length_above]
  omega

variable {node} {S : Set (α × α)}

theorem above_inj (hinj : Set.InjOn (fun p => node p.1 p.2) S) :
    ∀ {layer layer' : List α}, layer.length = layer'.length → (∀ p ∈ siblings layer, p ∈ S) →
      (∀ p ∈ siblings layer', p ∈ S) → above node layer = above node layer' → layer = layer'
  | [], [], _, _, _, _ => rfl
  | [x], [x'], _, _, _, h => h
  | x :: y :: layer, x' :: y' :: layer', hlen, hS, hS', h => by
    simp only [siblings, List.forall_mem_cons] at hS hS'
    obtain ⟨hnode, hrest⟩ := List.cons_eq_cons.mp h
    obtain ⟨rfl, rfl⟩ := Prod.mk.inj (hinj hS.1 hS'.1 hnode)
    rw [above_inj hinj (by simpa using hlen) hS.2 hS'.2 hrest]

/-- **Binding.** Trees of one size with one root have the same leaves. -/
theorem root_inj (hinj : Set.InjOn (fun p => node p.1 p.2) S) {layer layer' : List α}
    (hlen : layer.length = layer'.length) (hS : ∀ p ∈ pairs node layer, p ∈ S)
    (hS' : ∀ p ∈ pairs node layer', p ∈ S) (h : root node layer = root node layer') :
    layer = layer' := by
  induction hn : layer.length using Nat.strong_induction_on generalizing layer layer' with
  | _ n ih =>
    subst hn
    rw [root, root.eq_def node layer', ← hlen] at h
    rw [pairs] at hS
    rw [pairs, ← hlen] at hS'
    split_ifs at h hS hS' with hone
    · match layer, layer', hlen with
      | [], [], _ => rfl
      | [x], [x'], _ => exact congrArg (fun y => [y]) (Option.some.inj h)
      | x :: y :: layer, _, _ => simp at hone
    · simp only [List.mem_append, or_imp, forall_and] at hS hS'
      refine above_inj hinj hlen hS.1 hS'.1 (ih _ ?_ ?_ hS.2 hS'.2 h rfl)
      · rw [length_above]
        omega
      · rw [length_above, length_above, hlen]

end Merkle
