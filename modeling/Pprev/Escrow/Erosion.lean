import Pprev.Escrow.Book
import Mathlib.Logic.Function.Iterate
import Mathlib.Order.Basic

/-!
# The erosion of collateral

An expiration leaves a listing a part of its collateral and pays out the rest as compensation; what
closes the listing pays out the remainder. So at any time the collateral that a listing was put up
with is what was paid out so far and what is left, and what is left is determined by the number of
expirations (`Book.Tally`).
-/

namespace Pprev

open Function

/-- The listing holds its collateral. -/
def TxState.Holds (x : TxState) : Prop := x = .active ∨ x = .locked ∨ x = .expired

instance (x : TxState) : Decidable x.Holds := by unfold TxState.Holds; infer_instance

theorem TxState.holds_iff {x : TxState} :
    x.Holds ↔ x ≠ .none ∧ x ≠ .settled ∧ x ≠ .cancelled := by
  cases x <;> decide

namespace Book

variable {T A E W : Type}

/-- From `b` to `b'` the listing pays `compensation` to a counterparty and `returned` to its owner
out of its collateral. -/
inductive Wears (p : Terms) (b b' : Book T A E W) (t : T) (compensation returned : ℕ) : Prop
  | keep (listed : b'.txState t ≠ .none) (holds : (b'.txState t).Holds ↔ (b.txState t).Holds)
      (collateral : b'.collateral t = b.collateral t)
      (expirations : b'.expirations t = b.expirations t) (hcomp : compensation = 0)
      (hret : returned = 0)
  | slash (holds : (b.txState t).Holds) (holds' : (b'.txState t).Holds)
      (collateral : b'.collateral t = p.surviving (b.collateral t))
      (expirations : b'.expirations t = b.expirations t + 1)
      (hcomp : compensation + p.surviving (b.collateral t) = b.collateral t) (hret : returned = 0)
  | close (holds : (b.txState t).Holds) (listed : b'.txState t ≠ .none)
      (closed : ¬ (b'.txState t).Holds) (hsum : compensation + returned = b.collateral t)

/-- Of the collateral `c₀` of the listing `compensation` was paid to counterparties and `returned`
to the owner. -/
structure Tally (p : Terms) (b : Book T A E W) (t : T) (c₀ compensation returned : ℕ) : Prop where
  listed : b.txState t ≠ .none
  collateral : (b.txState t).Holds → b.collateral t = p.surviving^[b.expirations t] c₀
  balance : (b.txState t).Holds → compensation + b.collateral t = c₀ ∧ returned = 0
  closed : ¬ (b.txState t).Holds → compensation + returned = c₀

variable {p : Terms} {b b' : Book T A E W} {t : T} {c₀ compensation returned x y : ℕ}

theorem Wears.listed (h : b.Wears p b' t x y) : b'.txState t ≠ .none := by
  cases h with
  | keep listed => exact listed
  | slash holds holds' => exact (TxState.holds_iff.mp holds').1
  | close holds listed => exact listed

/-- The tally goes on with every move. -/
theorem Tally.wears (h : b.Tally p t c₀ compensation returned) (hw : b.Wears p b' t x y) :
    b'.Tally p t c₀ (x + compensation) (y + returned) := by
  refine ⟨hw.listed, fun hb' => ?_, fun hb' => ?_, fun hb' => ?_⟩
  · cases hw with
    | keep listed holds collateral expirations =>
      rw [collateral, expirations]
      exact h.collateral (holds.mp hb')
    | slash holds holds' collateral expirations =>
      rw [collateral, expirations, h.collateral holds, iterate_succ_apply']
    | close holds listed closed => exact absurd hb' closed
  · cases hw with
    | keep listed holds collateral expirations hcomp hret =>
      have := h.balance (holds.mp hb')
      omega
    | slash holds holds' collateral expirations hcomp hret =>
      have := h.balance holds
      omega
    | close holds listed closed => exact absurd hb' closed
  · cases hw with
    | keep listed holds collateral expirations hcomp hret =>
      have := h.closed (mt holds.mpr hb')
      omega
    | slash holds holds' => exact absurd holds' hb'
    | close holds listed closed hsum =>
      have := h.balance holds
      omega

/-! ## The moves -/

/-- Moves of other listings leave a listing alone. -/
theorem Wears.of_eq (ht : b.txState t ≠ .none) (htx : b'.txState t = b.txState t)
    (hcol : b'.collateral t = b.collateral t) (hexp : b'.expirations t = b.expirations t) :
    b.Wears p b' t 0 0 :=
  .keep (by rwa [htx]) (by rw [htx]) hcol hexp rfl rfl

section

variable [DecidableEq T]

theorem wears_register {t' : T} (w : W) (c : ℕ) (fresh : b.txState t' = .none)
    (ht : b.txState t ≠ .none) : b.Wears p (b.register t' w c) t 0 0 := by
  have hne : t ≠ t' := by
    rintro rfl
    exact ht fresh
  exact .of_eq ht (update_of_ne hne _ _) (update_of_ne hne _ _) (update_of_ne hne _ _)

/-- A listing that was just put up has paid nothing. -/
theorem tally_register (w : W) (c : ℕ) (t : T) : (b.register t w c).Tally p t c 0 0 := by
  have hactive : (b.register t w c).txState t = .active := update_self _ _ _
  have hcol : (b.register t w c).collateral t = c := update_self _ _ _
  have hexp : (b.register t w c).expirations t = 0 := update_self _ _ _
  have hholds : ((b.register t w c).txState t).Holds := .inl hactive
  refine ⟨by rw [hactive]; decide, fun _ => ?_, fun _ => ?_, fun hclosed => absurd hholds hclosed⟩
  · rw [hcol, hexp]
    rfl
  · rw [hcol]
    exact ⟨Nat.zero_add c, rfl⟩

theorem wears_cancel {t' : T} (state : b.txState t' = .active ∨ b.txState t' = .expired)
    (ht : b.txState t ≠ .none) :
    b.Wears p (b.cancel t') t 0 (if t' = t then b.collateral t else 0) := by
  split_ifs with he
  · subst he
    have hcancelled : (b.cancel t').txState t' = .cancelled := update_self _ _ _
    exact .close (state.imp id .inr) (by rw [hcancelled]; decide) (by rw [hcancelled]; decide)
      (Nat.zero_add _)
  · exact .of_eq ht (update_of_ne (Ne.symm he) _ _) (update_of_ne (Ne.symm he) _ _) rfl

variable [DecidableEq E]

theorem wears_settle {e : E} (locked : b.txState (b.listing e) = .locked)
    (ht : b.txState t ≠ .none) :
    b.Wears p (b.settle e) t 0 (if b.listing e = t then b.collateral t else 0) := by
  split_ifs with he
  · subst he
    have hsettled : (b.settle e).txState (b.listing e) = .settled := update_self _ _ _
    exact .close (.inr (.inl locked)) (by rw [hsettled]; decide) (by rw [hsettled]; decide)
      (Nat.zero_add _)
  · exact .of_eq ht (update_of_ne (Ne.symm he) _ _) (update_of_ne (Ne.symm he) _ _) rfl

/-- An expiration pays a compensation, and the last one also what is left. -/
theorem wears_expire {e : E} {exhausted : Bool} {comp left : ℕ}
    (locked : b.txState (b.listing e) = .locked)
    (hleft : left = p.surviving (b.collateral (b.listing e)))
    (hcomp : comp + left = b.collateral (b.listing e)) (ht : b.txState t ≠ .none) :
    b.Wears p
      (b.expire e (if exhausted then .cancelled else .expired) (if exhausted then 0 else left)) t
      (if b.listing e = t then comp else 0)
      (if b.listing e = t ∧ exhausted = true then left else 0) := by
  by_cases he : b.listing e = t
  · subst he
    have hholds : (b.txState (b.listing e)).Holds := .inr (.inl locked)
    rw [if_pos (c := b.listing e = b.listing e) rfl]
    cases exhausted with
    | true =>
      rw [if_pos (c := b.listing e = b.listing e ∧ true = true) ⟨rfl, rfl⟩]
      refine .close hholds ?_ ?_ hcomp
      · simp [expire]
      · simp [expire, TxState.Holds]
    | false =>
      rw [if_neg (c := b.listing e = b.listing e ∧ false = true) (by simp)]
      refine .slash hholds ?_ ?_ ?_ (hleft ▸ hcomp) rfl
      · simp [expire, TxState.Holds]
      · simp [expire, hleft]
      · simp [expire]
  · rw [if_neg he, if_neg (c := b.listing e = t ∧ exhausted = true) fun h => he h.1]
    exact .of_eq ht (update_of_ne (Ne.symm he) _ _) (update_of_ne (Ne.symm he) _ _)
      (update_of_ne (Ne.symm he) _ _)

theorem wears_engage [DecidableEq A] {e : E} {a : A} (isOpen : b.IsOpen p (b.appTx a)) (until_ : ℕ)
    (ht : b.txState t ≠ .none) : b.Wears p (b.engage e a until_) t 0 0 := by
  by_cases hta : t = b.appTx a
  · subst hta
    have hlocked : (b.engage e a until_).txState (b.appTx a) = .locked := update_self _ _ _
    have hholds : (b.txState (b.appTx a)).Holds := isOpen.1.imp id .inr
    have hholds' : ((b.engage e a until_).txState (b.appTx a)).Holds := .inr (.inl hlocked)
    exact .keep (by rw [hlocked]; decide) (iff_of_true hholds' hholds) rfl rfl rfl rfl
  · exact .of_eq ht (update_of_ne hta _ _) rfl rfl

end

end Book

end Pprev
