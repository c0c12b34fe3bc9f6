import Pprev.Escrow.Lifecycle

/-!
# The items of a book

An item of a book is a listing, an application or an engagement that was made, or the disposal of
an application, whose deposit then has left the escrow. Items are never lost, and each move adds
those it is named after.
-/

namespace Pprev

open Function

inductive Item (T A E : Type) where
  | listing (t : T)
  | application (a : A)
  | engagement (e : E)
  | disposal (a : A)
  deriving DecidableEq

namespace Book

variable {T A E W : Type}

/-- The deposit of an application has left the escrow. -/
def Disposed (b : Book T A E W) (a : A) : Prop :=
  b.appStatus a = .reclaimed ∨
    ∃ e, b.engApp e = a ∧ (b.engStatus e = .settled ∨ b.engStatus e = .expired)

def Has (b : Book T A E W) : Item T A E → Prop
  | .listing t => b.txState t ≠ .none
  | .application a => b.appStatus a ≠ .none
  | .engagement e => b.engStatus e ≠ .none
  | .disposal a => b.Disposed a

/-- Items are never lost. -/
theorem Evolves.has {b b' : Book T A E W} {i : Item T A E} (h : b.Evolves b') (hi : b.Has i) :
    b'.Has i := by
  cases i with
  | listing t => exact TxState.ne_none_of_path (h.txState t) hi
  | application a => exact AppStatus.ne_none_of_path (h.appStatus a) hi
  | engagement e => exact EngStatus.ne_none_of_path (h.engStatus e) hi
  | disposal a =>
    rcases hi with hr | ⟨e, happ, hst⟩
    · exact .inl ((AppStatus.eq_of_path (h.appStatus a) hr).trans hr)
    · have hne : b.engStatus e ≠ .none := by rcases hst with hst | hst <;> simp [hst]
      have heq := EngStatus.eq_of_path (h.engStatus e) hst
      exact .inr ⟨e, (h.engApp e hne).trans happ, by rwa [heq]⟩

/-- The deposit of an open engagement is in the escrow. -/
theorem Linked.not_disposed_of_open {b : Book T A E W} (h : b.Linked) {e : E}
    (he : b.engStatus e = .open) : ¬ b.Disposed (b.engApp e) := by
  have hne : b.engStatus e ≠ .none := by simp [he]
  rintro (hr | ⟨e', happ, hst⟩)
  · rw [h.eng_app e hne] at hr
    cases hr
  · have hne' : b.engStatus e' ≠ .none := by rcases hst with hst | hst <;> simp [hst]
    rw [h.eng_unique e' e hne' hne happ, he] at hst
    rcases hst with hst | hst <;> cases hst

/-- The deposit of a pending application is in the escrow. -/
theorem Linked.not_disposed_of_pending {b : Book T A E W} (h : b.Linked) {a : A}
    (ha : b.appStatus a = .pending) : ¬ b.Disposed a := by
  rintro (hr | ⟨e, rfl, hst⟩)
  · rw [ha] at hr
    cases hr
  · have hne : b.engStatus e ≠ .none := by rcases hst with hst | hst <;> simp [hst]
    rw [h.eng_app e hne] at ha
    cases ha

/-! ## What each move adds -/

section

variable {b : Book T A E W} {t : T} {a : A} {e : E}

theorem has_register [DecidableEq T] (t : T) (w : W) (c : ℕ) (i : Item T A E) :
    (b.register t w c).Has i ↔ b.Has i ∨ i = .listing t := by
  cases i <;> simp only [Has, Disposed, register, update_apply] <;> grind

theorem has_apply [DecidableEq A] (ha : b.appStatus a = .none) (t : T) (w : W) (v : ℕ)
    (i : Item T A E) :
    (b.apply a t w v).Has i ↔ b.Has i ∨ i = .application a := by
  cases i <;> simp only [Has, Disposed, apply, update_apply] <;> grind

theorem has_engage [DecidableEq T] [DecidableEq A] [DecidableEq E] (he : b.engStatus e = .none)
    (ha : b.appStatus a = .pending) (ht : b.txState (b.appTx a) ≠ .none) (x : ℕ) (i : Item T A E) :
    (b.engage e a x).Has i ↔ b.Has i ∨ i = .engagement e := by
  cases i <;> simp only [Has, Disposed, engage, update_apply] <;> grind

theorem has_settle [DecidableEq T] [DecidableEq E] (he : b.engStatus e ≠ .none)
    (ht : b.txState (b.listing e) ≠ .none) (i : Item T A E) :
    (b.settle e).Has i ↔ b.Has i ∨ i = .disposal (b.engApp e) := by
  cases i <;> simp only [Has, Disposed, settle, update_apply] <;> grind

theorem has_expire [DecidableEq T] [DecidableEq E] (he : b.engStatus e ≠ .none)
    (ht : b.txState (b.listing e) ≠ .none) {next : TxState} (hnext : next ≠ .none) (left : ℕ)
    (i : Item T A E) :
    (b.expire e next left).Has i ↔ b.Has i ∨ i = .disposal (b.engApp e) := by
  cases i <;> simp only [Has, Disposed, expire, update_apply] <;> grind

theorem has_reclaim [DecidableEq A] (ha : b.appStatus a = .pending) (i : Item T A E) :
    (b.reclaim a).Has i ↔ b.Has i ∨ i = .disposal a := by
  cases i <;> simp only [Has, Disposed, reclaim, update_apply] <;> grind

theorem has_cancel [DecidableEq T] (ht : b.txState t ≠ .none) (i : Item T A E) :
    (b.cancel t).Has i ↔ b.Has i := by
  cases i <;> simp only [Has, Disposed, cancel, update_apply]
  grind

end

end Book

end Pprev
