import Pprev.Escrow.Book

/-!
# An index of pending applications

An index gives, for a listing and an account, the pending application of the account for the
listing, and `zero` when there is none. It is kept by entering an application when it is made and
clearing the entry of its depositor when it is engaged or reclaimed.
-/

namespace Pprev

open Function

namespace Book

variable {T A E W : Type}

/-- The index is exact. -/
def Indexed (b : Book T A E W) (zero : A) (index : T → W → A) : Prop :=
  ∀ t w a, a ≠ zero →
    (index t w = a ↔ b.appStatus a = .pending ∧ b.appTx a = t ∧ b.depositor a = w)

variable {b : Book T A E W} {zero : A} {index : T → W → A}

/-- An account without an entry has no pending application. -/
theorem Indexed.alone (h : b.Indexed zero index) {t : T} {w : W} (hfree : index t w = zero)
    (hzero : b.appStatus zero = .none) :
    ∀ a, b.appStatus a = .pending → b.appTx a = t → b.depositor a ≠ w := by
  intro a ha ht hw
  have hne : a ≠ zero := by
    rintro rfl
    rw [hzero] at ha
    cases ha
  have := (h t w a hne).mpr ⟨ha, ht, hw⟩
  exact hne (this.symm.trans hfree)

variable [DecidableEq T] [DecidableEq A] [DecidableEq W]

theorem Indexed.apply (h : b.Indexed zero index) {a : A} (ha : b.appStatus a = .none) {t : T} {w : W}
    (hfree : index t w = zero) (v : ℕ) :
    (b.apply a t w v).Indexed zero (update index t (update (index t) w a)) := by
  intro t' w' a' ha'
  have h₁ := h t' w' a' ha'
  have h₂ := h t w a' ha'
  simp only [Book.apply, update_apply] at *
  grind

/-- The entry of the depositor is cleared when a pending application is disposed of. -/
theorem Indexed.clear (h : b.Indexed zero index) {a : A} (ha : b.appStatus a = .pending)
    (hne : a ≠ zero) {status : AppStatus} (hs : status ≠ .pending) {b' : Book T A E W}
    (hstatus : b'.appStatus = update b.appStatus a status) (htx : b'.appTx = b.appTx)
    (hdep : b'.depositor = b.depositor) :
    b'.Indexed zero (update index (b.appTx a) (update (index (b.appTx a)) (b.depositor a) zero)) := by
  intro t' w' a' ha'
  have h₁ := h t' w' a' ha'
  have h₂ := h (b.appTx a) (b.depositor a) a hne
  rw [hstatus, htx, hdep]
  simp only [update_apply] at *
  grind

end Book

end Pprev
