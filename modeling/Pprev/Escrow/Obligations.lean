import Pprev.Escrow.Lifecycle
import Mathlib.Algebra.BigOperators.Group.Finset.Basic
import Mathlib.Data.Fintype.BigOperators
import Mathlib.Algebra.Order.BigOperators.Group.Finset
import Mathlib.Tactic.Ring

/-!
# What an escrow owes

The ether a book owes: the collateral of the listings that are not closed, the deposits of pending
applications and of open engagements, and the credits. Each move changes it by what the move takes
in or gives out.
-/

namespace Pprev

open Function Finset

/-- Two sums that differ in one term. -/
theorem sum_add_of_eq_off {ι : Type} [Fintype ι] {f g : ι → ℕ} (k : ι) (h : ∀ x, x ≠ k → f x = g x) :
    ∑ x, f x + g k = ∑ x, g x + f k := by
  classical
  have hoff : ∑ x ∈ univ.erase k, f x = ∑ x ∈ univ.erase k, g x :=
    Finset.sum_congr rfl fun x hx => h x (ne_of_mem_erase hx)
  rw [← Finset.add_sum_erase _ f (mem_univ k), ← Finset.add_sum_erase _ g (mem_univ k), hoff]
  ring

namespace Book

variable {T A E W : Type}

/-- The collateral held for a listing. -/
def heldListing (b : Book T A E W) (t : T) : ℕ :=
  if b.txState t = .active ∨ b.txState t = .locked ∨ b.txState t = .expired then b.collateral t
  else 0

/-- The deposit held for a pending application. -/
def heldApplication (b : Book T A E W) (a : A) : ℕ :=
  if b.appStatus a = .pending then b.deposit a else 0

/-- The deposit held for an open engagement. -/
def heldEngagement (b : Book T A E W) (e : E) : ℕ :=
  if b.engStatus e = .open then b.deposit (b.engApp e) else 0

variable [Fintype T] [Fintype A] [Fintype E]

/-- What is held for listings, applications and engagements. -/
def held (b : Book T A E W) : ℕ :=
  ∑ t, b.heldListing t + ∑ a, b.heldApplication a + ∑ e, b.heldEngagement e

def owed [Fintype W] (b : Book T A E W) : ℕ := b.held + ∑ w, b.credit w

section

variable {b : Book T A E W} {t : T} {a : A} {e : E}

theorem held_register [DecidableEq T] (ht : b.txState t = .none) (w : W) (c : ℕ) :
    (b.register t w c).held = b.held + c := by
  have h := sum_add_of_eq_off (f := (b.register t w c).heldListing) (g := b.heldListing) t
    (fun x hx => by simp [heldListing, register, hx])
  have hnew : (b.register t w c).heldListing t = c := by simp [heldListing, register]
  have hold : b.heldListing t = 0 := by simp [heldListing, ht]
  show ∑ t', (b.register t w c).heldListing t' + ∑ a, b.heldApplication a +
    ∑ e, b.heldEngagement e = b.held + c
  unfold held
  omega

theorem held_apply [DecidableEq A] (hb : b.Linked) (ha : b.appStatus a = .none) (t : T) (w : W)
    (v : ℕ) :
    (b.apply a t w v).held = b.held + v := by
  have h := sum_add_of_eq_off (f := (b.apply a t w v).heldApplication) (g := b.heldApplication) a
    (fun x hx => by simp [heldApplication, apply, hx])
  have hnew : (b.apply a t w v).heldApplication a = v := by simp [heldApplication, apply]
  have hold : b.heldApplication a = 0 := by simp [heldApplication, ha]
  have heng : (b.apply a t w v).heldEngagement = b.heldEngagement := by
    funext e
    have := hb.eng_app e
    simp only [heldEngagement, apply, update_apply]
    grind
  show ∑ t, b.heldListing t + ∑ a', (b.apply a t w v).heldApplication a' +
    ∑ e, (b.apply a t w v).heldEngagement e = b.held + v
  rw [heng]
  unfold held
  omega

/-- Engaging moves a deposit from the applications to the engagements. -/
theorem held_engage [DecidableEq T] [DecidableEq A] [DecidableEq E] (he : b.engStatus e = .none)
    (ha : b.appStatus a = .pending)
    (ht : b.txState (b.appTx a) = .active ∨ b.txState (b.appTx a) = .expired) (x : ℕ) :
    (b.engage e a x).held = b.held := by
  have happ := sum_add_of_eq_off (f := (b.engage e a x).heldApplication) (g := b.heldApplication) a
    (fun y hy => by simp [heldApplication, engage, hy])
  have hnewApp : (b.engage e a x).heldApplication a = 0 := by simp [heldApplication, engage]
  have holdApp : b.heldApplication a = b.deposit a := by simp [heldApplication, ha]
  have heng := sum_add_of_eq_off (f := (b.engage e a x).heldEngagement) (g := b.heldEngagement) e
    (fun y hy => by simp [heldEngagement, engage, hy])
  have hnewEng : (b.engage e a x).heldEngagement e = b.deposit a := by
    simp [heldEngagement, engage]
  have holdEng : b.heldEngagement e = 0 := by simp [heldEngagement, he]
  have hlist : (b.engage e a x).heldListing = b.heldListing := by
    funext t
    simp only [heldListing, engage, update_apply]
    grind
  unfold held
  rw [hlist]
  omega

/-- An engagement that ends releases its deposit and what the collateral loses. -/
theorem held_end (b' : Book T A E W) (left : ℕ) (he : b.engStatus e = .open)
    (ht : b.txState (b.listing e) = .locked)
    (hlist : ∀ t, t ≠ b.listing e → b'.heldListing t = b.heldListing t)
    (hleft : b'.heldListing (b.listing e) = left) (happ : b'.heldApplication = b.heldApplication)
    (heng : ∀ e', e' ≠ e → b'.heldEngagement e' = b.heldEngagement e')
    (hend : b'.heldEngagement e = 0) :
    b'.held + (b.deposit (b.engApp e) + b.collateral (b.listing e)) = b.held + left := by
  have hL := sum_add_of_eq_off (b.listing e) hlist
  have hE := sum_add_of_eq_off e heng
  have holdList : b.heldListing (b.listing e) = b.collateral (b.listing e) := by
    simp [heldListing, ht]
  have holdEng : b.heldEngagement e = b.deposit (b.engApp e) := by simp [heldEngagement, he]
  unfold held
  rw [happ]
  omega

theorem held_settle [DecidableEq T] [DecidableEq E] (he : b.engStatus e = .open)
    (ht : b.txState (b.listing e) = .locked) :
    (b.settle e).held + (b.deposit (b.engApp e) + b.collateral (b.listing e)) = b.held :=
  held_end (b.settle e) 0 he ht (fun t h => by simp [heldListing, settle, h])
    (by simp [heldListing, settle]) rfl
    (fun e' h => by simp [heldEngagement, settle, h]) (by simp [heldEngagement, settle])

theorem held_expire [DecidableEq T] [DecidableEq E] (he : b.engStatus e = .open)
    (ht : b.txState (b.listing e) = .locked) (left : ℕ) : (b.expire e .expired left).held +
      (b.deposit (b.engApp e) + b.collateral (b.listing e)) = b.held + left :=
  held_end (b.expire e .expired left) left he ht (fun t h => by simp [heldListing, expire, h])
    (by simp [heldListing, expire]) rfl
    (fun e' h => by simp [heldEngagement, expire, h]) (by simp [heldEngagement, expire])

theorem held_exhaust [DecidableEq T] [DecidableEq E] (he : b.engStatus e = .open)
    (ht : b.txState (b.listing e) = .locked) :
    (b.expire e .cancelled 0).held + (b.deposit (b.engApp e) + b.collateral (b.listing e)) =
      b.held :=
  held_end (b.expire e .cancelled 0) 0 he ht (fun t h => by simp [heldListing, expire, h])
    (by simp [heldListing, expire]) rfl
    (fun e' h => by simp [heldEngagement, expire, h]) (by simp [heldEngagement, expire])

theorem held_reclaim [DecidableEq A] (ha : b.appStatus a = .pending) :
    (b.reclaim a).held + b.deposit a = b.held := by
  have h := sum_add_of_eq_off (f := (b.reclaim a).heldApplication) (g := b.heldApplication) a
    (fun y hy => by simp [heldApplication, reclaim, hy])
  have hnew : (b.reclaim a).heldApplication a = 0 := by simp [heldApplication, reclaim]
  have hold : b.heldApplication a = b.deposit a := by simp [heldApplication, ha]
  show ∑ t, b.heldListing t + ∑ a', (b.reclaim a).heldApplication a' +
    ∑ e, b.heldEngagement e + _ = b.held
  unfold held
  omega

theorem held_cancel [DecidableEq T] (ht : b.txState t = .active ∨ b.txState t = .expired) :
    (b.cancel t).held + b.collateral t = b.held := by
  have h := sum_add_of_eq_off (f := (b.cancel t).heldListing) (g := b.heldListing) t
    (fun y hy => by simp [heldListing, cancel, hy])
  have hnew : (b.cancel t).heldListing t = 0 := by simp [heldListing, cancel]
  have hold : b.heldListing t = b.collateral t := by
    rcases ht with ht | ht <;> simp [heldListing, ht]
  show ∑ t', (b.cancel t).heldListing t' + ∑ a, b.heldApplication a +
    ∑ e, b.heldEngagement e + _ = b.held
  unfold held
  omega

section

variable [Fintype W]

/-- A move that leaves the credits alone changes what is owed by what it changes in what is held. -/
theorem owed_of_held (b' : Book T A E W) {x y : ℕ} (hc : b'.credit = b.credit)
    (h : b'.held + x = b.held + y) : b'.owed + x = b.owed + y := by
  unfold owed
  rw [hc]
  omega

theorem owed_addCredit [DecidableEq W] (w : W) (v : ℕ) : (b.addCredit w v).owed = b.owed + v := by
  have h := sum_add_of_eq_off (f := (b.addCredit w v).credit) (g := b.credit) w
    (fun y hy => by simp [addCredit, hy])
  have hnew : (b.addCredit w v).credit w = b.credit w + v := by simp [addCredit]
  show b.held + ∑ w', (b.addCredit w v).credit w' = b.owed + v
  unfold owed
  omega

theorem owed_withdraw [DecidableEq W] (w : W) : (b.withdraw w).owed + b.credit w = b.owed := by
  have h := sum_add_of_eq_off (f := (b.withdraw w).credit) (g := b.credit) w
    (fun y hy => by simp [withdraw, hy])
  have hnew : (b.withdraw w).credit w = 0 := by simp [withdraw]
  show b.held + ∑ w', (b.withdraw w).credit w' + _ = b.owed
  unfold owed
  omega

theorem owed_register [DecidableEq T] (ht : b.txState t = .none) (w : W) (c : ℕ) :
    (b.register t w c).owed = b.owed + c :=
  owed_of_held (b.register t w c) (x := 0) rfl (held_register ht w c)

theorem owed_apply [DecidableEq A] (hb : b.Linked) (ha : b.appStatus a = .none) (t : T) (w : W)
    (v : ℕ) :
    (b.apply a t w v).owed = b.owed + v :=
  owed_of_held (b.apply a t w v) (x := 0) rfl (held_apply hb ha t w v)

theorem owed_engage [DecidableEq T] [DecidableEq A] [DecidableEq E] (he : b.engStatus e = .none)
    (ha : b.appStatus a = .pending)
    (ht : b.txState (b.appTx a) = .active ∨ b.txState (b.appTx a) = .expired) (x : ℕ) :
    (b.engage e a x).owed = b.owed :=
  owed_of_held (b.engage e a x) (x := 0) (y := 0) rfl (held_engage he ha ht x)

theorem owed_settle [DecidableEq T] [DecidableEq E] (he : b.engStatus e = .open)
    (ht : b.txState (b.listing e) = .locked) :
    (b.settle e).owed + (b.deposit (b.engApp e) + b.collateral (b.listing e)) = b.owed :=
  owed_of_held (b.settle e) (y := 0) rfl (held_settle he ht)

theorem owed_expire [DecidableEq T] [DecidableEq E] (he : b.engStatus e = .open)
    (ht : b.txState (b.listing e) = .locked) (left : ℕ) : (b.expire e .expired left).owed +
      (b.deposit (b.engApp e) + b.collateral (b.listing e)) = b.owed + left :=
  owed_of_held (b.expire e .expired left) rfl (held_expire he ht left)

theorem owed_exhaust [DecidableEq T] [DecidableEq E] (he : b.engStatus e = .open)
    (ht : b.txState (b.listing e) = .locked) :
    (b.expire e .cancelled 0).owed + (b.deposit (b.engApp e) + b.collateral (b.listing e)) =
      b.owed :=
  owed_of_held (b.expire e .cancelled 0) (y := 0) rfl (held_exhaust he ht)

theorem owed_reclaim [DecidableEq A] (ha : b.appStatus a = .pending) :
    (b.reclaim a).owed + b.deposit a = b.owed :=
  owed_of_held (b.reclaim a) (y := 0) rfl (held_reclaim ha)

theorem owed_cancel [DecidableEq T] (ht : b.txState t = .active ∨ b.txState t = .expired) :
    (b.cancel t).owed + b.collateral t = b.owed :=
  owed_of_held (b.cancel t) (y := 0) rfl (held_cancel ht)

/-- A move that leaves the credits alone changes what is held by what it changes in what is owed. -/
theorem held_of_owed (b' : Book T A E W) {x y : ℕ} (hc : b'.credit = b.credit)
    (h : b'.owed + x = b.owed + y) : b'.held + x = b.held + y := by
  unfold owed at h
  rw [hc] at h
  omega

end

/-- What is held does not depend on the credits. -/
theorem held_credit (f : W → ℕ) : ({ b with credit := f } : Book T A E W).held = b.held := by
  unfold held
  rfl

/-- What is held is held for something. -/
theorem held_ne_zero (h : b.held ≠ 0) :
    (∃ a, b.appStatus a = .pending ∧ b.deposit a ≠ 0) ∨
    (∃ e, b.engStatus e = .open ∧ b.deposit (b.engApp e) ≠ 0) ∨
    ∃ t, (b.txState t = .active ∨ b.txState t = .locked ∨ b.txState t = .expired) ∧
      b.collateral t ≠ 0 := by
  have hsum : ∑ t, b.heldListing t ≠ 0 ∨ ∑ a, b.heldApplication a ≠ 0 ∨
      ∑ e, b.heldEngagement e ≠ 0 := by
    unfold held at h
    omega
  rcases hsum with hs | hs | hs
  · obtain ⟨t, -, ht⟩ := Finset.exists_ne_zero_of_sum_ne_zero hs
    exact .inr (.inr ⟨t, by simpa [heldListing] using ht⟩)
  · obtain ⟨a, -, ha⟩ := Finset.exists_ne_zero_of_sum_ne_zero hs
    exact .inl ⟨a, by simpa [heldApplication] using ha⟩
  · obtain ⟨e, -, he⟩ := Finset.exists_ne_zero_of_sum_ne_zero hs
    exact .inr (.inl ⟨e, by simpa [heldEngagement] using he⟩)

/-- What is owed and not held is credited to someone. -/
theorem credit_ne_zero [Fintype W] (h : b.owed ≠ 0) (hheld : b.held = 0) : ∃ w, b.credit w ≠ 0 := by
  have hsum : ∑ w, b.credit w ≠ 0 := by
    unfold owed at h
    omega
  obtain ⟨w, -, hw⟩ := Finset.exists_ne_zero_of_sum_ne_zero hsum
  exact ⟨w, hw⟩

theorem credit_le_owed [Fintype W] (w : W) : b.credit w ≤ b.owed := by
  have h := Finset.single_le_sum (f := b.credit) (fun _ _ => Nat.zero_le _) (mem_univ w)
  unfold owed
  omega

end

-- the sums run over all identifiers and accounts: they are for lemmas only, never to be evaluated
attribute [irreducible] held owed

end Book

end Pprev
