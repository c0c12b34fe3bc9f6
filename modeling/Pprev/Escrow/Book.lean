import Pprev.Contract.Types
import Mathlib.Logic.Function.Basic
import Mathlib.Logic.Relation

/-!
# The book of an escrow

What the escrow is for, without signatures, identifiers' values or transfers: listings are put up
with collateral, applicants deposit for them, one application at a time is engaged, and an
engagement ends by settlement or by expiration, which costs the owner part of the collateral. The
identifiers and accounts are arbitrary types; a book entry with status `none` is absent.
-/

namespace Pprev

open Function

/-- The moves of a listing. -/
inductive TxState.Step : TxState → TxState → Prop
  | register : Step .none .active
  | engage : Step .active .locked
  | reengage : Step .expired .locked
  | settle : Step .locked .settled
  | expire : Step .locked .expired
  | exhaust : Step .locked .cancelled
  | cancel : Step .active .cancelled
  | cancelExpired : Step .expired .cancelled

/-- The moves of an application. -/
inductive AppStatus.Step : AppStatus → AppStatus → Prop
  | apply : Step .none .pending
  | engage : Step .pending .engaged
  | reclaim : Step .pending .reclaimed

/-- The moves of an engagement. -/
inductive EngStatus.Step : EngStatus → EngStatus → Prop
  | engage : Step .none .open
  | settle : Step .open .settled
  | expire : Step .open .expired

/-- The terms of an escrow: the length of a lock window, the number of expirations a listing
survives less one, and what an expiration leaves of a collateral. -/
structure Terms where
  lock : ℕ
  maxExpirations : ℕ
  surviving : ℕ → ℕ

/-- The book over listings `T`, applications `A`, engagements `E` and accounts `W`. -/
@[ext]
structure Book (T A E W : Type) where
  txState : T → TxState
  owner : T → W
  collateral : T → ℕ
  expirations : T → ℕ
  appStatus : A → AppStatus
  appTx : A → T
  depositor : A → W
  deposit : A → ℕ
  engStatus : E → EngStatus
  engApp : E → A
  expiresAt : E → ℕ
  credit : W → ℕ

namespace Book

variable {T A E W : Type}

/-- The listing of an engagement. -/
def listing (b : Book T A E W) (e : E) : T := b.appTx (b.engApp e)

section Moves

variable [DecidableEq T] [DecidableEq A] [DecidableEq E]

def register (b : Book T A E W) (t : T) (w : W) (c : ℕ) : Book T A E W :=
  { b with
    txState := update b.txState t .active
    owner := update b.owner t w
    collateral := update b.collateral t c
    expirations := update b.expirations t 0 }

def apply (b : Book T A E W) (a : A) (t : T) (w : W) (v : ℕ) : Book T A E W :=
  { b with
    appStatus := update b.appStatus a .pending
    appTx := update b.appTx a t
    depositor := update b.depositor a w
    deposit := update b.deposit a v }

def engage (b : Book T A E W) (e : E) (a : A) (until_ : ℕ) : Book T A E W :=
  { b with
    engStatus := update b.engStatus e .open
    engApp := update b.engApp e a
    expiresAt := update b.expiresAt e until_
    appStatus := update b.appStatus a .engaged
    txState := update b.txState (b.appTx a) .locked }

def settle (b : Book T A E W) (e : E) : Book T A E W :=
  { b with
    engStatus := update b.engStatus e .settled
    txState := update b.txState (b.listing e) .settled
    collateral := update b.collateral (b.listing e) 0 }

/-- An expiration that takes the listing to `next` and leaves it the collateral `left`. -/
def expire (b : Book T A E W) (e : E) (next : TxState) (left : ℕ) : Book T A E W :=
  { b with
    engStatus := update b.engStatus e .expired
    txState := update b.txState (b.listing e) next
    collateral := update b.collateral (b.listing e) left
    expirations := update b.expirations (b.listing e) (b.expirations (b.listing e) + 1) }

def reclaim (b : Book T A E W) (a : A) : Book T A E W :=
  { b with appStatus := update b.appStatus a .reclaimed }

def cancel (b : Book T A E W) (t : T) : Book T A E W :=
  { b with
    txState := update b.txState t .cancelled
    collateral := update b.collateral t 0 }

/-- A payout that could not be delivered is owed to its recipient. -/
def addCredit [DecidableEq W] (b : Book T A E W) (w : W) (v : ℕ) : Book T A E W :=
  { b with credit := update b.credit w (b.credit w + v) }

def withdraw [DecidableEq W] (b : Book T A E W) (w : W) : Book T A E W :=
  { b with credit := update b.credit w 0 }

variable [DecidableEq W]

/-- A listing takes applications and engagements. -/
def IsOpen (p : Terms) (b : Book T A E W) (t : T) : Prop :=
  (b.txState t = .active ∨ b.txState t = .expired) ∧ b.expirations t < p.maxExpirations

/-- The moves of the book at time `now`. -/
inductive Step (p : Terms) (now : ℕ) (b : Book T A E W) : Book T A E W → Prop
  | register (t : T) (w : W) (c : ℕ) (fresh : b.txState t = .none) : Step p now b (b.register t w c)
  | apply (a : A) (t : T) (w : W) (v : ℕ) (fresh : b.appStatus a = .none) (isOpen : b.IsOpen p t)
      (owner : w ≠ b.owner t) (alone : ∀ a', b.appStatus a' = .pending → b.appTx a' = t →
        b.depositor a' ≠ w) : Step p now b (b.apply a t w v)
  | engage (e : E) (a : A) (fresh : b.engStatus e = .none) (pending : b.appStatus a = .pending)
      (isOpen : b.IsOpen p (b.appTx a)) : Step p now b (b.engage e a (now + p.lock))
  | settle (e : E) (known : b.engStatus e ≠ .none) (locked : b.txState (b.listing e) = .locked)
      (window : now ≤ b.expiresAt e) : Step p now b (b.settle e)
  | expire (e : E) (isOpen : b.engStatus e = .open) (locked : b.txState (b.listing e) = .locked)
      (window : b.expiresAt e < now)
      (more : b.expirations (b.listing e) + 1 ≠ p.maxExpirations) :
      Step p now b (b.expire e .expired (p.surviving (b.collateral (b.listing e))))
  | exhaust (e : E) (isOpen : b.engStatus e = .open) (locked : b.txState (b.listing e) = .locked)
      (window : b.expiresAt e < now)
      (last : b.expirations (b.listing e) + 1 = p.maxExpirations) :
      Step p now b (b.expire e .cancelled 0)
  | reclaim (a : A) (pending : b.appStatus a = .pending) : Step p now b (b.reclaim a)
  | cancel (t : T) (state : b.txState t = .active ∨ b.txState t = .expired) :
      Step p now b (b.cancel t)
  | addCredit (w : W) (v : ℕ) : Step p now b (b.addCredit w v)
  | withdraw (w : W) : Step p now b (b.withdraw w)

end Moves

theorem IsOpen.ne {p : Terms} {b : Book T A E W} {t : T} (h : b.IsOpen p t) {x : TxState}
    (hactive : x ≠ .active) (hexpired : x ≠ .expired) : b.txState t ≠ x := by
  rcases h.1 with h | h <;> rw [h]
  · exact hactive.symm
  · exact hexpired.symm

end Book

end Pprev
