import Pprev.Evm.Word

/-!
# Contract code between two points of contact

A run of contract code from a given store either ends, reverts, or hands control to another account
together with some ether and waits for that account to accept or to fail (`Prog`). While it waits
the store may change, since the account may call back. Code is written in the monad `Tx` of
functions from a store to such a run.
-/

namespace Evm

/-- What contract code does from some store on, up to the accounts it sends ether to. -/
inductive Prog (σ ε α : Type) : Type where
  | done (s : σ) (a : α)
  | revert (e : ε)
  | send (s : σ) (dst : Address) (amount : Uint256) (resume : Bool → σ → Prog σ ε α)

namespace Prog

variable {σ ε α β : Type}

def bind : Prog σ ε α → (α → σ → Prog σ ε β) → Prog σ ε β
  | done s a, f => f a s
  | revert e, _ => revert e
  | send s dst amount resume, f => send s dst amount fun ok s' => (resume ok s').bind f

@[simp] theorem bind_done (s : σ) (a : α) (f : α → σ → Prog σ ε β) : (done s a).bind f = f a s := rfl

@[simp] theorem bind_revert (e : ε) (f : α → σ → Prog σ ε β) :
    (revert e : Prog σ ε α).bind f = revert e := rfl

@[simp] theorem bind_send (s : σ) (dst : Address) (amount : Uint256)
    (resume : Bool → σ → Prog σ ε α) (f : α → σ → Prog σ ε β) :
    (send s dst amount resume).bind f = send s dst amount fun ok s' => (resume ok s').bind f := rfl

theorem bind_assoc {γ : Type} (p : Prog σ ε α) (f : α → σ → Prog σ ε β) (g : β → σ → Prog σ ε γ) :
    (p.bind f).bind g = p.bind fun a s => (f a s).bind g := by
  induction p with
  | done s a => rfl
  | revert e => rfl
  | send s dst amount resume ih =>
    simp only [bind_send]
    congr 1
    funext ok s'
    exact ih ok s'

/-- The transfers a run makes when every recipient accepts and none calls back. -/
def payouts : Prog σ ε α → List (Address × Uint256)
  | done _ _ => []
  | revert _ => []
  | send s dst amount resume => (dst, amount) :: (resume true s).payouts

/-- The ether of a list of transfers. -/
def total (l : List (Address × Uint256)) : ℕ := (l.map fun p => p.2.toNat).sum

@[simp] theorem total_nil : total [] = 0 := rfl

@[simp] theorem total_cons (p : Address × Uint256) (l : List (Address × Uint256)) :
    total (p :: l) = p.2.toNat + total l := rfl

theorem total_append (l l' : List (Address × Uint256)) : total (l ++ l') = total l + total l' := by
  induction l with
  | nil => exact (Nat.zero_add _).symm
  | cons p l ih => rw [List.cons_append, total_cons, total_cons, ih, Nat.add_assoc]

/-- The run does not revert before its first point of contact. -/
def Live : Prog σ ε α → Prop
  | revert _ => False
  | _ => True

@[simp] theorem live_done (s : σ) (a : α) : (done s a : Prog σ ε α).Live := trivial
@[simp] theorem not_live_revert (e : ε) : ¬ (revert e : Prog σ ε α).Live := id
@[simp] theorem live_send (s : σ) (dst : Address) (amount : Uint256)
    (resume : Bool → σ → Prog σ ε α) : (send s dst amount resume).Live := trivial

/-- A run from a point of contact on either reverts or reaches the next one. -/
theorem live_or_revert (p : Prog σ ε α) : p.Live ∨ ∃ e, p = .revert e := by
  cases p with
  | done s a => exact .inl trivial
  | revert e => exact .inr ⟨e, rfl⟩
  | send s dst amount resume => exact .inl trivial

end Prog

/-- Contract code: from a store to what it does from there. -/
def Tx (σ ε α : Type) : Type := σ → Prog σ ε α

namespace Tx

variable {σ ε α β : Type}

instance : Monad (Tx σ ε) where
  pure a := fun s => .done s a
  bind x f := fun s => (x s).bind f

instance : MonadStateOf σ (Tx σ ε) where
  get := fun s => .done s s
  set s := fun _ => .done s ()
  modifyGet f := fun s => let (a, s') := f s; .done s' a

/-- Ends the call, undoing everything it did. -/
def revert (e : ε) : Tx σ ε α := fun _ => .revert e

/-- `if (c) revert e;` -/
def revertIf (c : Prop) [Decidable c] (e : ε) : Tx σ ε Unit := if c then revert e else pure ()

/-- The value of a checked operation; `e` when it overflows. -/
def checked (e : ε) : Option α → Tx σ ε α
  | some a => pure a
  | none => revert e

/-- A call with value and no data; the answer says whether it succeeded. -/
def call (dst : Address) (amount : Uint256) : Tx σ ε Bool :=
  fun s => .send s dst amount fun ok s' => .done s' ok

@[simp] theorem pure_apply (a : α) (s : σ) : (pure a : Tx σ ε α) s = .done s a := rfl

@[simp] theorem bind_apply (x : Tx σ ε α) (f : α → Tx σ ε β) (s : σ) :
    (x >>= f) s = (x s).bind f := rfl

theorem bind_assoc {γ : Type} (x : Tx σ ε α) (f : α → Tx σ ε β) (g : β → Tx σ ε γ) :
    x >>= f >>= g = x >>= fun a => f a >>= g :=
  funext fun s => Prog.bind_assoc (x s) f g

/-- Code that runs like other code from another store goes on like it. -/
theorem bind_congr {x y : Tx σ ε α} {s s' : σ} (h : x s = y s') (f : α → Tx σ ε β) :
    (x >>= f) s = (y >>= f) s' := congrArg (Prog.bind · f) h

@[simp] theorem get_apply (s : σ) : (get : Tx σ ε σ) s = .done s s := rfl

@[simp] theorem modify_apply (f : σ → σ) (s : σ) : (modify f : Tx σ ε Unit) s = .done (f s) () := rfl

@[simp] theorem revert_apply (e : ε) (s : σ) : (revert e : Tx σ ε α) s = .revert e := rfl

@[simp] theorem checked_some (e : ε) (a : α) : (checked e (some a) : Tx σ ε α) = pure a := rfl

@[simp] theorem call_apply (dst : Address) (amount : Uint256) (s : σ) :
    (call dst amount : Tx σ ε Bool) s = .send s dst amount fun ok s' => .done s' ok := rfl

/-- A check that passes does nothing. -/
theorem revertIf_pass {c : Prop} [Decidable c] {e : ε} {f : Unit → Tx σ ε α} {s : σ} (h : ¬ c) :
    (revertIf c e >>= f) s = f () s := by
  unfold revertIf
  rw [if_neg h]
  rfl

/-- A check that fails ends the call. -/
theorem revertIf_fail {c : Prop} [Decidable c] {e : ε} {f : Unit → Tx σ ε α} {s : σ} (h : c) :
    (revertIf c e >>= f) s = .revert e := by
  unfold revertIf
  rw [if_pos h]
  rfl

/-- A checked operation that does not overflow gives its value. -/
theorem checked_pass {e : ε} {x : Option α} {a : α} {f : α → Tx σ ε β} {s : σ} (h : x = some a) :
    (checked e x >>= f) s = f a s := by
  rw [h]
  rfl

/-- Code that begins with a check does not fail with an error that neither the check nor the code
behind it has. -/
theorem revertIf_ne {c : Prop} [Decidable c] {e e' : ε} {f : Unit → Tx σ ε α} {s : σ}
    (he : c → e ≠ e') (h : ¬ c → f () s ≠ .revert e') : (revertIf c e >>= f) s ≠ .revert e' := by
  by_cases hc : c
  · unfold revertIf
    rw [if_pos hc]
    exact fun heq => he hc (Prog.revert.inj heq)
  · rw [revertIf_pass hc]
    exact h hc

theorem checked_ne {e e' : ε} {x : Option α} {f : α → Tx σ ε β} {s : σ} (he : x = none → e ≠ e')
    (h : ∀ a, x = some a → f a s ≠ .revert e') : (checked e x >>= f) s ≠ .revert e' := by
  cases x with
  | none => exact fun heq => he rfl (Prog.revert.inj heq)
  | some a => exact h a rfl

/-- Code behind a check runs only when the check passes. -/
theorem revertIf_bind {c : Prop} [Decidable c] {e : ε} {f : Unit → Tx σ ε α} {s : σ}
    (h : ((revertIf c e >>= f) s).Live) : ¬ c ∧ (f () s).Live := by
  unfold revertIf at h
  by_cases hc : c
  · rw [if_pos hc] at h; exact absurd h (Prog.not_live_revert e)
  · rw [if_neg hc] at h; exact ⟨hc, h⟩

/-- Code behind a checked operation runs only when the operation does not overflow. -/
theorem checked_bind {e : ε} {x : Option α} {f : α → Tx σ ε β} {s : σ}
    (h : ((checked e x >>= f) s).Live) : ∃ a, x = some a ∧ (f a s).Live := by
  cases x with
  | none => exact absurd h (Prog.not_live_revert e)
  | some a => exact ⟨a, rfl, h⟩

end Tx

end Evm
