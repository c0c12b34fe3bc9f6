import Pprev.Evm.Prog
import Mathlib.Algebra.BigOperators.Group.List.Basic

/-!
# A contract among arbitrary accounts

The machine runs one contract. Anyone may call it at any time, also an account that the contract
is sending ether to: a transfer pushes a frame with the suspended code, control goes to the
environment, and the frame is resumed when the recipient accepts or fails. A recipient that fails
takes back everything that happened since it received control; code that reverts takes back its
whole call. A run is a list of events chosen by the environment, so what holds in every
configuration of every run holds for every behaviour of every caller and recipient, nested to any
depth.
-/

namespace Evm

/-- Contract code: the ether a message carries, which block may follow which, and what the code
does with a message in a block. -/
structure Code (β κ σ ε α : Type) where
  value : κ → ℕ
  next : β → β → Bool
  run : β → κ → Tx σ ε α

/-- A call as it was made: block, message, and the store it found. -/
structure Entry (β κ σ : Type) where
  block : β
  msg : κ
  before : σ

/-- A transfer the contract made; `delivered` says whether the recipient accepted it. -/
structure Payment where
  dst : Address
  amount : Uint256
  delivered : Bool
  deriving DecidableEq

def Payment.pair (p : Payment) : Address × Uint256 := (p.dst, p.amount)

/-- A call that ended without reverting, with the transfers it made and its result. -/
structure Record (β κ σ α : Type) where
  entry : Entry β κ σ
  paid : List Payment
  result : α

/-- What a revert takes back: the store, the contract's ether, the ether held elsewhere (`forced`
of what the contract holds came without a call), and the successful calls, latest first. -/
structure World (β κ σ α : Type) where
  store : σ
  balance : ℕ
  outside : ℕ
  forced : ℕ
  history : List (Record β κ σ α)

namespace World

variable {β κ σ α : Type}

/-- The contract receives the ether of a call. -/
def receive (w : World β κ σ α) (v : ℕ) : World β κ σ α :=
  { w with balance := w.balance + v, outside := w.outside - v }

/-- The contract sends ether. -/
def pay (w : World β κ σ α) (v : ℕ) : World β κ σ α :=
  { w with balance := w.balance - v, outside := w.outside + v }

/-- Ether arrives without a call. -/
def force (w : World β κ σ α) (v : ℕ) : World β κ σ α :=
  { w with balance := w.balance + v, outside := w.outside - v, forced := w.forced + v }

@[simp] theorem receive_store (w : World β κ σ α) (v : ℕ) : (w.receive v).store = w.store := rfl
@[simp] theorem receive_forced (w : World β κ σ α) (v : ℕ) : (w.receive v).forced = w.forced := rfl
@[simp] theorem receive_history (w : World β κ σ α) (v : ℕ) :
    (w.receive v).history = w.history := rfl
@[simp] theorem receive_balance (w : World β κ σ α) (v : ℕ) :
    (w.receive v).balance = w.balance + v := rfl
@[simp] theorem pay_store (w : World β κ σ α) (v : ℕ) : (w.pay v).store = w.store := rfl
@[simp] theorem pay_forced (w : World β κ σ α) (v : ℕ) : (w.pay v).forced = w.forced := rfl
@[simp] theorem pay_history (w : World β κ σ α) (v : ℕ) : (w.pay v).history = w.history := rfl
@[simp] theorem pay_balance (w : World β κ σ α) (v : ℕ) :
    (w.pay v).balance = w.balance - v := rfl
@[simp] theorem force_store (w : World β κ σ α) (v : ℕ) : (w.force v).store = w.store := rfl
@[simp] theorem force_forced (w : World β κ σ α) (v : ℕ) :
    (w.force v).forced = w.forced + v := rfl
@[simp] theorem force_history (w : World β κ σ α) (v : ℕ) : (w.force v).history = w.history := rfl
@[simp] theorem force_balance (w : World β κ σ α) (v : ℕ) :
    (w.force v).balance = w.balance + v := rfl

end World

/-- A call that waits for a recipient: `start` is the world before the call, `pre` the world just
before the transfer of `amount` to `dst`, `paid` the transfers made earlier in the call. -/
structure Frame (β κ σ ε α : Type) where
  entry : Entry β κ σ
  start : World β κ σ α
  pre : World β κ σ α
  dst : Address
  amount : Uint256
  paid : List Payment
  resume : Bool → σ → Prog σ ε α

namespace Frame

variable {β κ σ ε α : Type}

/-- The world the recipient finds. -/
def handed (f : Frame β κ σ ε α) : World β κ σ α := f.pre.pay f.amount.toNat

/-- The transfers still to come in the call when this one is accepted. -/
def later (f : Frame β κ σ ε α) : List (Address × Uint256) := (f.resume true f.pre.store).payouts

/-- The ether still to be paid out in the call after the present transfer. -/
def pending (f : Frame β κ σ ε α) : ℕ := Prog.total f.later

end Frame

/-- The block, the world, the calls that wait for a recipient (innermost first), and the result of
the call that ended last. -/
structure Config (β κ σ ε α : Type) where
  block : β
  world : World β κ σ α
  stack : List (Frame β κ σ ε α)
  result : Option (Except ε α)

inductive Event (β κ : Type) where
  /-- A new block, outside any call. -/
  | block (b : β)
  /-- Ether forced into the contract. -/
  | force (v : ℕ)
  /-- A call to the contract, by anyone. -/
  | call (m : κ)
  /-- The account in control ends and keeps the ether it was sent. -/
  | accept
  /-- The account in control fails. -/
  | refuse

section Run

variable {β κ σ ε α : Type}

/-- Runs a call on to its end or to its next transfer. A transfer above the contract's balance
fails without handing control out. -/
def advance (b : β) (rest : List (Frame β κ σ ε α)) (entry : Entry β κ σ)
    (start : World β κ σ α) :
    List Payment → World β κ σ α → Prog σ ε α → Config β κ σ ε α
  | paid, w, .done s a =>
      ⟨b, { w with store := s, history := ⟨entry, paid, a⟩ :: w.history }, rest, some (.ok a)⟩
  | _, _, .revert e => ⟨b, start, rest, some (.error e)⟩
  | paid, w, .send s dst amount resume =>
      if amount.toNat ≤ w.balance then
        let f : Frame β κ σ ε α := ⟨entry, start, { w with store := s }, dst, amount, paid, resume⟩
        ⟨b, f.handed, f :: rest, none⟩
      else
        advance b rest entry start (paid ++ [⟨dst, amount, false⟩]) { w with store := s }
          (resume false s)

@[simp] theorem advance_block (b : β) (rest : List (Frame β κ σ ε α)) (entry : Entry β κ σ)
    (start : World β κ σ α) (paid : List Payment) (w : World β κ σ α) (p : Prog σ ε α) :
    (advance b rest entry start paid w p).block = b := by
  induction p generalizing paid w with
  | done s a => rfl
  | revert e => rfl
  | send s dst amount resume ih =>
    rw [advance]
    split_ifs
    · rfl
    · exact ih false s _ _

/-- One event; nothing when the environment cannot cause it. -/
def Code.step (C : Code β κ σ ε α) (c : Config β κ σ ε α) :
    Event β κ → Option (Config β κ σ ε α)
  | .block b => if c.stack.isEmpty && C.next c.block b then some { c with block := b } else none
  | .force v => if v ≤ c.world.outside then some { c with world := c.world.force v } else none
  | .call m =>
      if C.value m ≤ c.world.outside then
        some (advance c.block c.stack ⟨c.block, m, c.world.store⟩ c.world []
          (c.world.receive (C.value m)) (C.run c.block m c.world.store))
      else none
  | .accept =>
      match c.stack with
      | [] => none
      | f :: rest => some (advance c.block rest f.entry f.start (f.paid ++ [⟨f.dst, f.amount, true⟩])
          c.world (f.resume true c.world.store))
  | .refuse =>
      match c.stack with
      | [] => none
      | f :: rest => some (advance c.block rest f.entry f.start
          (f.paid ++ [⟨f.dst, f.amount, false⟩]) f.pre (f.resume false f.pre.store))

/-- A run of events. -/
def Code.exec (C : Code β κ σ ε α) (c : Config β κ σ ε α) :
    List (Event β κ) → Option (Config β κ σ ε α)
  | [] => some c
  | e :: es => (C.step c e).bind fun c' => C.exec c' es

/-- The contract after its deployment, with all other ether outside. -/
def Config.deployed (b : β) (s : σ) (supply : ℕ) : Config β κ σ ε α :=
  ⟨b, ⟨s, 0, supply, 0, []⟩, [], none⟩

/-- A configuration of a run from the deployment. -/
def Code.Reachable (C : Code β κ σ ε α) (b : β) (s : σ) (supply : ℕ) (c : Config β κ σ ε α) : Prop :=
  ∃ es, C.exec (Config.deployed b s supply) es = some c

/-- A property of configurations that one event preserves holds along every run. -/
theorem Code.exec_induction {C : Code β κ σ ε α} {P : Config β κ σ ε α → Prop}
    (hstep : ∀ c e c', P c → C.step c e = some c' → P c') {es : List (Event β κ)} :
    ∀ {c c' : Config β κ σ ε α}, P c → C.exec c es = some c' → P c' := by
  induction es with
  | nil => intro c c' hP h; cases h; exact hP
  | cons e es ih =>
    intro c c' hP h
    obtain ⟨c₁, h₁, h₂⟩ := Option.bind_eq_some_iff.mp h
    exact ih (hstep c e c₁ hP h₁) h₂

theorem Code.exec_append {C : Code β κ σ ε α} (es es' : List (Event β κ)) :
    ∀ c : Config β κ σ ε α, C.exec c (es ++ es') = (C.exec c es).bind fun c' => C.exec c' es' := by
  induction es with
  | nil => intro c; rfl
  | cons e es ih =>
    intro c
    show (C.step c e).bind _ = ((C.step c e).bind _).bind _
    rw [Option.bind_assoc]
    exact congrArg _ (funext ih)

/-- What an event can do, one case an event. -/
theorem Code.step_cases {C : Code β κ σ ε α} {c c' : Config β κ σ ε α} {e : Event β κ}
    (h : C.step c e = some c') :
    (∃ b, e = .block b ∧ c.stack = [] ∧ C.next c.block b = true ∧ c' = { c with block := b }) ∨
    (∃ v, e = .force v ∧ v ≤ c.world.outside ∧ c' = { c with world := c.world.force v }) ∨
    (∃ m, e = .call m ∧ C.value m ≤ c.world.outside ∧
      c' = advance c.block c.stack ⟨c.block, m, c.world.store⟩ c.world []
        (c.world.receive (C.value m)) (C.run c.block m c.world.store)) ∨
    (∃ f rest, e = .accept ∧ c.stack = f :: rest ∧
      c' = advance c.block rest f.entry f.start (f.paid ++ [⟨f.dst, f.amount, true⟩])
        c.world (f.resume true c.world.store)) ∨
    (∃ f rest, e = .refuse ∧ c.stack = f :: rest ∧
      c' = advance c.block rest f.entry f.start (f.paid ++ [⟨f.dst, f.amount, false⟩])
        f.pre (f.resume false f.pre.store)) := by
  cases e with
  | block b =>
    simp only [Code.step] at h
    split_ifs at h with hb
    simp only [Bool.and_eq_true, List.isEmpty_iff] at hb
    exact .inl ⟨b, rfl, hb.1, hb.2, (Option.some.inj h).symm⟩
  | force v =>
    simp only [Code.step] at h
    split_ifs at h with hv
    exact .inr (.inl ⟨v, rfl, hv, (Option.some.inj h).symm⟩)
  | call m =>
    simp only [Code.step] at h
    split_ifs at h with hv
    exact .inr (.inr (.inl ⟨m, rfl, hv, (Option.some.inj h).symm⟩))
  | accept =>
    cases hs : c.stack with
    | nil => simp only [Code.step, hs] at h; cases h
    | cons f rest =>
      simp only [Code.step, hs] at h
      exact .inr (.inr (.inr (.inl ⟨f, rest, rfl, rfl, (Option.some.inj h).symm⟩)))
  | refuse =>
    cases hs : c.stack with
    | nil => simp only [Code.step, hs] at h; cases h
    | cons f rest =>
      simp only [Code.step, hs] at h
      exact .inr (.inr (.inr (.inr ⟨f, rest, rfl, rfl, (Option.some.inj h).symm⟩)))

end Run

end Evm
