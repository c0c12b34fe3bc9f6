import Pprev.Contract.Effects
import Pprev.Evm.Discipline

/-!
# The payout rule

A payout either reaches its recipient or is credited to it, so that the function it belongs to
goes on in the same way in both cases and the books stay balanced.
-/

namespace Pprev

open Evm Function Tx

/-- The transfers of a payout. -/
def transfer (dst : Address) (amount : Uint256) : List (Address × Uint256) :=
  if amount = 0 then [] else [(dst, amount)]

theorem total_transfer (dst : Address) (amount : Uint256) :
    Prog.total (transfer dst amount) = amount.toNat := by
  unfold transfer
  split_ifs with h
  · rw [h]; rfl
  · rfl

section

variable {keccak256 : Bytes → Bytes32} (d : Deployment keccak256) (b : Block)

/-- A run from `s` on that keeps the invariant, lets the storage evolve, accounts for `t` and makes
the transfers `plan`. -/
structure Behaves {α : Type} (s : State) (t : ℕ) (plan : List (Address × Uint256))
    (p : Prog State Err α) : Prop where
  conforms : p.Conforms (Inv d b.timestamp) Evolves obligations s t
  payouts : p.payouts = plan

variable {d b} {α : Type} {s s' : State} {t : ℕ} {plan : List (Address × Uint256)}

theorem Behaves.of_evolves {p : Prog State Err α} (hev : Evolves s s')
    (h : Behaves d b s' t plan p) : Behaves d b s t plan p :=
  ⟨h.conforms.of_rel (R := Evolves) (fun _ _ _ h₁ h₂ => h₁.trans h₂) hev, h.payouts⟩

/-- What a payout does, followed by `f`. -/
theorem pay_bind {dst : Address} {amount : Uint256} {f : Unit → Tx State Err α}
    (h0 : amount ≠ 0) : (pay dst amount >>= f) s = .send s dst amount fun ok s' =>
      if ok then f () s'
      else (checked .panic (checkedAdd (s'.credit dst) amount) >>= fun c =>
        set (s'.credited dst amount c) >>= f) s' := by
  rw [pay, if_neg h0, Tx.bind_assoc]
  show Prog.send s dst amount _ = _
  congr 1
  funext ok s'
  cases ok with
  | true => rfl
  | false =>
    show ((checked _ _ >>= fun c => set (s'.credited dst amount c)) >>= f) s' = _
    rw [Tx.bind_assoc]
    rfl

theorem pay_zero {dst : Address} {f : Unit → Tx State Err α} :
    (pay dst 0 >>= f) s = f () s := by
  rw [pay, if_pos rfl]
  rfl

/-- A payout does not fail before its recipient is in control. -/
theorem pay_ne {dst : Address} {amount : Uint256} {e : Err} : pay dst amount s ≠ .revert e := by
  unfold pay
  split_ifs <;> exact fun heq => by cases heq

theorem pay_bind_ne {dst : Address} {amount : Uint256} {f : Unit → Tx State Err α} {e : Err}
    (h : f () s ≠ .revert e) : (pay dst amount >>= f) s ≠ .revert e := by
  by_cases h0 : amount = 0
  · subst h0
    rwa [pay_zero]
  · rw [pay_bind h0]
    exact fun heq => by cases heq

/-- A function that ends with its effects. -/
theorem Accounted.behaves_done {value : ℕ} (h : Accounted d b s value 0 s') (a : α) :
    Behaves d b s (obligations s + value) [] (.done s' a : Prog State Err α) :=
  ⟨⟨h.inv, h.evolves, h.owed⟩, rfl⟩

/-- What follows a payout is reached from every later store, after a failed payout from the store
with the credit. -/
theorem pay_behaves {dst : Address} {amount : Uint256} {f : Unit → Tx State Err α}
    (hinv : Inv d b.timestamp s') (hev : Evolves s s')
    (hf : ∀ s'', Inv d b.timestamp s'' → Evolves s' s'' →
      Behaves d b s'' (obligations s'' + Prog.total plan) plan (f () s''))
    (ht : obligations s' + amount.toNat + Prog.total plan = t) :
    Behaves d b s t (transfer dst amount ++ plan) ((pay dst amount >>= f) s') := by
  have hnext := hf s' hinv (.refl s')
  by_cases h0 : amount = 0
  · subst h0
    have hplan : transfer dst 0 ++ plan = plan := by
      rw [transfer, if_pos rfl, List.nil_append]
    have ht' : t = obligations s' + Prog.total plan := by simpa using ht.symm
    rw [pay_zero, hplan, ht']
    exact hnext.of_evolves hev
  · rw [pay_bind h0]
    have hplan : transfer dst amount ++ plan = (dst, amount) :: plan := by
      rw [transfer, if_neg h0]
      rfl
    refine ⟨⟨hinv, hev, ?_, ?_, ?_, fun s'' hi he => ?_⟩, ?_⟩
    · show _ + Prog.total ((f () s').payouts) = t
      rw [hnext.payouts, ht]
    -- the payout fails: the recipient is credited
    · refine Prog.conforms_of_live fun hl => ?_
      obtain ⟨c, hc, -⟩ := checked_bind (e := Err.panic) hl
      obtain ⟨hlt, rfl⟩ := checkedAdd_eq_some.mp hc
      have hacc := credited_accounted hinv hlt
      have hcont := (hf _ hacc.inv hacc.evolves).of_evolves hacc.evolves
      have howed : t = obligations (s'.credited dst amount (s'.credit dst + amount)) +
          Prog.total plan := by
        have := hacc.owed
        omega
      show Prog.Conforms _ _ _ s' t ((checked _ _ >>= _) s')
      rw [checked_pass hc, howed]
      exact hcont.conforms
    · intro hl
      obtain ⟨c, hc, -⟩ := checked_bind (e := Err.panic) hl
      obtain ⟨hlt, rfl⟩ := checkedAdd_eq_some.mp hc
      have hacc := credited_accounted hinv hlt
      show ((checked _ _ >>= _) s').payouts = (f () s').payouts
      rw [checked_pass hc, hnext.payouts]
      exact (hf _ hacc.inv hacc.evolves).payouts
    · have hcont := hf s'' hi he
      show ((f () s'').Conforms _ _ _ _ (_ + Prog.total (f () s').payouts)) ∧
        (f () s'').payouts = (f () s').payouts
      rw [hnext.payouts]
      exact ⟨hcont.conforms, hcont.payouts⟩
    · rw [hplan, ← hnext.payouts]
      rfl

/-- A function that ends after a payout. -/
theorem pay_last {dst : Address} {amount : Uint256} {value : ℕ} {a : α}
    (h : Accounted d b s value amount.toNat s') :
    Behaves d b s (obligations s + value) (transfer dst amount)
      ((pay dst amount >>= fun _ => pure a) s') := by
  have hplan : Behaves d b s (obligations s + value) (transfer dst amount ++ [])
      ((pay dst amount >>= fun _ => pure a) s') :=
    pay_behaves h.inv h.evolves (fun s'' hi _ => ⟨⟨hi, .refl s'', by simp⟩, rfl⟩)
      (by simpa using h.owed)
  rwa [List.append_nil] at hplan

/-- A function that ends after a payout and a second one. -/
theorem pay_then {dst dst' : Address} {amount amount' : Uint256} {value : ℕ}
    {f : Unit → Tx State Err α} (h : Accounted d b s value (amount.toNat + amount'.toNat) s')
    (hf : ∀ s'', Inv d b.timestamp s'' → Evolves s' s'' →
      Behaves d b s'' (obligations s'' + amount'.toNat) (transfer dst' amount') (f () s'')) :
    Behaves d b s (obligations s + value) (transfer dst amount ++ transfer dst' amount')
      ((pay dst amount >>= f) s') := by
  refine pay_behaves h.inv h.evolves (fun s'' hi he => ?_) ?_
  · rw [total_transfer]
    exact hf s'' hi he
  · rw [total_transfer, Nat.add_assoc]
    exact h.owed

/-- A payout on its own. -/
theorem pay_alone {dst : Address} {amount : Uint256} {a : α} (h : Inv d b.timestamp s) :
    Behaves d b s (obligations s + amount.toNat) (transfer dst amount)
      ((pay dst amount >>= fun _ => pure a) s) :=
  pay_last ⟨h, .refl s, rfl⟩

end

end Pprev
