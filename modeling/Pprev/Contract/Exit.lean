import Pprev.Contract.Robust

/-!
# No blocked exit and no stranded funds

Every open engagement whose window has passed can be expired by anyone, every pending application
reclaimed, every open listing cancelled, and every credit withdrawn, whatever the recipients of
payouts do. Each of these either takes something out of what is held for a record or takes a credit
out of the contract, so finitely many of them empty it.
-/

namespace Pprev

open Evm Function Tx

section

variable {keccak256 : Bytes → Bytes32} {d : Deployment keccak256} {b : Block} {m : Msg}
  {s : State} {supply : ℕ} {c : Config Block Msg State Err Uint256}

/-! ## The conditions of an exit -/

theorem guard_expire {engId : Uint256} (h : Inv d b.timestamp s) (hlt : obligations s < 2 ^ 128)
    (hc : m.call = .expire engId) (hv : m.value = 0) (hopen : (s.engagements engId).status = .open)
    (hpast : (s.engagements engId).expiresAt.toNat < b.timestamp) : Guard d b m s := by
  have g : ExpireChecks b s engId := ⟨hopen, h.valid.locked.state engId hopen, hpast⟩
  simp only [Guard, hc]
  exact ⟨hv, g, expireAmounts_of_checks h g hlt⟩

theorem guard_reclaim {appId : Uint256} (hc : m.call = .reclaim appId) (hv : m.value = 0)
    (hs : m.sender = (s.applications appId).depositor)
    (hpending : (s.applications appId).status = .pending) : Guard d b m s := by
  simp only [Guard, hc]
  exact ⟨hv, hs, hpending⟩

theorem guard_cancel {txId : Uint256} (hc : m.call = .cancel txId) (hv : m.value = 0)
    (hs : m.sender = (s.listings txId).owner)
    (hstate : s.txState txId = .active ∨ s.txState txId = .expired) : Guard d b m s := by
  simp only [Guard, hc]
  exact ⟨hv, hs, hstate⟩

theorem guard_withdraw (hc : m.call = .withdraw) (hv : m.value = 0) (hcredit : s.credit m.sender ≠ 0) :
    Guard d b m s := by
  simp only [Guard, hc]
  exact ⟨hv, hcredit⟩

theorem value_eq_zero (hv : m.value = 0) : (code d).value m = 0 := by
  show m.value.toNat = 0
  rw [hv]
  rfl

/-- A call whose conditions hold succeeds, a withdrawal unless its caller refuses the ether. -/
theorem Runs.succeeds (h : Runs d supply c) (hlt : supply < 2 ^ 128) (hv : m.value = 0)
    (g : Guard d c.block m c.world.store) {mayFail : Bool}
    (hw : m.call = .withdraw → mayFail = false) : (code d).Succeeds mayFail c m := by
  obtain ⟨base, hok⟩ := h.ok
  have hbound : supply < 2 ^ 256 := hlt.trans (by decide)
  have hvalue := value_eq_zero (d := d) hv
  refine Discipline.robust_succeeds hok (by omega) ?_
  by_cases hc : m.call = .withdraw
  · rw [hw hc]
    exact withdraw_robust hc g
  · refine run_robust hbound h.inv ?_ g hc mayFail
    have := h.obligations_le
    rw [hv]
    exact this

/-! ## What is left by a call -/

section Keeps

variable {Q : State → Prop} {α : Type}

theorem pay_keeps (hcredit : ∀ s dst amount credit, Q s → Q (s.credited dst amount credit))
    {dst : Address} {amount : Uint256} {f : Unit → Tx State Err α} (hq : Q s)
    (hf : ∀ s', Q s' → (f () s').Keeps Q) : ((pay dst amount >>= f) s).Keeps Q := by
  by_cases h0 : amount = 0
  · subst h0
    rw [pay_zero]
    exact hf s hq
  · rw [pay_bind h0]
    refine ⟨hq, fun ok => ?_⟩
    cases ok with
    | true => exact hf s hq
    | false =>
      show ((checked _ (checkedAdd (s.credit dst) amount) >>= _) s).Keeps Q
      cases checkedAdd (s.credit dst) amount with
      | none => trivial
      | some credit => exact hf _ (hcredit _ _ _ _ hq)

/-- What holds of the effect of a call and survives credits holds to its end. -/
theorem followUp_keeps (hcredit : ∀ s dst amount credit, Q s → Q (s.credited dst amount credit))
    {s₁ : State} (hq : Q s₁) : (followUp d m s s₁).Keeps Q := by
  refine followUp_rec (Q := fun p s' => Q s' → p.Keeps Q) (fun _ _ => id)
    (fun _ _ _ _ hf hq => pay_keeps hcredit hq hf) (fun s' hq => ⟨hq, fun ok => ?_⟩) s₁ hq
  cases ok with
  | true => exact hq
  | false => trivial

end Keeps

/-! ## Emptying the contract -/

/-- What anyone can do to empty the contract: wait, until `limit` at most; expire, reclaim or
cancel, with recipients that accept or fail as `answer` says; and withdraw, with accounts that
accept their credit. -/
inductive Exit (d : Deployment keccak256) (limit : ℕ)
    (answer : Config Block Msg State Err Uint256 → Bool) :
    Config Block Msg State Err Uint256 → Config Block Msg State Err Uint256 → Prop
  | wait (c c' : Config Block Msg State Err Uint256) (t : ℕ) (hlimit : t ≤ limit)
      (hstep : (code d).step c (.block ⟨t, c.block.chainid⟩) = some c') : Exit d limit answer c c'
  | call (c c₁ c' : Config Block Msg State Err Uint256) (m : Msg) (hstack : c.stack = [])
      (hcall : (∃ engId, m.call = .expire engId) ∨ (∃ appId, m.call = .reclaim appId) ∨
        ∃ txId, m.call = .cancel txId)
      (hstep : (code d).step c (.call m) = some c₁)
      (hanswers : (code d).Answers answer c₁ c') : Exit d limit answer c c'
  | withdraw (c c₁ c' : Config Block Msg State Err Uint256) (m : Msg) (hstack : c.stack = [])
      (hcall : m.call = .withdraw) (hstep : (code d).step c (.call m) = some c₁)
      (hanswers : (code d).Answers (fun _ => true) c₁ c') : Exit d limit answer c c'

variable (d supply) in
/-- Outside any call, with nothing forced in, and with every window over before `limit`. -/
structure Winding (limit : ℕ) (c : Config Block Msg State Err Uint256) : Prop where
  runs : Runs d supply c
  stack : c.stack = []
  forced : c.world.forced = 0
  now : c.block.timestamp ≤ limit
  windows : ∀ e, (c.world.store.engagements e).status = .open →
    (c.world.store.engagements e).expiresAt.toNat < limit

/-- What is held and what is in the contract; every exit takes from one of them. -/
noncomputable def remaining (c : Config Block Msg State Err Uint256) : ℕ :=
  c.world.store.book.held + c.world.balance

variable {limit : ℕ} {answer : Config Block Msg State Err Uint256 → Bool}

theorem Winding.balance (h : Winding d supply limit c) :
    c.world.balance = obligations c.world.store := by
  rw [(solvency h.runs).1 h.stack, h.forced, Nat.add_zero]

variable (answer) in
/-- A call made from outside returns when its recipients only answer. -/
theorem Winding.call (h : Winding d supply limit c) (hlt : supply < 2 ^ 128) (hv : m.value = 0)
    (g : Guard d c.block m c.world.store) {mayFail : Bool}
    (hw : m.call = .withdraw → mayFail = false) (hans : mayFail = false → ∀ c, answer c = true)
    {Q : State → Prop} (hk : (run d c.block m c.world.store).Keeps Q)
    (hwin : ∀ s, Q s → ∀ e, (s.engagements e).status = .open →
      (s.engagements e).expiresAt.toNat < limit) :
    ∃ c₁ c', (code d).step c (.call m) = some c₁ ∧ (code d).Answers answer c₁ c' ∧
      Winding d supply limit c' ∧ Q c'.world.store ∧ c'.world.balance ≤ c.world.balance := by
  have hbound : supply < 2 ^ 256 := hlt.trans (by decide)
  have hvalue := value_eq_zero (d := d) hv
  have hle := h.runs.obligations_le
  have hrobust : (run d c.block m c.world.store).Robust (Inv d c.block.timestamp) Evolves
      obligations supply mayFail := by
    by_cases hc : m.call = .withdraw
    · rw [hw hc]
      exact withdraw_robust hc g
    · exact run_robust hbound h.runs.inv (by rw [hv]; exact hle) g hc mayFail
  have hconf : (run d c.block m c.world.store).Conforms (Inv d c.block.timestamp) Evolves
      obligations c.world.store (obligations c.world.store) := by
    have := (run_behaves h.runs.inv g).conforms
    rwa [hv] at this
  let c₁ := advance c.block [] ⟨c.block, m, c.world.store⟩ c.world []
    (c.world.receive ((code d).value m)) (run d c.block m c.world.store)
  have hstep : (code d).step c (.call m) = some c₁ := by
    have hvle : (code d).value m ≤ c.world.outside := by omega
    simp only [Code.step, if_pos hvle, h.stack]
    rfl
  have hreturns : ∃ c', (code d).Answers answer c₁ c' ∧ c'.block = c.block ∧ c'.stack = [] ∧
      Q c'.world.store ∧ c'.world.balance ≤ (c.world.receive ((code d).value m)).balance ∧
      c'.world.forced = (c.world.receive ((code d).value m)).forced :=
    (discipline d).robust_returns hans hconf
      (by rw [World.receive_balance, h.balance]; omega) hle hrobust hk
  obtain ⟨c', hrun, hblock, hst, hQ, hbal, hforced⟩ := hreturns
  refine ⟨_, c', hstep, hrun, ⟨?_, hst, ?_, ?_, hwin _ hQ⟩, hQ, ?_⟩
  · obtain ⟨es, hes⟩ := hrun.exec
    have hexec : (code d).exec c (.call m :: es) = some c' := by
      show ((code d).step c (.call m)).bind _ = _
      rw [hstep]
      exact hes
    exact h.runs.exec hexec
  · rw [hforced, World.receive_forced, h.forced]
  · rw [hblock]
    exact h.now
  · rwa [World.receive_balance, hvalue, Nat.add_zero] at hbal

variable (answer) in
/-- An exit that takes something out of what is held makes progress. -/
theorem Winding.leave (h : Winding d supply limit c) (hlt : supply < 2 ^ 128) (hv : m.value = 0)
    (g : Guard d c.block m c.world.store)
    (hcall : (∃ engId, m.call = .expire engId) ∨ (∃ appId, m.call = .reclaim appId) ∨
      ∃ txId, m.call = .cancel txId)
    (hheld : (effect d c.block m c.world.store).book.held < c.world.store.book.held)
    (hwin : ∀ e, ((effect d c.block m c.world.store).engagements e).status = .open →
      ((effect d c.block m c.world.store).engagements e).expiresAt.toNat < limit) :
    ∃ c', Exit d limit answer c c' ∧ Winding d supply limit c' ∧ remaining c' < remaining c := by
  have hw : m.call = .withdraw → true = false := by
    rcases hcall with ⟨_, hc⟩ | ⟨_, hc⟩ | ⟨_, hc⟩ <;> simp [hc]
  let Q : State → Prop := fun s => s.book.held = (effect d c.block m c.world.store).book.held ∧
    ∀ e, (s.engagements e).status = .open → (s.engagements e).expiresAt.toNat < limit
  have hkeeps : (run d c.block m c.world.store).Keeps Q := by
    rw [run_eq g]
    refine followUp_keeps (fun s dst amount credit hq => ⟨?_, hq.2⟩) ⟨rfl, hwin⟩
    rw [← hq.1]
    exact Book.held_credit (b := s.book) _
  obtain ⟨c₁, c', hstep, hans, hwinding, hq, hbal⟩ :=
    h.call answer hlt hv g hw (fun h => absurd h (by decide)) hkeeps fun s hq => hq.2
  refine ⟨c', .call c c₁ c' m h.stack hcall hstep hans, hwinding, ?_⟩
  have hheld' : c'.world.store.book.held < c.world.store.book.held := by rwa [hq.1]
  unfold remaining
  omega

variable (answer) in
/-- A credit can be withdrawn. -/
theorem Winding.withdraw (h : Winding d supply limit c) (hlt : supply < 2 ^ 128) {w : Address}
    (hw : c.world.store.credit w ≠ 0) :
    ∃ c', Exit d limit answer c c' ∧ Winding d supply limit c' ∧ remaining c' < remaining c := by
  let m : Msg := ⟨w, 0, fun _ _ _ => none, .withdraw⟩
  have g : Guard d c.block m c.world.store := guard_withdraw rfl rfl hw
  have hacc := withdrawn_accounted (m := m) h.runs.inv
  have hheld : (c.world.store.withdrawn m).book.held = c.world.store.book.held :=
    Book.held_credit (b := c.world.store.book) _
  let Q : State → Prop := fun s => s = c.world.store.withdrawn m
  have hkeeps : (run d c.block m c.world.store).Keeps Q := by
    rw [run_eq g]
    refine ⟨rfl, fun ok => ?_⟩
    cases ok with
    | true => exact rfl
    | false => trivial
  have hanswers : m.call = .withdraw → false = false := fun _ => rfl
  obtain ⟨c₁, c', hstep, hans, hwinding, hq, -⟩ := h.call (fun _ => true) hlt rfl g
    hanswers (fun _ _ => rfl) hkeeps (by rintro s rfl; exact h.windows)
  refine ⟨c', .withdraw c c₁ c' m h.stack rfl hstep hans, hwinding, ?_⟩
  have hcredit : (c.world.store.credit w).toNat ≠ 0 := fun h0 => hw (BitVec.eq_of_toNat_eq h0)
  have howed := hacc.owed
  unfold remaining
  rw [hwinding.balance, h.balance, show c'.world.store = c.world.store.withdrawn m from hq, hheld]
  show _ + obligations (c.world.store.withdrawn m) < _
  have : (c.world.store.credit m.sender).toNat = (c.world.store.credit w).toNat := rfl
  omega

variable (answer) in
theorem Winding.reclaim (h : Winding d supply limit c) (hlt : supply < 2 ^ 128) {appId : Uint256}
    (hpending : (c.world.store.applications appId).status = .pending)
    (hdep : (c.world.store.applications appId).deposit.toNat ≠ 0) :
    ∃ c', Exit d limit answer c c' ∧ Winding d supply limit c' ∧ remaining c' < remaining c := by
  let m : Msg := ⟨(c.world.store.applications appId).depositor, 0, fun _ _ _ => none,
    .reclaim appId⟩
  have hacc := reclaimed_accounted (m := m) h.runs.inv ⟨rfl, hpending⟩
  have hheld := Book.held_of_owed (b := c.world.store.book)
    (c.world.store.reclaimed m appId).book (y := 0) rfl
    (by rw [← obligations_eq_owed, ← obligations_eq_owed]; exact hacc.owed)
  refine h.leave answer (m := m) hlt rfl (guard_reclaim rfl rfl rfl hpending) (.inr (.inl ⟨_, rfl⟩)) ?_
    h.windows
  show (c.world.store.reclaimed m appId).book.held < _
  omega

variable (answer) in
theorem Winding.cancel (h : Winding d supply limit c) (hlt : supply < 2 ^ 128) {txId : Uint256}
    (hstate : c.world.store.txState txId = .active ∨ c.world.store.txState txId = .expired)
    (hcol : (c.world.store.listings txId).collateral.toNat ≠ 0) :
    ∃ c', Exit d limit answer c c' ∧ Winding d supply limit c' ∧ remaining c' < remaining c := by
  let m : Msg := ⟨(c.world.store.listings txId).owner, 0, fun _ _ _ => none, .cancel txId⟩
  have hacc := cancelled_accounted (m := m) h.runs.inv ⟨rfl, hstate⟩
  have hheld := Book.held_of_owed (b := c.world.store.book)
    (c.world.store.cancelled txId).book (y := 0) rfl
    (by rw [← obligations_eq_owed, ← obligations_eq_owed]; exact hacc.owed)
  refine h.leave answer (m := m) hlt rfl (guard_cancel rfl rfl rfl hstate) (.inr (.inr ⟨_, rfl⟩)) ?_
    h.windows
  show (c.world.store.cancelled txId).book.held < _
  omega

/-- An expiration costs something unless there is nothing at stake. -/
theorem expirePayouts_pos {engId : Uint256} (a : ExpireAmounts d s engId)
    (hstake : (s.applications (s.engagements engId).appId).deposit.toNat ≠ 0 ∨
      (s.listings (s.listingOf engId)).collateral.toNat ≠ 0) : 0 < s.expirePayouts d engId := by
  have hcomp := a.compensation_toNat
  have hsurv : (surviving d (s.listings (s.listingOf engId)).collateral).toNat =
      (s.listings (s.listingOf engId)).collateral.toNat * d.RHO.toNat / 10000 := a.surviving_toNat
  have hlt : (s.listings (s.listingOf engId)).collateral.toNat ≠ 0 →
      (surviving d (s.listings (s.listingOf engId)).collateral).toNat <
        (s.listings (s.listingOf engId)).collateral.toNat := by
    intro hcol
    rw [hsurv]
    refine Nat.div_lt_of_lt_mul ?_
    rw [Nat.mul_comm]
    exact Nat.mul_lt_mul_of_pos_right (rho_lt d) (Nat.pos_of_ne_zero hcol)
  unfold State.expirePayouts
  rw [toNat_add_of_lt a.toDepositor]
  omega

variable (answer) in
/-- An open engagement with something at stake can be waited for and expired. -/
theorem Winding.expire (h : Winding d supply limit c) (hlt : supply < 2 ^ 128) {engId : Uint256}
    (hopen : (c.world.store.engagements engId).status = .open)
    (hstake : (c.world.store.applications (c.world.store.engagements engId).appId).deposit.toNat ≠ 0 ∨
      (c.world.store.listings (c.world.store.listingOf engId)).collateral.toNat ≠ 0) :
    ∃ c', Relation.ReflTransGen (Exit d limit answer) c c' ∧ Winding d supply limit c' ∧
      remaining c' < remaining c := by
  -- wait until the window has passed
  let t := max c.block.timestamp ((c.world.store.engagements engId).expiresAt.toNat + 1)
  let c₀ : Config Block Msg State Err Uint256 := { c with block := ⟨t, c.block.chainid⟩ }
  have ht : t ≤ limit := max_le h.now (h.windows engId hopen)
  have hnext : (code d).next c.block ⟨t, c.block.chainid⟩ = true :=
    decide_eq_true (le_max_left _ _)
  have hwait : (code d).step c (.block ⟨t, c.block.chainid⟩) = some c₀ := by
    simp only [Code.step]
    exact if_pos (by simp [h.stack, hnext])
  have h₀ : Winding d supply limit c₀ := by
    have hexec : (code d).exec c [.block ⟨t, c.block.chainid⟩] = some c₀ := by
      show ((code d).step c _).bind _ = _
      rw [hwait]
      rfl
    exact ⟨h.runs.exec hexec, h.stack, h.forced, ht, h.windows⟩
  have hpast : (c.world.store.engagements engId).expiresAt.toNat < c₀.block.timestamp :=
    Nat.lt_of_succ_le (le_max_right _ _)
  let m : Msg := ⟨0, 0, fun _ _ _ => none, .expire engId⟩
  have hobl : obligations c₀.world.store < 2 ^ 128 := h₀.runs.obligations_le.trans_lt hlt
  have g : ExpireChecks c₀.block c₀.world.store engId :=
    ⟨hopen, h.runs.inv.valid.locked.state engId hopen, hpast⟩
  have a := expireAmounts_of_checks h₀.runs.inv g hobl
  have hacc := afterExpire_accounted h₀.runs.inv g a
  have hheld := Book.held_of_owed (b := c.world.store.book)
    (c.world.store.afterExpire d engId).book (y := 0) rfl
    (by rw [← obligations_eq_owed, ← obligations_eq_owed]; exact hacc.owed)
  have hpos : 0 < c.world.store.expirePayouts d engId := expirePayouts_pos a hstake
  obtain ⟨c', hexit, hwinding, hless⟩ := h₀.leave answer (m := m) hlt rfl
    (guard_expire h₀.runs.inv hobl rfl rfl hopen hpast) (.inl ⟨_, rfl⟩)
    (by
      show (c.world.store.afterExpire d engId).book.held < c.world.store.book.held
      have : (c.world.store.afterExpire d engId).book.held +
        c.world.store.expirePayouts d engId = c.world.store.book.held + 0 := hheld
      omega)
    (by
      intro e he
      by_cases heq : e = engId
      · subst heq
        have hst : ((c.world.store.afterExpire d e).engagements e).status = .expired := by
          simp [State.afterExpire, State.expired]
        rw [show ((effect d c₀.block m c₀.world.store).engagements e).status = _ from hst] at he
        cases he
      · have hsame : (c.world.store.afterExpire d engId).engagements e =
            c.world.store.engagements e := by
          simp [State.afterExpire, State.expired, heq]
        rw [show (effect d c₀.block m c₀.world.store).engagements e = _ from hsame] at he ⊢
        exact h.windows e he)
  exact ⟨c', .head (.wait c c₀ t ht hwait) (.single hexit), hwinding, hless⟩

variable (answer) in
/-- While anything is left someone can make progress. -/
theorem Winding.progress (h : Winding d supply limit c) (hlt : supply < 2 ^ 128)
    (hleft : c.world.balance ≠ 0) :
    ∃ c', Relation.ReflTransGen (Exit d limit answer) c c' ∧ Winding d supply limit c' ∧
      remaining c' < remaining c := by
  have howed : c.world.store.book.owed ≠ 0 := by
    rw [← obligations_eq_owed, ← h.balance]
    exact hleft
  by_cases hheld : c.world.store.book.held = 0
  · obtain ⟨w, hw⟩ := Book.credit_ne_zero howed hheld
    obtain ⟨c', hexit, hrest⟩ := h.withdraw answer hlt (w := w) fun h0 => hw (by
      show (c.world.store.credit w).toNat = 0
      rw [h0]
      rfl)
    exact ⟨c', .single hexit, hrest⟩
  · rcases Book.held_ne_zero hheld with ⟨a, hpending, hdep⟩ | ⟨e, hopen, hdep⟩ |
      ⟨t, hstate, hcol⟩
    · obtain ⟨c', hexit, hrest⟩ := h.reclaim answer hlt hpending hdep
      exact ⟨c', .single hexit, hrest⟩
    · exact h.expire answer hlt hopen (.inl hdep)
    · by_cases hlocked : c.world.store.txState t = .locked
      · obtain ⟨e, hopen, rfl⟩ := h.runs.inv.valid.locked.eng t hlocked
        exact h.expire answer hlt hopen (.inr hcol)
      · have hor : c.world.store.txState t = .active ∨ c.world.store.txState t = .expired := by
          rcases hstate with hs | hs | hs
          · exact .inl hs
          · exact absurd hs hlocked
          · exact .inr hs
        obtain ⟨c', hexit, hrest⟩ := h.cancel answer hlt hor hcol
        exact ⟨c', .single hexit, hrest⟩

/-- Progress empties the contract. -/
theorem Winding.drain (hlt : supply < 2 ^ 128) {n : ℕ} : ∀ {c}, Winding d supply limit c →
    remaining c = n → ∃ c', Relation.ReflTransGen (Exit d limit answer) c c' ∧ c'.stack = [] ∧
      c'.world.balance = 0 := by
  induction n using Nat.strong_induction_on with
  | _ n ih =>
    intro c h hn
    by_cases hleft : c.world.balance = 0
    · exact ⟨c, .refl, h.stack, hleft⟩
    · obtain ⟨c₁, hexit, h₁, hless⟩ := h.progress answer hlt hleft
      obtain ⟨c', hrest, hst, hbal⟩ := ih _ (hn ▸ hless) h₁ rfl
      exact ⟨c', hexit.trans hrest, hst, hbal⟩

/-- **Exit.** In every configuration of every run with little ether in the world the exits succeed
whatever the recipients of payouts do, and from every one outside any call, with nothing forced in,
they empty the contract within a lock window, whatever recipients of payouts answer. -/
theorem exit_open (h : Runs d supply c) (hlt : supply < 2 ^ 128) :
    (∀ m engId, m.call = .expire engId → m.value = 0 →
      (c.world.store.engagements engId).status = .open →
      (c.world.store.engagements engId).expiresAt.toNat < c.block.timestamp →
      (code d).Succeeds true c m) ∧
    (∀ m appId, m.call = .reclaim appId → m.value = 0 →
      (c.world.store.applications appId).status = .pending →
      m.sender = (c.world.store.applications appId).depositor → (code d).Succeeds true c m) ∧
    (∀ m txId, m.call = .cancel txId → m.value = 0 →
      c.world.store.txState txId = .active ∨ c.world.store.txState txId = .expired →
      m.sender = (c.world.store.listings txId).owner → (code d).Succeeds true c m) ∧
    (∀ m, m.call = .withdraw → m.value = 0 → c.world.store.credit m.sender ≠ 0 →
      (code d).Succeeds false c m) ∧
    (c.stack = [] → c.world.forced = 0 → ∀ answer, ∃ c',
      Relation.ReflTransGen (Exit d (c.block.timestamp + d.TAU_LOCK.toNat + 1) answer) c c' ∧
      c'.stack = [] ∧ c'.world.balance = 0) := by
  have hobl := h.obligations_le.trans_lt hlt
  refine ⟨fun m engId hc hv hopen hpast => ?_, fun m appId hc hv hpending hs => ?_,
    fun m txId hc hv hstate hs => ?_, fun m hc hv hcredit => ?_, fun hst hforced answer => ?_⟩
  · exact h.succeeds hlt hv (guard_expire h.inv hobl hc hv hopen hpast) (by simp [hc])
  · exact h.succeeds hlt hv (guard_reclaim hc hv hs hpending) (by simp [hc])
  · exact h.succeeds hlt hv (guard_cancel hc hv hs hstate) (by simp [hc])
  · exact h.succeeds hlt hv (guard_withdraw hc hv hcredit) fun _ => rfl
  · refine Winding.drain hlt ⟨h, hst, hforced, by omega, fun e hopen => ?_⟩ rfl
    have hne : (c.world.store.engagements e).status ≠ .none := by rw [hopen]; decide
    have hwindow : (c.world.store.engagements e).expiresAt.toNat ≤
      c.block.timestamp + d.TAU_LOCK.toNat := h.inv.valid.timed.window e hne
    omega

end

/-- The run over the test vectors while its listing is locked. -/
def Vectors.locked : Config Block Msg State Err Uint256 :=
  (after 6).get after_engagement

theorem Vectors.locked_runs : Runs deployment 100000 locked :=
  runs (n := 6) (Option.some_get _).symm

open Vectors in
theorem exit_open_locked : Vectors.locked.world.balance = 12000 ∧
    ∃ c', Relation.ReflTransGen (Exit deployment (Vectors.locked.block.timestamp +
      deployment.TAU_LOCK.toNat + 1) fun _ => false) Vectors.locked c' ∧
      c'.stack = [] ∧ c'.world.balance = 0 := by
  obtain ⟨hstack, hforced, hbalance⟩ : Vectors.locked.stack.length = 0 ∧
      Vectors.locked.world.forced = 0 ∧ Vectors.locked.world.balance = 12000 := by decide +kernel
  obtain ⟨-, -, -, -, hdrain⟩ :=
    exit_open Vectors.locked_runs (show 100000 < 2 ^ 128 by decide)
  exact ⟨hbalance, hdrain (List.length_eq_zero_iff.mp hstack) hforced _⟩

end Pprev
