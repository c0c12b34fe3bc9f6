import Pprev.Contract.Deposits
import Pprev.Contract.Robust
import Pprev.Evm.Calls

/-!
# Payouts are neutral

Two runs of the same calls whose recipients accept or fail differently. No call other than a
withdrawal reads a credit, so the calls fail or succeed alike in both, make the same records, and
everyone is sent the same; what a recipient did not accept is its credit.
-/

namespace Pprev

open Evm Function Tx

/-- The ether that `w` has received from the contract. -/
def received (c : Config Block Msg State Err Uint256) (w : Address) : ℕ :=
  (c.world.history.map fun r => receivedIn w r.paid).sum

/-- What a call returns. -/
def assigned (m : Msg) (s : State) : Uint256 :=
  match m.call with
  | .register _ _ _ _ _ _ _ => s.nextTxId
  | .applyFor _ _ _ _ _ _ _ => s.nextAppId
  | .engage _ _ => s.nextEngId
  | _ => 0

/-! ## Failing at once -/

section

variable {keccak256 : Bytes → Bytes32} {d : Deployment keccak256} {b : Block} {m : Msg}
  {s s' : State} {α : Type}

theorem error?_get {f : State → Tx State Err α} : ((get >>= f) s).error? = (f s s).error? := rfl

theorem error?_set {f : PUnit → Tx State Err α} : ((set s' >>= f) s).error? = (f ⟨⟩ s').error? := rfl

theorem error?_bind_pure {β : Type} {x : Tx State Err α} {a : β} :
    ((x >>= fun _ => pure a) s).error? = (x s).error? := by
  show ((x s).bind _).error? = _
  cases x s <;> rfl

theorem error?_pay_bind {dst : Address} {amount : Uint256} {f : Unit → Tx State Err α} :
    ((pay dst amount >>= f) s).error? = if amount = 0 then (f () s).error? else none := by
  split_ifs with h0
  · rw [h0, pay_zero]
  · rw [pay_bind h0]
    rfl

theorem error?_pay {dst : Address} {amount : Uint256} : (pay dst amount s).error? = none :=
  Prog.error?_eq_none.mpr <| by
    rcases (pay dst amount s).live_or_revert with hl | ⟨e, he⟩
    · exact hl
    · exact absurd he pay_ne

theorem error?_pay_if {c : Prop} [Decidable c] {dst : State → Address} {amount : Uint256} :
    ((if c then get >>= fun s' => pay (dst s') amount else pure () : Tx State Err Unit) s).error? =
      none := by
  split_ifs
  · exact error?_pay
  · rfl

theorem run_error (h : SameRecords s s') (hw : m.call ≠ .withdraw) :
    (run d b m s').error? = (run d b m s).error? := by
  obtain ⟨credit, logs, rfl⟩ := h
  unfold run
  cases hc : m.call with
  | registerPolicy policyIdR policyIdA policyIdS reqEscrow minCollateral maxCollateral =>
    simp only [nonPayable, registerPolicy, error?_revertIf, error?_bind_pure, error?_get]
    rfl
  | setNotaryVerifier verifier =>
    simp only [nonPayable, setNotaryVerifier, error?_revertIf, error?_bind_pure, error?_get]
    rfl
  | register cTx txData policyIdR r sigmaR etaR tAttR =>
    simp only [register, verifyNotarySignature, requireUnconsumed, requireFresh, Tx.bind_assoc,
      error?_revertIf, error?_get, error?_checked]
    rfl
  | applyFor txId txData r cB sigmaA etaA tAttA =>
    simp only [applyFor, verifyNotarySignature, requireUnconsumed, requireFresh, Tx.bind_assoc,
      error?_revertIf, error?_get, error?_checked]
    rfl
  | settle engId txData r sigmaS etaS tAttS =>
    simp only [nonPayable, settle, verifyNotarySignature, requireUnconsumed, requireFresh,
      Tx.bind_assoc, error?_revertIf, error?_bind_pure, error?_get, error?_set, error?_checked,
      error?_pay_bind, error?_pay]
    rfl
  | engage txId appId =>
    simp only [engage, error?_revertIf, error?_get, error?_checked]
    rfl
  | expire engId =>
    simp only [nonPayable, expire, error?_revertIf, error?_bind_pure, error?_get, error?_set,
      error?_checked, error?_pay_bind, error?_pay_if]
  | reclaim appId =>
    simp only [nonPayable, reclaim, error?_revertIf, error?_bind_pure, error?_get, error?_set,
      error?_pay]
  | cancel txId =>
    simp only [nonPayable, cancel, error?_revertIf, error?_bind_pure, error?_get, error?_set,
      error?_pay]
  | withdraw => exact absurd hc hw

/-! ## What a call ends with -/

theorem receivedIn_delivered (w dst : Address) (amount : Uint256) :
    receivedIn w [⟨dst, amount, true⟩] = amountTo w [(dst, amount)] := by
  by_cases h : dst = w <;> simp [receivedIn, amountTo, h]

theorem receivedIn_failed (w dst : Address) (amount : Uint256) :
    receivedIn w [⟨dst, amount, false⟩] = 0 := by
  simp [receivedIn]

/-- A payout is received or credited. -/
theorem pay_finishes {β : Type} {Q : List Payment → State → β → Prop} {K : Address → ℕ}
    {dst : Address} {amount : Uint256} {f : Unit → Tx State Err β} {paid : List Payment}
    (plan : List (Address × Uint256)) (hK : ∀ w, K w < 2 ^ 256)
    (hpaid : ∀ w, (s.credit w).toNat + receivedIn w paid +
      amountTo w (transfer dst amount ++ plan) = K w)
    (hf : ∀ s' paid', SameRecords s s' →
      (∀ w, (s'.credit w).toNat + receivedIn w paid' + amountTo w plan = K w) →
      (f () s').Finishes Q paid') :
    ((pay dst amount >>= f) s).Finishes Q paid := by
  by_cases h0 : amount = 0
  · subst h0
    rw [pay_zero]
    exact hf s paid (.refl s) hpaid
  · rw [pay_bind h0]
    rw [transfer, if_neg h0] at hpaid
    intro ok
    cases ok with
    | true =>
      refine hf s _ (.refl s) fun w => ?_
      have hw := hpaid w
      rw [amountTo_append] at hw
      rw [receivedIn_append, receivedIn_delivered]
      omega
    | false =>
      have hdst : amountTo dst [(dst, amount)] = amount.toNat := by simp [amountTo]
      have hlt : (s.credit dst).toNat + amount.toNat < 2 ^ 256 := by
        have hw := hpaid dst
        have := hK dst
        rw [amountTo_append, hdst] at hw
        omega
      show ((checked _ (checkedAdd (s.credit dst) amount) >>= _) s).Finishes _ _
      rw [checked_pass (checkedAdd_eq_some.mpr ⟨hlt, rfl⟩)]
      refine hf _ _ ⟨_, _, rfl⟩ fun w => ?_
      have hw := hpaid w
      rw [amountTo_append] at hw
      rw [receivedIn_append, receivedIn_failed]
      by_cases hwd : w = dst
      · subst hwd
        have hcredit : (update s.credit w (s.credit w + amount) w).toNat =
            (s.credit w).toNat + amount.toNat := by
          rw [update_self, toNat_add_of_lt hlt]
        rw [hdst] at hw
        simp only [State.credited, hcredit]
        omega
      · have hother : amountTo w [(dst, amount)] = 0 := by simp [amountTo, Ne.symm hwd]
        rw [hother] at hw
        simp only [State.credited, update_of_ne hwd]
        omega

/-- However its recipients answer, an accepted call other than a withdrawal ends with its effect,
and everyone has received or is credited what the call is to pay. -/
theorem run_finishes (hw : m.call ≠ .withdraw) (g : Guard d b m s) {K : Address → ℕ}
    (hK : ∀ w, K w < 2 ^ 256) (hplan : ∀ w, (s.credit w).toNat + amountTo w (plan d m s) = K w) :
    (run d b m s).Finishes (fun paid s' a => a = assigned m s ∧
      SameRecords (effect d b m s) s' ∧ ∀ w, (s'.credit w).toNat + receivedIn w paid = K w) [] := by
  have hcredit := credit_effect (d := d) (b := b) (s := s) hw
  have hpaid : ∀ w, ((effect d b m s).credit w).toNat + receivedIn w [] + amountTo w (plan d m s) =
      K w := fun w => by
    rw [hcredit, ← hplan w]
    rfl
  rw [run_eq g]
  unfold followUp plan at *
  unfold assigned
  cases hc : m.call with
  | withdraw => exact absurd hc hw
  | settle engId txData r sigmaS etaS tAttS =>
    simp only [hc] at hpaid ⊢
    refine pay_finishes _ hK hpaid fun s' paid' hs hpaid' => ?_
    have hdep : (s'.applications (s.engagements engId).appId).depositor =
        (s.applications (s.engagements engId).appId).depositor := by
      obtain ⟨credit, logs, rfl⟩ := hs
      simp only [effect, hc]
      rfl
    refine pay_finishes [] hK ?_ fun s'' paid'' hs' hpaid'' =>
      ⟨rfl, hs.trans hs', hpaid''⟩
    rw [hdep, List.append_nil]
    exact hpaid'
  | expire engId =>
    simp only [hc] at hpaid ⊢
    refine pay_finishes _ hK hpaid fun s' paid' hs hpaid' => ?_
    have howner : (s'.listings (s.listingOf engId)).owner =
        (s.listings (s.listingOf engId)).owner := by
      obtain ⟨credit, logs, rfl⟩ := hs
      simp [effect, hc, State.afterExpire, State.expired]
    cases hx : s.exhausted d engId with
    | true =>
      rw [hx, if_pos rfl] at hpaid'
      rw [if_pos rfl]
      refine pay_finishes [] hK ?_ fun s'' paid'' hs' hpaid'' =>
        ⟨rfl, hs.trans hs', hpaid''⟩
      rw [howner, List.append_nil]
      exact hpaid'
    | false =>
      rw [hx, if_neg Bool.false_ne_true] at hpaid'
      exact ⟨rfl, hs, hpaid'⟩
  | reclaim appId =>
    simp only [hc] at hpaid ⊢
    refine pay_finishes [] hK ?_ fun s' paid' hs hpaid' => ⟨rfl, hs, hpaid'⟩
    rw [List.append_nil]
    exact hpaid
  | cancel txId =>
    simp only [hc] at hpaid ⊢
    refine pay_finishes [] hK ?_ fun s' paid' hs hpaid' => ⟨rfl, hs, hpaid'⟩
    rw [List.append_nil]
    exact hpaid
  | _ =>
    simp only [hc] at hpaid
    exact ⟨rfl, .refl _, hpaid⟩

theorem amountTo_le_total (w : Address) (l : List (Address × Uint256)) :
    amountTo w l ≤ Prog.total l := by
  induction l with
  | nil => exact le_rfl
  | cons p l ih =>
    have hcons : amountTo w (p :: l) = amountTo w [p] + amountTo w l := amountTo_append w [p] l
    have hone : amountTo w [p] ≤ p.2.toNat := by
      by_cases hp : p.1 = w <;> simp [amountTo, hp]
    rw [hcons, Prog.total_cons]
    omega

/-- What an account is credited and will be paid is covered. -/
theorem credit_add_plan_le (h : Inv d b.timestamp s) (g : Guard d b m s)
    (hw : m.call ≠ .withdraw) (w : Address) :
    (s.credit w).toNat + amountTo w (plan d m s) ≤ obligations s + m.value.toNat := by
  have hbehaves := run_behaves h g
  have hconf := hbehaves.conforms
  have htotal := hbehaves.payouts
  rw [run_eq g] at hconf htotal
  have howed := hconf.owed_at (followUp_at _)
  rw [htotal] at howed
  have hcredit := credit_le_obligations (effect d b m s) w
  rw [credit_effect hw] at hcredit
  have := amountTo_le_total w (plan d m s)
  omega

/-! ## The records decide what a call does -/

theorem plan_congr (h : SameRecords s s') (hw : m.call ≠ .withdraw) : plan d m s' = plan d m s := by
  obtain ⟨credit, logs, rfl⟩ := h
  unfold plan
  cases hc : m.call with
  | withdraw => exact absurd hc hw
  | _ => rfl

theorem assigned_congr (h : SameRecords s s') : assigned m s' = assigned m s := by
  obtain ⟨credit, logs, rfl⟩ := h
  rfl

theorem effect_congr (h : SameRecords s s') (hw : m.call ≠ .withdraw) :
    SameRecords (effect d b m s) (effect d b m s') := by
  obtain ⟨credit, logs, rfl⟩ := h
  unfold effect
  cases hc : m.call with
  | withdraw => exact absurd hc hw
  | _ => exact ⟨_, _, rfl⟩

end

/-! ## Two runs -/

section

variable {keccak256 : Bytes → Bytes32} {d : Deployment keccak256} {supply : ℕ}
  {c c₁ c₂ c' : Config Block Msg State Err Uint256} {m : Msg}

/-- What a call from outside, other than a withdrawal, does whatever its recipients answer: it fails
at once and changes nothing, or it ends with its effect and everyone has received or is credited
what the call is to pay. -/
theorem Runs.call_cases (h : Runs d supply c) (hstack : c.stack = []) (hsupply : supply < 2 ^ 256)
    (hw : m.call ≠ .withdraw) (hcall : (code d).step c (.call m) = some c₁)
    {answer : Config Block Msg State Err Uint256 → Bool}
    (hans : (code d).Answers answer c₁ c') :
    (∃ e, (run d c.block m c.world.store).error? = some e ∧ c'.world = c.world ∧
      c'.result = some (.error e)) ∨
    ((run d c.block m c.world.store).error? = none ∧
      c'.result = some (.ok (assigned m c.world.store)) ∧
      SameRecords (effect d c.block m c.world.store) c'.world.store ∧
      ∀ w, (c'.world.store.credit w).toNat + received c' w =
        (c.world.store.credit w).toNat + received c w +
          amountTo w (plan d m c.world.store)) := by
  have hvalue : m.value.toNat ≤ c.world.outside ∧
      c₁ = advance c.block [] ⟨c.block, m, c.world.store⟩ c.world [] (c.world.receive m.value.toNat)
        (run d c.block m c.world.store) := by
    simp only [Code.step, hstack] at hcall
    split_ifs at hcall with hv
    exact ⟨hv, (Option.some.inj hcall).symm⟩
  obtain ⟨hv, rfl⟩ := hvalue
  rcases (run d c.block m c.world.store).live_or_revert with hl | ⟨e, he⟩
  · refine .inr ⟨Prog.error?_eq_none.mpr hl, ?_⟩
    have g := run_guard hl
    have hK : ∀ w, (c.world.store.credit w).toNat + amountTo w (plan d m c.world.store) <
        2 ^ 256 := fun w => by
      obtain ⟨base, hok⟩ := h.ok
      have hbal : c.world.balance =
        obligations c.world.store + c.world.forced + pendingTotal c.stack := hok.sound.balance
      have hsup := hok.sound.supply
      have := credit_add_plan_le h.inv g hw w
      omega
    obtain ⟨paid, a, ⟨rfl, hrecords, hpaid⟩, hhistory, hresult⟩ :=
      (run_finishes hw g hK fun _ => rfl).answers hans
    refine ⟨hresult, hrecords, fun w => ?_⟩
    have hreceived : received c' w = receivedIn w paid + received c w := by
      rw [received, hhistory]
      rfl
    have := hpaid w
    omega
  · rw [he] at hans
    obtain rfl := hans.revert
    exact .inl ⟨e, by rw [he]; rfl, rfl, rfl⟩

variable (c₁ c₂) in
/-- The configurations differ at most in who accepted its payouts: the last call ended alike, the
records are the same, and everyone has the same in credit and received ether together. -/
structure Neutral : Prop where
  result : c₁.result = c₂.result
  records : SameRecords c₁.world.store c₂.world.store
  total : ∀ w, (c₁.world.store.credit w).toNat + received c₁ w =
    (c₂.world.store.credit w).toNat + received c₂ w

/-- The same call takes two configurations with the same records to two such. -/
theorem Runs.call_neutral (h₁ : Runs d supply c₁) (h₂ : Runs d supply c₂)
    (hstack₁ : c₁.stack = []) (hstack₂ : c₂.stack = []) (hsupply : supply < 2 ^ 256)
    (hblock : c₁.block = c₂.block) (hrecords : SameRecords c₁.world.store c₂.world.store)
    (htotal : ∀ w, (c₁.world.store.credit w).toNat + received c₁ w =
      (c₂.world.store.credit w).toNat + received c₂ w)
    (hw : m.call ≠ .withdraw) {x₁ x₂ c₁' c₂' : Config Block Msg State Err Uint256}
    (hcall₁ : (code d).step c₁ (.call m) = some x₁) (hcall₂ : (code d).step c₂ (.call m) = some x₂)
    {answer₁ answer₂ : Config Block Msg State Err Uint256 → Bool}
    (hans₁ : (code d).Answers answer₁ x₁ c₁') (hans₂ : (code d).Answers answer₂ x₂ c₂') :
    Neutral c₁' c₂' := by
  have herror := run_error (d := d) (b := c₁.block) hrecords hw
  have hcases₁ := h₁.call_cases hstack₁ hsupply hw hcall₁ hans₁
  have hcases₂ := h₂.call_cases hstack₂ hsupply hw hcall₂ hans₂
  rw [← hblock, herror] at hcases₂
  rcases hcases₁ with ⟨e, he, hworld, hresult⟩ | ⟨he, hresult, heffect, hpaid⟩
  · rw [he] at hcases₂
    obtain ⟨e', he', hworld', hresult'⟩ | ⟨hnone, -⟩ := hcases₂
    · obtain rfl := Option.some.inj he'
      refine ⟨hresult.trans hresult'.symm, by rwa [hworld, hworld'], fun w => ?_⟩
      rw [received, received, hworld, hworld']
      exact htotal w
    · cases hnone
  · rw [he] at hcases₂
    obtain ⟨e', he', -⟩ | ⟨-, hresult', heffect', hpaid'⟩ := hcases₂
    · cases he'
    · refine ⟨?_, ?_, fun w => ?_⟩
      · rw [hresult, hresult', assigned_congr hrecords]
      · exact heffect.symm.trans ((effect_congr hrecords hw).trans heffect')
      · have := htotal w
        rw [hpaid w, hpaid' w, plan_congr hrecords hw]
        omega

/-- A call from outside takes a run of the contract to another one. -/
theorem Runs.answered (h : Runs d supply c) {b : Block} {x y : Config Block Msg State Err Uint256}
    (hblock : (code d).step c (.block b) = some x) (hcall : (code d).step x (.call m) = some y)
    {answer : Config Block Msg State Err Uint256 → Bool} (hans : (code d).Answers answer y c') :
    Runs d supply x ∧ Runs d supply c' := by
  have hes : (code d).exec c [.block b] = some x := by
    show ((code d).step c (.block b)).bind _ = _
    rw [hblock]
    rfl
  have hes' : (code d).exec x [.call m] = some y := by
    show ((code d).step x (.call m)).bind _ = _
    rw [hcall]
    rfl
  have hx := h.exec hes
  obtain ⟨es, hes⟩ := hans.exec
  exact ⟨hx, (hx.exec hes').exec hes⟩

/-- A new block outside any call changes nothing else. -/
theorem step_block {b : Block} (h : (code d).step c (.block b) = some c') :
    c' = { c with block := b } := by
  simp only [Code.step] at h
  split_ifs at h
  exact (Option.some.inj h).symm

/-- Runs of the same calls from configurations with the same records. -/
theorem Runs.calls_neutral (hsupply : supply < 2 ^ 256) {calls : List (Block × Msg)} :
    ∀ {c₁ c₂ : Config Block Msg State Err Uint256}, Runs d supply c₁ → Runs d supply c₂ →
      c₁.stack = [] → c₂.stack = [] → SameRecords c₁.world.store c₂.world.store →
      (∀ w, (c₁.world.store.credit w).toNat + received c₁ w =
        (c₂.world.store.credit w).toNat + received c₂ w) →
      (∀ x ∈ calls, x.2.call ≠ .withdraw) →
      ∀ {after₁ after₂ : List (Config Block Msg State Err Uint256)},
        (code d).Calls c₁ calls after₁ → (code d).Calls c₂ calls after₂ →
        List.Forall₂ Neutral after₁ after₂ := by
  induction calls with
  | nil =>
    intro c₁ c₂ h₁ h₂ hs₁ hs₂ hrecords htotal hw after₁ after₂ hcalls₁ hcalls₂
    cases hcalls₁
    cases hcalls₂
    exact .nil
  | cons x calls ih =>
    intro c₁ c₂ h₁ h₂ hs₁ hs₂ hrecords htotal hw after₁ after₂ hcalls₁ hcalls₂
    cases hcalls₁ with
    | cons answer₁ hblock₁ hcall₁ hans₁ hnext₁ =>
      cases hcalls₂ with
      | cons answer₂ hblock₂ hcall₂ hans₂ hnext₂ =>
        obtain ⟨hx₁, hc₁⟩ := h₁.answered hblock₁ hcall₁ hans₁
        obtain ⟨hx₂, hc₂⟩ := h₂.answered hblock₂ hcall₂ hans₂
        obtain rfl := step_block hblock₁
        obtain rfl := step_block hblock₂
        have hneutral := hx₁.call_neutral hx₂ hs₁ hs₂ hsupply rfl hrecords htotal
          (hw _ List.mem_cons_self) hcall₁ hcall₂ hans₁ hans₂
        exact .cons hneutral (ih hc₁ hc₂ hans₁.stack hans₂.stack hneutral.records hneutral.total
          (fun y hy => hw y (List.mem_cons_of_mem _ hy)) hnext₁ hnext₂)

/-- **Payout neutrality.** Two runs of the same calls from the same configuration, whose recipients
answer differently, are alike after every call, and every call that its sender can pay for returns
whatever the recipients answer. -/
theorem payouts_neutral (h : Runs d supply c) (hstack : c.stack = []) (hsupply : supply < 2 ^ 256) :
    (∀ calls : List (Block × Msg), (∀ x ∈ calls, x.2.call ≠ .withdraw) →
      ∀ after₁ after₂, (code d).Calls c calls after₁ → (code d).Calls c calls after₂ →
        List.Forall₂ Neutral after₁ after₂) ∧
    ∀ (b : Block) (m : Msg) (answer : Config Block Msg State Err Uint256 → Bool),
      c.block.timestamp ≤ b.timestamp → m.value.toNat ≤ c.world.outside →
      ∃ x y c', (code d).step c (.block b) = some x ∧ (code d).step x (.call m) = some y ∧
        (code d).Answers answer y c' := by
  refine ⟨fun calls hw after₁ after₂ hcalls₁ hcalls₂ =>
    Runs.calls_neutral hsupply h h hstack hstack (.refl _) (fun _ => rfl) hw hcalls₁ hcalls₂,
    fun b m answer hnext hv => ?_⟩
  have hblock : (code d).step c (.block b) = some { c with block := b } := by
    have hcode : (code d).next c.block b = true := decide_eq_true hnext
    simp [Code.step, hstack, hcode]
  have hcall : (code d).step { c with block := b } (.call m) = some (advance b []
      ⟨b, m, c.world.store⟩ c.world [] (c.world.receive m.value.toNat)
      (run d b m c.world.store)) := by
    simp only [Code.step, hstack]
    exact if_pos hv
  have hreturns : ∃ c', (code d).Answers answer (advance b [] ⟨b, m, c.world.store⟩ c.world []
      (c.world.receive m.value.toNat) (run d b m c.world.store)) c' := Code.answers_total answer
  obtain ⟨c', hc'⟩ := hreturns
  exact ⟨_, _, c', hblock, hcall, hc'⟩

end

namespace Vectors

/-- The run up to the engagement. -/
def engaged : Config Block Msg State Err Uint256 :=
  (after 6).get after_engagement

theorem engaged_runs : Runs deployment 100000 engaged := runs (n := 6) (Option.some_get _).symm

def settleMsg : Msg := msg owner 0 (.settle 1 txData r [] settle.eta settle.tAtt)

end Vectors

open Vectors in
/-- The owner and the applicant accept the payouts of a settlement, or both fail to. -/
theorem payouts_neutral_engaged : ∃ x y c₁ c₂,
    (code deployment).step engaged (.block (block 1760500000)) = some x ∧
    (code deployment).step x (.call settleMsg) = some y ∧
    (code deployment).Answers (fun _ => true) y c₁ ∧
    (code deployment).Answers (fun _ => false) y c₂ ∧ Neutral c₁ c₂ := by
  obtain ⟨hempty, hnext, hvalue⟩ : engaged.stack.isEmpty ∧
      engaged.block.timestamp ≤ (block 1760500000).timestamp ∧
      settleMsg.value.toNat ≤ engaged.world.outside := by decide +kernel
  have hstack : engaged.stack = [] := List.isEmpty_iff.mp hempty
  obtain ⟨hneutral, htotal⟩ := payouts_neutral engaged_runs hstack (by decide)
  obtain ⟨x, y, c₁, hblock, hcall, hans₁⟩ := htotal _ settleMsg (fun _ => true) hnext hvalue
  obtain ⟨x', y', c₂, hblock', hcall', hans₂⟩ := htotal _ settleMsg (fun _ => false) hnext hvalue
  obtain rfl := Option.some.inj (hblock.symm.trans hblock')
  obtain rfl := Option.some.inj (hcall.symm.trans hcall')
  have hforall := hneutral [(block 1760500000, settleMsg)]
    (by simp [settleMsg, msg]) _ _ (.cons _ hblock hcall hans₁ (.nil c₁))
    (.cons _ hblock hcall hans₂ (.nil c₂))
  exact ⟨x, y, c₁, c₂, hblock, hcall, hans₁, hans₂, (List.forall₂_cons.mp hforall).1⟩

end Pprev
