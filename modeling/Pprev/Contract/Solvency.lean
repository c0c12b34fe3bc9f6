import Pprev.Contract.Behaviour

/-!
# Solvency

In every configuration of every run of a deployed contract the contract holds what it owes, what
was forced in, and what the calls that wait for a recipient still have to pay.
-/

namespace Pprev

open Evm Function

section

variable {keccak256 : Bytes → Bytes32} {d : Deployment keccak256} {supply : ℕ}
  {c c' : Config Block Msg State Err Uint256}

/-- A store the constructor leaves, with the constants it sets, in some block. -/
def Deployed (b : Block) (d : Deployment keccak256) (s : State) : Prop :=
  ∃ this operator verifier delta tauLock maxExpirations rho,
    constructor keccak256 b this operator verifier delta tauLock maxExpirations rho = .ok (d, s)

/-- The configurations of the runs of a deployment: any arguments of the constructor, any callers,
arguments, values and recipients, with `supply` ether in all. -/
def Runs (d : Deployment keccak256) (supply : ℕ) (c : Config Block Msg State Err Uint256) : Prop :=
  ∃ b s, Deployed b d s ∧ (code d).Reachable b s supply c

theorem Deployed.initial {b : Block} {s : State} (h : Deployed b d s) :
    ∃ verifier, s = State.initial verifier := by
  obtain ⟨this, operator, verifier, delta, tauLock, maxExpirations, rho, h⟩ := h
  unfold constructor at h
  split_ifs at h
  cases h
  exact ⟨verifier, rfl⟩

theorem initial_inv (now : ℕ) (verifier : Address) : Inv d now (State.initial verifier) where
  valid := Book.valid_of_absent (fun _ => rfl) (fun _ => rfl) (fun _ => rfl) (fun _ => rfl)
  allocated := {
    nextTxId := show (1 : Uint256) ≠ 0 by decide
    nextAppId := show (1 : Uint256) ≠ 0 by decide
    nextEngId := show (1 : Uint256) ≠ 0 by decide
    txState := fun _ _ => rfl
    listings := fun _ _ => rfl
    applications := fun _ _ => rfl
    engagements := fun _ _ => rfl }
  indexed := by
    intro t w a ha
    refine ⟨fun h => absurd h.symm ha, fun h => ?_⟩
    cases h.1

theorem initial_obligations (verifier : Address) : obligations (State.initial verifier) = 0 := by
  have happ : (default : Application).status ≠ .pending := by decide
  have heng : (default : Engagement).status ≠ .open := by decide
  simp [obligations, State.initial, happ, heng]

/-- Every configuration of a run is accounted for. -/
theorem Runs.ok (h : Runs d supply c) :
    ∃ base, (discipline d).Ok c.block base supply c.world c.stack := by
  obtain ⟨b, s, hd, hrun⟩ := h
  obtain ⟨verifier, rfl⟩ := hd.initial
  exact ⟨_, Discipline.reachable_ok (D := discipline d) (initial_inv _ _) (initial_obligations _) hrun⟩

theorem Runs.inv (h : Runs d supply c) : Inv d c.block.timestamp c.world.store :=
  let ⟨_, hok⟩ := h.ok
  hok.sound.inv

theorem Runs.obligations_le (h : Runs d supply c) : obligations c.world.store ≤ supply := by
  obtain ⟨base, hok⟩ := h.ok
  have hbal : c.world.balance =
    obligations c.world.store + c.world.forced + pendingTotal c.stack := hok.sound.balance
  have hsup := hok.sound.supply
  omega

/-- Between two moments outside any call the storage evolves. -/
theorem Runs.evolves (h : Runs d supply c) (hstack : c.stack = []) {es : List (Event Block Msg)}
    (hes : (code d).exec c es = some c') : Evolves c.world.store c'.world.store := by
  obtain ⟨base, hok⟩ := h.ok
  rw [hstack] at hok
  have hbase : (discipline d).Ok c.block c.world.store supply c.world c.stack := by
    rw [hstack]
    exact hok.rebase
  exact (Discipline.exec_ok hbase hes).sound.rel

/-- A run goes on. -/
theorem Runs.exec (h : Runs d supply c) {es : List (Event Block Msg)}
    (hes : (code d).exec c es = some c') : Runs d supply c' := by
  obtain ⟨b, s, hd, es₀, hrun⟩ := h
  refine ⟨b, s, hd, es₀ ++ es, ?_⟩
  rw [Code.exec_append, hrun]
  exact hes

/-- A transfer that was handed to a recipient at any depth was covered. -/
theorem frame_covered {b : Block} {base : State} {above : List (Frame Block Msg State Err Uint256)}
    {f : Frame Block Msg State Err Uint256} {rest : List (Frame Block Msg State Err Uint256)} :
    ∀ {w : World Block Msg State Uint256},
      (discipline d).Ok b base supply w (above ++ f :: rest) →
      f.pre.balance = obligations f.pre.store + f.amount.toNat + f.pending + pendingTotal rest +
        f.pre.forced := by
  induction above with
  | nil =>
    intro w h
    obtain ⟨-, hhanded, hf, -⟩ := h
    have hbal : f.pre.balance - f.amount.toNat =
      obligations f.pre.store + f.pre.forced + (f.pending + pendingTotal rest) := hhanded.balance
    have hle := hf.amount_le
    omega
  | cons g above ih =>
    intro w h
    exact ih h.2.2.2.2

/-- **Solvency.** After every call made from outside the balance of the contract is its obligations
and the ether that was forced in; whenever control is handed to a recipient, at any depth, the
balance before the transfer covers besides these the amount sent, the transfers that the same call
makes later, and those of the calls it is nested in. -/
theorem solvency (h : Runs d supply c) :
    (c.stack = [] → c.world.balance = obligations c.world.store + c.world.forced) ∧
    ∀ above f rest, c.stack = above ++ f :: rest →
      f.pre.balance = obligations f.pre.store + f.amount.toNat + f.pending + pendingTotal rest +
        f.pre.forced := by
  obtain ⟨base, hok⟩ := h.ok
  refine ⟨fun hstack => ?_, fun above f rest hstack => ?_⟩
  · have hbal : c.world.balance =
      obligations c.world.store + c.world.forced + pendingTotal c.stack := hok.sound.balance
    rwa [hstack, pendingTotal_nil, Nat.add_zero] at hbal
  · rw [hstack] at hok
    exact frame_covered hok

end

/-! ## A run over the test vectors -/

namespace Vectors

def operator : Address := 0x3333333333333333333333333333333333333333
def verifier : Address := 0x4444444444444444444444444444444444444444

def block (timestamp : ℕ) : Block := ⟨timestamp, chainid⟩

def deployment : Deployment keccak where
  this := contract
  OPERATOR := operator
  DELTA := 300
  TAU_LOCK := 1209600
  MAX_EXPIRATIONS := 3
  RHO := 9000
  CACHED_CHAIN_ID := chainid
  CACHED_DOMAIN_SEPARATOR := buildDomainSeparator keccak chainid contract
  valid := by decide
  separator := rfl

theorem deployed : Deployed (block 1759990000) deployment (State.initial verifier) := by
  refine ⟨contract, operator, verifier, 300, 1209600, 3, 9000, ?_⟩
  unfold constructor
  rw [dif_neg (by decide)]
  rfl

/-- The notary signed the three statements and nothing else. -/
def verify (_ : Address) (digest : Bytes32) (_ : Bytes) : Option Bool :=
  some (digest = registerDigest || digest = applyDigest || digest = settleDigest)

def msg (sender : Address) (value : Uint256) (call : Call) : Msg := ⟨sender, value, verify, call⟩

/-- A listing is registered, an application engaged and settled; the owner accepts its payout, the
applicant fails to and withdraws later. -/
def events : List (Event Block Msg) :=
  [.call (msg operator 0 (.registerPolicy policyIdR policyIdA policyIdS 1 1 1000000)),
    .block (block 1760000000),
    .call (msg owner 7000 (.register cTx txData policyIdR r [] register.eta register.tAtt)),
    .block (block 1760000100),
    .call (msg applicant 5000 (.applyFor 1 txData r cB [] applyFor.eta applyFor.tAtt)),
    .call (msg owner 0 (.engage 1 1)),
    .block (block 1760500000),
    .call (msg owner 0 (.settle 1 txData r [] settle.eta settle.tAtt)),
    .accept,
    .refuse,
    .call (msg applicant 0 .withdraw),
    .accept]

/-- The run up to its first events. -/
def after (n : ℕ) : Option (Config Block Msg State Err Uint256) :=
  (code deployment).exec (Config.deployed (block 1759990000) (State.initial verifier) 100000)
    (events.take n)

theorem runs {n : ℕ} {c : Config Block Msg State Err Uint256} (h : after n = some c) :
    Runs deployment 100000 c := ⟨_, _, deployed, _, h⟩

/-- The sixth event is the engagement. -/
theorem after_engagement : (after 6).isSome := by decide +kernel

/-- The owner is in control, with the applicant still to be paid. -/
def settling : Config Block Msg State Err Uint256 := (after 8).get (by decide +kernel)

theorem settling_runs : Runs deployment 100000 settling := runs (n := 8) (Option.some_get _).symm

/-- The run after its last event. -/
def ended : Config Block Msg State Err Uint256 := (after 12).get (by decide +kernel)

theorem ended_runs : Runs deployment 100000 ended := runs (n := 12) (Option.some_get _).symm

end Vectors

open Vectors in
theorem solvency_settling : settling.stack.length = 1 ∧
    (settling.stack = [] →
      settling.world.balance = obligations settling.world.store + settling.world.forced) ∧
    ∀ above f rest, settling.stack = above ++ f :: rest →
      f.pre.balance = obligations f.pre.store + f.amount.toNat + f.pending + pendingTotal rest +
        f.pre.forced :=
  ⟨by decide +kernel, solvency settling_runs⟩

end Pprev
