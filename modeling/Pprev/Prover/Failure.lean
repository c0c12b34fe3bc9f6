import Mathlib.Data.List.Basic

/-!
# Failures of a session

The errors of `session.rs`: chains of links that are searched by type, how a failure before
preprocessing completed bears on a cut, and which error it becomes.
-/

namespace Pprev

namespace Prover

/-! ## Errors -/

inductive IoKind where
  | unexpectedEof
  | connectionReset
  | connectionAborted
  | brokenPipe
  | notConnected
  | writeZero
  | other
  deriving DecidableEq

inductive TlsnKind where
  | user
  | config
  | internal
  | other
  deriving DecidableEq

/-- The type of one link of an error chain, as far as it is searched for. -/
inductive LinkKind where
  | tlsn (kind : TlsnKind)
  | io (kind : IoKind)
  /-- an error of the multiplexer -/
  | connection (closed : Bool)
  | other
  deriving DecidableEq

structure Link where
  kind : LinkKind
  text : String
  deriving DecidableEq

/-- An error of a library, with its sources. -/
structure ForeignError where
  first : Link
  sources : List Link
  deriving DecidableEq

def ForeignError.chain (e : ForeignError) : List Link := e.first :: e.sources

/-- An error of the prover. Only the prover makes a `PreprocessingStalled`. -/
inductive AnyhowError where
  | preprocessingStalled (reason : String)
  | foreign (e : ForeignError)
  | message (text : String)
  | context (text : String) (e : AnyhowError)
  deriving DecidableEq

namespace AnyhowError

def chain : AnyhowError → List Link
  | preprocessingStalled reason => [⟨.other, "MPC-TLS preprocessing stalled: " ++ reason⟩]
  | foreign e => e.chain
  | message text => [⟨.other, text⟩]
  | context text e => ⟨.other, text⟩ :: e.chain

/-- The texts of the links. -/
def text (e : AnyhowError) : String := ": ".intercalate (e.chain.map Link.text)

/-- The error is a `PreprocessingStalled`, under any contexts. -/
def IsStall : AnyhowError → Prop
  | preprocessingStalled _ => True
  | foreign _ => False
  | message _ => False
  | context _ e => e.IsStall

instance decidableIsStall : (e : AnyhowError) → Decidable e.IsStall
  | preprocessingStalled _ => inferInstanceAs (Decidable True)
  | foreign _ => inferInstanceAs (Decidable False)
  | message _ => inferInstanceAs (Decidable False)
  | context _ e => decidableIsStall e

@[simp] theorem isStall_preprocessingStalled (reason : String) :
    (preprocessingStalled reason).IsStall := trivial

@[simp] theorem not_isStall_foreign (e : ForeignError) : ¬ (foreign e).IsStall := id

@[simp] theorem not_isStall_message (text : String) : ¬ (message text).IsStall := id

@[simp] theorem isStall_context {text : String} {e : AnyhowError} :
    (context text e).IsStall ↔ e.IsStall := .rfl

end AnyhowError

/-- A link that shows the connection closing. -/
def isClosure (link : Link) : Bool :=
  match link.kind with
  | .io kind => kind != .other
  | .connection closed => closed
  | _ => false

/-! ## Their class -/

/-- How a failure before preprocessing completed bears on a cut. -/
inductive Failure where
  /-- a rejection, a configuration error, or any failure that is not a transport's -/
  | final
  /-- the failure shows the connection closing -/
  | closure
  /-- an internal error, taken as a cut only if the driver shows the closure too -/
  | lossy
  deriving DecidableEq

def Link.tlsn? (link : Link) : Option TlsnKind :=
  match link.kind with
  | .tlsn kind => some kind
  | _ => none

def failureOf (e : AnyhowError) : Failure :=
  let tlsn := e.chain.findSome? Link.tlsn?
  if tlsn = some .user ∨ tlsn = some .config then .final
  else if e.chain.any isClosure then .closure
  else if tlsn = some .internal then .lossy
  else .final

/-! ## The session driver -/

/-- How the session driver ends. -/
inductive DriverEnd where
  | finished
  | failed (e : ForeignError)
  | panicked (text : String)
  deriving DecidableEq

/-- Why the driver's end is a closed connection, if it is. -/
def closure : DriverEnd → Option String
  | .finished => some "connection closed"
  | .failed e => if e.chain.any isClosure then some e.first.text else none
  | .panicked _ => none

def describe : DriverEnd → String
  | .finished => "connection closed"
  | .failed e => e.first.text
  | .panicked text => text

/-! ## The decision -/

def stall (reason : String) : AnyhowError :=
  .preprocessingStalled ("the notary closed the session: " ++ reason)

/-- The error of a session that failed before preprocessing completed, from the prover's failure and
the driver's end, if they came. -/
def decide (failed : Option (AnyhowError × Failure)) (ended : Option DriverEnd) : AnyhowError :=
  let closed := ended.bind closure
  match ended, closed with
  | some ended, none =>
    let driver := "the session driver failed: " ++ describe ended
    match failed with
    | some (e, _) => .context driver e
    | none => .message driver
  | _, _ =>
    match failed, closed with
    | some (e, .final), _ => e
    | some (e, .closure), _ => stall e.text
    | some (e, .lossy), some reason =>
      stall (reason ++ ", with an ambiguous internal preprocessing failure: " ++ e.text)
    | some (e, .lossy), none => e
    | none, some reason => stall reason
    | none, none => .message "preprocessing failed without an error"

/-- A failed driver is final: the error is a stall only if the prover's own failure is one. -/
theorem isStall_decide_failed {e : AnyhowError} {failure : Failure} {d : DriverEnd}
    (h : closure d = none) : (decide (some (e, failure)) (some d)).IsStall ↔ e.IsStall := by
  simp only [decide, Option.bind_some, h]
  exact AnyhowError.isStall_context

/-- A final failure stays final whatever the driver did. -/
theorem isStall_decide_final {e : AnyhowError} {ended : Option DriverEnd} :
    (decide (some (e, .final)) ended).IsStall ↔ e.IsStall := by
  cases ended with
  | none => rfl
  | some d =>
    cases h : closure d with
    | none => exact isStall_decide_failed h
    | some reason => simp only [decide, Option.bind_some, h]

/-- Beside a closed connection, a failure that is not final is a stall. -/
theorem isStall_decide_closed {e : AnyhowError} {failure : Failure} {d : DriverEnd}
    (h : (closure d).isSome) (hfailure : failure ≠ .final) :
    (decide (some (e, failure)) (some d)).IsStall := by
  obtain ⟨reason, hreason⟩ := Option.isSome_iff_exists.mp h
  simp only [decide, Option.bind_some, hreason]
  cases failure with
  | final => exact absurd rfl hfailure
  | closure => trivial
  | lossy => trivial

end Prover

end Pprev
