import Mathlib.Data.NNRat.Defs
import Mathlib.Data.Rat.Cast.Order
import Pprev.Data.Runs
import Pprev.Evm.Word
import Pprev.Offchain.Layout
import Pprev.Prover.Failure

/-!
# The emulated link

The module `netem.rs`: when a chunk arrives at the far side of a direction of the link, and the
reader and the writer of a direction, which share a queue, a notification and a semaphore. Times are
exact, and the reader and the writer go on in any order, as far as neither waits.
-/

namespace Pprev

open Evm

namespace Netem

/-! ## Parameters -/

/-- One direction of the link; no `bitsPerSec` is an unlimited bandwidth. -/
structure LinkParams where
  delay : ℚ≥0
  bitsPerSec : Option Uint64
  queueBytes : ℕ
  deriving DecidableEq

/-- The time to put bytes on the link. -/
def LinkParams.serialisation (params : LinkParams) (bytes : ℕ) : ℚ≥0 :=
  match params.bitsPerSec with
  | some bps => bytes * 8 / bps.toNat
  | none => 0

/-- The largest chunk that is read at once. -/
def CHUNK : ℕ := 16 * 1024

def LinkParams.validate (params : LinkParams) : Except Prover.AnyhowError Unit := do
  ensure (params.bitsPerSec ≠ some 0) (.message "the bandwidth must be positive")
  ensure (CHUNK ≤ params.queueBytes ∧ params.queueBytes ≤ 1 <<< 30)
    (.message "the queue must hold between 16384 bytes and 1 GiB")

/-! ## The delivery schedule -/

structure Schedule where
  params : LinkParams
  /-- When the link finishes what it holds. -/
  linkFreeAt : Option ℚ
  deriving DecidableEq

def Schedule.new (params : LinkParams) : Schedule := ⟨params, none⟩

/-- When the link finishes a chunk that is read now. -/
def Schedule.sent (schedule : Schedule) (now : ℚ) (bytes : ℕ) : ℚ :=
  let start := match schedule.linkFreeAt with
    | some free => if free > now then free else now
    | none => now
  start + schedule.params.serialisation bytes

/-- The delivery time of a chunk that is read now, and the schedule after it. -/
def Schedule.deliverAt (schedule : Schedule) (now : ℚ) (bytes : ℕ) : ℚ × Schedule :=
  let sent := schedule.sent now bytes
  (sent + schedule.params.delay, { schedule with linkFreeAt := some sent })

/-! ## One direction -/

/-- Where the reader of `pump` is. A chunk without bytes is the end of the stream. -/
inductive Reader where
  | reading
  /-- at `acquire_many` -/
  | acquiring (chunk : Bytes)
  /-- at `deliver_at` -/
  | scheduling (chunk : Bytes)
  /-- at `push_back` -/
  | pushing (due : ℚ) (chunk : Bytes)
  /-- at `notify_one`, and whether it reads on afterwards -/
  | notifying (more : Bool)
  | returned
  deriving DecidableEq

/-- Where the writer of `pump` is. -/
inductive Writer where
  /-- at `pop_front` -/
  | popping
  /-- before the look at the clock -/
  | popped (due : ℚ) (chunk : Bytes)
  | sleeping (due : ℚ) (chunk : Bytes)
  /-- within `write_all` of a chunk of a length, with the rest of it still to be written -/
  | writing (len : ℕ) (rest : Bytes)
  | shuttingDown
  /-- at the first poll of `notified` -/
  | polling
  /-- for `ready`, and whether the notification has come -/
  | waiting (notified : Bool)
  | returned
  deriving DecidableEq

structure Pump where
  now : ℚ
  queue : List (ℚ × Bytes)
  /-- The permit that `ready` keeps for the next one that waits. -/
  ready : Bool
  /-- The permits of the semaphore, with those that are kept for the reader while it waits. -/
  room : ℕ
  delivered : Uint64
  schedule : Schedule
  reader : Reader
  writer : Writer
  /-- A socket has failed, and both parts are dropped. -/
  failed : Bool
  deriving DecidableEq

def Pump.start (params : LinkParams) (now : ℚ) : Pump where
  now := now
  queue := []
  ready := false
  room := params.queueBytes
  delivered := 0
  schedule := .new params
  reader := .reading
  writer := .popping
  failed := false

/-- `notify_one` wakes the writer if it waits, and keeps a permit otherwise. -/
def Pump.notifyOne (s : Pump) : Pump :=
  if s.writer = .waiting false then { s with writer := .waiting true } else { s with ready := true }

/-- The first poll of `notified` takes the permit if there is one. -/
def Pump.pollNotified (s : Pump) : Pump :=
  if s.ready then { s with ready := false, writer := .popping }
  else { s with writer := .waiting false }

theorem Pump.notifyOne_eq (s : Pump) :
    s.writer = .waiting false ∧ s.notifyOne = { s with writer := .waiting true } ∨
      s.writer ≠ .waiting false ∧ s.notifyOne = { s with ready := true } := by
  unfold notifyOne
  split_ifs with h
  · exact .inl ⟨h, rfl⟩
  · exact .inr ⟨h, rfl⟩

theorem Pump.pollNotified_eq (s : Pump) :
    s.ready = true ∧ s.pollNotified = { s with ready := false, writer := .popping } ∨
      s.ready = false ∧ s.pollNotified = { s with writer := .waiting false } := by
  unfold pollNotified
  split_ifs with h
  · exact .inl ⟨h, rfl⟩
  · exact .inr ⟨by simpa using h, rfl⟩

/-- What the writer does with a chunk that is due. -/
def Writer.handle (chunk : Bytes) : Writer :=
  if chunk = [] then .shuttingDown else .writing chunk.length chunk

inductive Event where
  /-- the reader gets a chunk from its socket -/
  | read (time : ℚ) (chunk : Bytes)
  | push (due : ℚ) (chunk : Bytes)
  /-- the socket of the writer takes bytes -/
  | write (time : ℚ) (part : Bytes)
  | shutdown
  | fail
  /-- a step that no socket and no queue sees -/
  | silent
  deriving DecidableEq

/-- A step of one of the two parts, or of the clock. -/
inductive Step (s : Pump) : Event → Pump → Prop where
  | tick {time : ℚ} : s.now ≤ time → Step s .silent { s with now := time }
  -- the reader
  | read {chunk : Bytes} : s.reader = .reading → chunk ≠ [] → chunk.length ≤ CHUNK →
      Step s (.read s.now chunk) { s with reader := .acquiring chunk }
  | readEnd : s.reader = .reading →
      Step s (.read s.now []) { s with reader := .scheduling [] }
  | readFails : s.reader = .reading → Step s .fail { s with failed := true }
  | acquire {chunk : Bytes} : s.reader = .acquiring chunk → chunk.length ≤ s.room →
      Step s .silent { s with room := s.room - chunk.length, reader := .scheduling chunk }
  | schedule {chunk : Bytes} : s.reader = .scheduling chunk →
      Step s .silent { s with
        reader := .pushing (s.schedule.deliverAt s.now chunk.length).1 chunk
        schedule := (s.schedule.deliverAt s.now chunk.length).2 }
  | push {due : ℚ} {chunk : Bytes} : s.reader = .pushing due chunk →
      Step s (.push due chunk)
        { s with queue := s.queue ++ [(due, chunk)], reader := .notifying (chunk ≠ []) }
  | notify {more : Bool} : s.reader = .notifying more →
      Step s .silent { s.notifyOne with reader := if more then .reading else .returned }
  -- the writer
  | pop {due : ℚ} {chunk : Bytes} {rest : List (ℚ × Bytes)} : s.writer = .popping →
      s.queue = (due, chunk) :: rest →
      Step s .silent { s with queue := rest, writer := .popped due chunk }
  | popNone : s.writer = .popping → s.queue = [] → Step s .silent { s with writer := .polling }
  | poll : s.writer = .polling → Step s .silent s.pollNotified
  | wake : s.writer = .waiting true → Step s .silent { s with writer := .popping }
  | sleep {due : ℚ} {chunk : Bytes} : s.writer = .popped due chunk → due > s.now →
      Step s .silent { s with writer := .sleeping due chunk }
  | late {due : ℚ} {chunk : Bytes} : s.writer = .popped due chunk → ¬due > s.now →
      Step s .silent { s with writer := .handle chunk }
  | elapse {due : ℚ} {chunk : Bytes} : s.writer = .sleeping due chunk → due ≤ s.now →
      Step s .silent { s with writer := .handle chunk }
  | write {len : ℕ} {part rest : Bytes} : s.writer = .writing len (part ++ rest) → part ≠ [] →
      Step s (.write s.now part) { s with writer := .writing len rest }
  | written {len : ℕ} : s.writer = .writing len [] →
      Step s .silent { s with
        delivered := s.delivered + .ofNat 64 len
        room := s.room + len
        writer := .popping }
  | writeFails {len : ℕ} {rest : Bytes} : s.writer = .writing len rest → rest ≠ [] →
      Step s .fail { s with failed := true }
  | shutdown : s.writer = .shuttingDown → Step s .shutdown { s with writer := .returned }
  | shutdownFails : s.writer = .shuttingDown → Step s .fail { s with failed := true }

/-- The traces of a direction that starts at a time. -/
def Runs (params : LinkParams) (now : ℚ) : List Event → Pump → Prop :=
  Trace.Runs (fun s e t => s.failed = false ∧ Step s e t) (.start params now)

/-! ## What is seen -/

@[simp] def Event.reads : Event → List (ℚ × Bytes)
  | .read time chunk => [(time, chunk)]
  | _ => []

@[simp] def Event.pushes : Event → List (ℚ × Bytes)
  | .push due chunk => [(due, chunk)]
  | _ => []

@[simp] def Event.written : Event → Bytes
  | .write _ part => part
  | _ => []

/-- The chunks that were read, with their times. -/
def reads (es : List Event) : List (ℚ × Bytes) := es.flatMap Event.reads

/-- The chunks that were queued, with their delivery times. -/
def pushes (es : List Event) : List (ℚ × Bytes) := es.flatMap Event.pushes

/-- The bytes that were written. -/
def written (es : List Event) : Bytes := es.flatMap Event.written

/-- The bytes of chunks, in order. -/
def bytes (chunks : List (ℚ × Bytes)) : Bytes := chunks.flatMap Prod.snd

/-- The reader waits for room that only the writer makes. -/
def Pump.ReaderWaits (s : Pump) : Prop :=
  ∃ chunk, s.reader = .acquiring chunk ∧ s.room < chunk.length

/-- The writer waits for a notification that only the reader gives. -/
def Pump.WriterWaits (s : Pump) : Prop := s.writer = .waiting false

end Netem

end Pprev
