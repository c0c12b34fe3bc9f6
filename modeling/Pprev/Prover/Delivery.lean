import Mathlib.Data.List.Forall2
import Pprev.Prover.Netem

/-!
# What the emulated link keeps

Invariants of a direction over every trace: where the bytes are that were read and not yet written,
who holds the permits, which chunk ends the stream, who is to be notified, and when the link is
free. Together they say that the link loses, reorders and corrupts nothing, and that the reader and
the writer never wait for each other.
-/

namespace Pprev

open Evm

namespace Netem

variable {params : LinkParams} {start : ℚ} {es ds : List Event} {e : Event} {s t : Pump}

/-! ## Events -/

@[simp] theorem reads_append : reads (es ++ ds) = reads es ++ reads ds := List.flatMap_append

@[simp] theorem pushes_append : pushes (es ++ ds) = pushes es ++ pushes ds := List.flatMap_append

@[simp] theorem written_append : written (es ++ ds) = written es ++ written ds :=
  List.flatMap_append

@[simp] theorem reads_singleton : reads [e] = e.reads := List.flatMap_singleton ..

@[simp] theorem pushes_singleton : pushes [e] = e.pushes := List.flatMap_singleton ..

@[simp] theorem written_singleton : written [e] = e.written := List.flatMap_singleton ..

@[simp] theorem bytes_nil : bytes [] = [] := rfl

@[simp] theorem bytes_cons {x : ℚ × Bytes} {xs : List (ℚ × Bytes)} :
    bytes (x :: xs) = x.2 ++ bytes xs := List.flatMap_cons

@[simp] theorem bytes_append {xs ys : List (ℚ × Bytes)} : bytes (xs ++ ys) = bytes xs ++ bytes ys :=
  List.flatMap_append

/-! ## Permits -/

/-- The permits that the reader has taken and not yet passed on with a chunk. -/
def Reader.reserved : Reader → ℕ
  | .scheduling chunk => chunk.length
  | .pushing _ chunk => chunk.length
  | _ => 0

/-- The permits that come back when the writer is done with its chunk. -/
def Writer.reserved : Writer → ℕ
  | .popped _ chunk => chunk.length
  | .sleeping _ chunk => chunk.length
  | .writing len _ => len
  | _ => 0

/-- The bytes that the writer holds. -/
def Writer.unwritten : Writer → Bytes
  | .popped _ chunk => chunk
  | .sleeping _ chunk => chunk
  | .writing _ rest => rest
  | _ => []

@[simp] theorem Writer.reserved_handle (chunk : Bytes) :
    (Writer.handle chunk).reserved = chunk.length := by
  unfold handle
  split_ifs with h
  · rw [h]
    rfl
  · rfl

@[simp] theorem Writer.unwritten_handle (chunk : Bytes) :
    (Writer.handle chunk).unwritten = chunk := by
  unfold handle
  split_ifs with h
  · exact h.symm
  · rfl

/-- Every permit of the semaphore is free or stands for a byte on the link, and the counter lags
behind the bytes written by what the writer has written of its chunk. -/
structure Accounting (params : LinkParams) (count : ℕ) (s : Pump) : Prop where
  room : s.room + s.reader.reserved + (bytes s.queue).length + s.writer.reserved = params.queueBytes
  rest : s.writer.unwritten.length ≤ s.writer.reserved
  delivered : s.delivered + .ofNat 64 (s.writer.reserved - s.writer.unwritten.length) =
    .ofNat 64 count

theorem Accounting.step {count : ℕ} (h : Accounting params count s) (hstep : Step s e t) :
    Accounting params (count + e.written.length) t := by
  obtain ⟨room, rest, delivered⟩ := h
  cases hstep with
  | tick => exact ⟨room, rest, delivered⟩
  | read hr | readEnd hr | schedule hr =>
    rw [hr] at room
    exact ⟨room, rest, delivered⟩
  | acquire hr hle =>
    refine ⟨?_, rest, delivered⟩
    rw [hr] at room
    simp only [Reader.reserved] at room ⊢
    omega
  | push hr =>
    refine ⟨?_, rest, delivered⟩
    rw [hr] at room
    simp [Reader.reserved] at room ⊢
    omega
  | @notify more hr =>
    have hnext : (if more then Reader.reading else .returned).reserved = 0 := by cases more <;> rfl
    rw [hr] at room
    rcases s.notifyOne_eq with ⟨hw, hs⟩ | ⟨-, hs⟩
    · rw [hw] at room rest delivered
      rw [hs]
      exact ⟨hnext ▸ room, rest, delivered⟩
    · rw [hs]
      exact ⟨hnext ▸ room, rest, delivered⟩
  | pop hw hq =>
    rw [hw] at room delivered
    rw [hq] at room
    simp [Writer.reserved] at room
    refine ⟨?_, le_rfl, ?_⟩
    · simp only [Writer.reserved]
      omega
    · simpa [Writer.reserved, Writer.unwritten] using delivered
  | popNone hw | wake hw | sleep hw | shutdown hw =>
    rw [hw] at room rest delivered
    exact ⟨room, rest, delivered⟩
  | poll hw =>
    rw [hw] at room rest delivered
    rcases s.pollNotified_eq with ⟨-, hs⟩ | ⟨-, hs⟩ <;>
    · rw [hs]
      exact ⟨room, rest, delivered⟩
  | @late _ chunk hw | @elapse _ chunk hw =>
    rw [hw] at room delivered
    refine ⟨?_, ?_, ?_⟩
    · rwa [Writer.reserved_handle]
    · rw [Writer.reserved_handle, Writer.unwritten_handle]
    · rwa [Writer.reserved_handle, Writer.unwritten_handle]
  | @write len part after hw hne =>
    rw [hw] at room rest delivered
    simp only [Writer.reserved, Writer.unwritten, List.length_append] at rest delivered
    refine ⟨room, by simp only [Writer.reserved, Writer.unwritten]; omega, ?_⟩
    have hlen : len - after.length = len - (part.length + after.length) + part.length := by omega
    simp only [Writer.reserved, Writer.unwritten, Event.written]
    rw [hlen, BitVec.ofNat_add, BitVec.ofNat_add, ← BitVec.add_assoc, delivered]
  | written hw =>
    rw [hw] at room delivered
    simp only [Writer.reserved, Writer.unwritten, List.length_nil, Nat.sub_zero] at room delivered
    refine ⟨?_, le_rfl, ?_⟩
    · simp only [Writer.reserved]
      omega
    · rw [delivered]
      exact BitVec.add_zero _
  | readFails | writeFails | shutdownFails => exact ⟨room, rest, delivered⟩

/-! ## The end of the stream -/

/-- The chunks on the link, with the end of the stream while the writer has not passed it. -/
def Writer.taken : Writer → List Bytes
  | .popped _ chunk => [chunk]
  | .sleeping _ chunk => [chunk]
  | .shuttingDown => [[]]
  | .returned => [[]]
  | _ => []

def Pump.chunks (s : Pump) : List Bytes := s.writer.taken ++ s.queue.map Prod.snd

/-- The end of the stream is queued. -/
def Reader.closed : Reader → Bool
  | .notifying more => !more
  | .returned => true
  | _ => false

/-- Chunks of which the last one and no other is the end of the stream, once it is queued. -/
def Marked : Bool → List Bytes → Prop
  | false, chunks => [] ∉ chunks
  | true, chunks => ∃ front, chunks = front ++ [[]] ∧ [] ∉ front

theorem Marked.push {chunks : List Bytes} (h : Marked false chunks) (chunk : Bytes) :
    Marked (!decide (chunk ≠ [])) (chunks ++ [chunk]) := by
  by_cases hnil : chunk = []
  · subst hnil
    exact ⟨chunks, rfl, h⟩
  · rw [decide_eq_true hnil]
    exact fun hmem => (List.mem_append.mp hmem).elim h fun hlast =>
      hnil (List.mem_singleton.mp hlast).symm

theorem Marked.tail {closed : Bool} {chunk : Bytes} {chunks : List Bytes}
    (h : Marked closed (chunk :: chunks)) (hne : chunk ≠ []) : Marked closed chunks := by
  cases closed with
  | false => exact fun hmem => h (List.mem_cons_of_mem _ hmem)
  | true =>
    obtain ⟨front, heq, hfront⟩ := h
    cases front with
    | nil => exact absurd (List.cons.inj heq).1 hne
    | cons c front =>
      obtain ⟨rfl, rfl⟩ := List.cons.inj heq
      exact ⟨front, rfl, fun hmem => hfront (List.mem_cons_of_mem _ hmem)⟩

theorem Marked.cons_nil {closed : Bool} {chunks : List Bytes} (h : Marked closed ([] :: chunks)) :
    closed = true ∧ chunks = [] := by
  cases closed with
  | false => exact absurd List.mem_cons_self h
  | true =>
    obtain ⟨front, heq, hfront⟩ := h
    cases front with
    | nil => exact ⟨rfl, (List.cons.inj heq).2⟩
    | cons c front =>
      obtain ⟨rfl, -⟩ := List.cons.inj heq
      exact absurd List.mem_cons_self hfront

theorem Marked.ne_nil {chunks : List Bytes} (h : Marked true chunks) : chunks ≠ [] := by
  obtain ⟨front, rfl, -⟩ := h
  simp

/-- Passing a chunk that is due. -/
theorem Marked.handle {closed : Bool} {chunk : Bytes} {chunks : List Bytes}
    (h : Marked closed (chunk :: chunks)) :
    Marked closed ((Writer.handle chunk).taken ++ chunks) := by
  unfold Writer.handle
  split_ifs with hnil
  · subst hnil
    exact h
  · exact h.tail hnil

theorem Marked.step (h : Marked s.reader.closed s.chunks) (hstep : Step s e t) :
    Marked t.reader.closed t.chunks := by
  unfold Pump.chunks at h ⊢
  cases hstep with
  | tick | readFails | writeFails | shutdownFails => exact h
  | read hr | readEnd hr | acquire hr | schedule hr =>
    rw [hr] at h
    exact h
  | push hr =>
    rw [hr] at h
    rw [List.map_append, ← List.append_assoc]
    exact h.push _
  | @notify more hr =>
    have hnext : (if more then Reader.reading else .returned).closed = !more := by
      cases more <;> rfl
    rw [hr] at h
    simp only [hnext]
    rcases s.notifyOne_eq with ⟨hw, hs⟩ | ⟨-, hs⟩
    · rw [hw] at h
      rw [hs]
      exact h
    · rw [hs]
      exact h
  | pop hw hq =>
    rw [hw, hq] at h
    exact h
  | popNone hw | wake hw | sleep hw | write hw | written hw | shutdown hw =>
    rw [hw] at h
    exact h
  | poll hw =>
    rw [hw] at h
    rcases s.pollNotified_eq with ⟨-, hs⟩ | ⟨-, hs⟩ <;>
    · rw [hs]
      exact h
  | late hw | elapse hw =>
    rw [hw] at h
    exact Marked.handle h

/-- The reader saw the end of the stream. -/
def Ended (es : List Event) : Prop := ∃ time, .read time [] ∈ es

/-- What the reader knows of the chunk it holds. -/
def Reader.Knows (es : List Event) : Reader → Prop
  | .reading => True
  | .acquiring chunk => chunk ≠ [] ∧ chunk.length ≤ CHUNK
  | .scheduling chunk => chunk = [] → Ended es
  | .pushing _ chunk => chunk = [] → Ended es
  | .notifying more => more = false → Ended es
  | .returned => Ended es

theorem Ended.mono (h : Ended es) : Ended (es ++ ds) := by
  obtain ⟨time, hmem⟩ := h
  exact ⟨time, List.mem_append_left _ hmem⟩

theorem Reader.Knows.mono {reader : Reader} (h : reader.Knows es) : reader.Knows (es ++ ds) := by
  cases reader with
  | reading => trivial
  | acquiring => exact h
  | scheduling | pushing | notifying => exact fun hend => (h hend).mono
  | returned => exact Ended.mono h

theorem Reader.Knows.step (h : s.reader.Knows es) (hstep : Step s e t) :
    t.reader.Knows (es ++ [e]) := by
  cases hstep with
  | read hr hne hle => exact ⟨hne, hle⟩
  | readEnd => exact fun _ => ⟨s.now, by simp⟩
  | acquire hr =>
    rw [hr] at h
    exact fun hnil => absurd hnil h.1
  | schedule hr =>
    rw [hr] at h
    exact fun hnil => (h hnil).mono
  | push hr =>
    rw [hr] at h
    exact fun hmore => (h (by simpa using hmore)).mono
  | @notify more hr =>
    rw [hr] at h
    cases more with
    | true => trivial
    | false => exact (h rfl).mono
  | poll =>
    have hreader : s.pollNotified.reader = s.reader := by
      rcases s.pollNotified_eq with ⟨-, hs⟩ | ⟨-, hs⟩ <;> rw [hs]
    rw [hreader]
    exact h.mono
  | tick | readFails | pop | popNone | wake | sleep | late | elapse | write | written | writeFails
  | shutdown | shutdownFails => exact h.mono

/-! ## Notifications -/

/-- The reader is about to notify the writer. -/
def Reader.Notifies (reader : Reader) : Prop := ∃ more, reader = .notifying more

/-- No wake-up is lost: while chunks are queued, a writer that found none is notified or will be. -/
structure Woken (s : Pump) : Prop where
  polling : s.queue ≠ [] → s.writer = .polling → s.ready = true ∨ s.reader.Notifies
  waiting : s.queue ≠ [] → s.writer = .waiting false → s.reader.Notifies

theorem Woken.of_writer (hpolling : s.writer ≠ .polling) (hwaiting : s.writer ≠ .waiting false) :
    Woken s := ⟨fun _ h => absurd h hpolling, fun _ h => absurd h hwaiting⟩

theorem Writer.handle_ne (chunk : Bytes) :
    handle chunk ≠ .polling ∧ handle chunk ≠ .waiting false := by
  unfold handle
  split_ifs <;> simp

theorem Woken.step (h : Woken s) (hstep : Step s e t) : Woken t := by
  obtain ⟨polling, waiting⟩ := h
  cases hstep with
  | tick | readFails | writeFails | shutdownFails => exact ⟨polling, waiting⟩
  | read hr | readEnd hr | acquire hr | schedule hr =>
    have hnot : ¬s.reader.Notifies := by simp [Reader.Notifies, hr]
    exact ⟨fun hq hw => .inl ((polling hq hw).resolve_right hnot),
      fun hq hw => absurd (waiting hq hw) hnot⟩
  | push => exact ⟨fun _ _ => .inr ⟨_, rfl⟩, fun _ _ => ⟨_, rfl⟩⟩
  | notify =>
    rcases s.notifyOne_eq with ⟨-, hs⟩ | ⟨hne, hs⟩
    · rw [hs]
      exact .of_writer (by simp) (by simp)
    · rw [hs]
      exact ⟨fun _ _ => .inl rfl, fun _ hw => absurd hw hne⟩
  | popNone hw hq => exact ⟨fun hne => absurd hq hne, fun hne => absurd hq hne⟩
  | poll hw =>
    rcases s.pollNotified_eq with ⟨-, hs⟩ | ⟨hready, hs⟩
    · rw [hs]
      exact .of_writer (by simp) (by simp)
    · rw [hs]
      refine ⟨fun _ hpolling => (nomatch hpolling), fun hq _ => ?_⟩
      exact (polling hq hw).resolve_left (by simp [hready])
  | late | elapse => exact .of_writer (Writer.handle_ne _).1 (Writer.handle_ne _).2
  | pop | wake | sleep | write | written | shutdown => exact .of_writer (by simp) (by simp)

/-! ## Delivery times -/

namespace Schedule

variable {schedule : Schedule} {time : ℚ} {n : ℕ}

theorem now_le_sent : time ≤ schedule.sent time n := by
  have hser : (0 : ℚ) ≤ schedule.params.serialisation n := NNRat.coe_nonneg _
  unfold sent
  cases schedule.linkFreeAt with
  | none => exact le_add_of_nonneg_right hser
  | some free =>
    simp only
    split_ifs with hlt
    · exact hlt.le.trans (le_add_of_nonneg_right hser)
    · exact le_add_of_nonneg_right hser

theorem free_le_sent {free : ℚ} (hfree : schedule.linkFreeAt = some free) :
    free ≤ schedule.sent time n := by
  have hser : (0 : ℚ) ≤ schedule.params.serialisation n := NNRat.coe_nonneg _
  unfold sent
  rw [hfree]
  simp only
  split_ifs with hlt
  · exact le_add_of_nonneg_right hser
  · exact (not_lt.mp hlt).trans (le_add_of_nonneg_right hser)

end Schedule

/-- The delivery times so far are in order, and the link is free only after the last of them. -/
structure Scheduled (params : LinkParams) (pushed : List (ℚ × Bytes)) (s : Pump) : Prop where
  same : s.schedule.params = params
  sorted : pushed.Pairwise fun p q => p.1 ≤ q.1
  free : ∀ p ∈ pushed, ∃ free, s.schedule.linkFreeAt = some free ∧ p.1 ≤ free + params.delay
  pushing : ∀ due chunk, s.reader = .pushing due chunk →
    ∃ free, s.schedule.linkFreeAt = some free ∧ due = free + params.delay

theorem Scheduled.of_schedule {pushed : List (ℚ × Bytes)} (h : Scheduled params pushed s)
    (hschedule : t.schedule = s.schedule) (hreader : ∀ due chunk, t.reader ≠ .pushing due chunk) :
    Scheduled params pushed t :=
  ⟨hschedule ▸ h.same, h.sorted, fun p hp => hschedule ▸ h.free p hp,
    fun due chunk hr => absurd hr (hreader due chunk)⟩

theorem Scheduled.step {pushed : List (ℚ × Bytes)} (h : Scheduled params pushed s)
    (hstep : Step s e t) : Scheduled params (pushed ++ e.pushes) t := by
  cases hstep with
  | push hr =>
    obtain ⟨same, sorted, free, pushing⟩ := h
    obtain ⟨at₀, hfree, hdue⟩ := pushing _ _ hr
    have hlast : ∀ p ∈ pushed, p.1 ≤ at₀ + params.delay := by
      intro p hp
      obtain ⟨at₁, hfree₁, hle⟩ := free p hp
      obtain rfl := Option.some.inj (hfree₁.symm.trans hfree)
      exact hle
    refine ⟨same, List.pairwise_append.mpr ⟨sorted, List.pairwise_singleton .., ?_⟩, ?_,
      fun _ _ hr => nomatch hr⟩
    · intro p hp q hq
      rw [List.mem_singleton.mp hq, hdue]
      exact hlast p hp
    · intro p hp
      rcases List.mem_append.mp hp with hp | hp
      · exact ⟨at₀, hfree, hlast p hp⟩
      · rw [List.mem_singleton.mp hp]
        exact ⟨at₀, hfree, hdue.le⟩
  | schedule hr =>
    obtain ⟨same, sorted, free, pushing⟩ := h
    simp only [Event.pushes, List.append_nil]
    refine ⟨same, sorted, fun p hp => ⟨_, rfl, ?_⟩, fun due chunk hpushing => ⟨_, rfl, ?_⟩⟩
    · obtain ⟨at₀, hfree, hle⟩ := free p hp
      exact hle.trans (by simpa using Schedule.free_le_sent hfree)
    · obtain ⟨rfl, -⟩ := Reader.pushing.inj hpushing
      rw [← same]
      rfl
  | read | readEnd | acquire =>
    simp only [Event.pushes, List.append_nil]
    exact h.of_schedule rfl (by simp)
  | @notify more hr =>
    simp only [Event.pushes, List.append_nil]
    refine h.of_schedule ?_ ?_
    · rcases s.notifyOne_eq with ⟨-, hs⟩ | ⟨-, hs⟩ <;> rw [hs]
    · cases more <;> simp
  | poll =>
    simp only [Event.pushes, List.append_nil]
    rcases s.pollNotified_eq with ⟨-, hs⟩ | ⟨-, hs⟩ <;>
    · rw [hs]
      exact ⟨h.same, h.sorted, h.free, h.pushing⟩
  | tick | readFails | pop | popNone | wake | sleep | late | elapse | write | written | writeFails
  | shutdown | shutdownFails =>
    simp only [Event.pushes, List.append_nil]
    exact ⟨h.same, h.sorted, h.free, h.pushing⟩

/-! ## Bytes -/

/-- The chunk that the reader holds, with the time at which it was read. -/
def Reader.Holds (params : LinkParams) (now : ℚ) (held : List (ℚ × Bytes)) : Reader → Prop
  | .acquiring chunk => ∃ time ≤ now, held = [(time, chunk)]
  | .scheduling chunk => ∃ time ≤ now, held = [(time, chunk)]
  | .pushing due chunk => ∃ time, time + params.delay ≤ due ∧ held = [(time, chunk)]
  | _ => held = []

/-- A chunk is queued as it was read, to be delivered no earlier than the delay after that. -/
def Carried (params : LinkParams) (read pushed : ℚ × Bytes) : Prop :=
  read.1 + params.delay ≤ pushed.1 ∧ read.2 = pushed.2

/-- What was read is, in order, what was queued and what the reader holds, and what was queued is
what was written, what the writer holds and what the queue holds. -/
structure Flow (params : LinkParams) (es : List Event) (s : Pump) : Prop where
  read : ∃ done held, reads es = done ++ held ∧ List.Forall₂ (Carried params) done (pushes es) ∧
    s.reader.Holds params s.now held
  queued : bytes (pushes es) = written es ++ s.writer.unwritten ++ bytes s.queue

theorem bytes_eq_of_carried {done pushed : List (ℚ × Bytes)}
    (h : List.Forall₂ (Carried params) done pushed) : bytes done = bytes pushed := by
  induction h with
  | nil => rfl
  | cons hcarried _ ih => rw [bytes_cons, bytes_cons, hcarried.2, ih]

theorem Reader.Holds.mono {now now' : ℚ} {held : List (ℚ × Bytes)} {reader : Reader}
    (h : reader.Holds params now held) (hle : now ≤ now') : reader.Holds params now' held := by
  cases reader with
  | acquiring | scheduling =>
    obtain ⟨time, htime, hheld⟩ := h
    exact ⟨time, htime.trans hle, hheld⟩
  | reading | pushing | notifying | returned => exact h

/-- A step at which no chunk is read or queued and nothing is written. -/
theorem Flow.of_silent (h : Flow params es s)
    (he : e.reads = [] ∧ e.pushes = [] ∧ e.written = [])
    (hheld : ∀ held, s.reader.Holds params s.now held → t.reader.Holds params t.now held)
    (hbytes : t.writer.unwritten ++ bytes t.queue = s.writer.unwritten ++ bytes s.queue) :
    Flow params (es ++ [e]) t := by
  obtain ⟨⟨done, held, hreads, hdone, hholds⟩, queued⟩ := h
  constructor
  · refine ⟨done, held, ?_, ?_, hheld held hholds⟩
    · rw [reads_append, reads_singleton, he.1, List.append_nil, hreads]
    · rwa [pushes_append, pushes_singleton, he.2.1, List.append_nil]
  · rw [pushes_append, pushes_singleton, he.2.1, List.append_nil, written_append,
      written_singleton, he.2.2, List.append_nil, queued, List.append_assoc, List.append_assoc,
      hbytes]

theorem Flow.step (h : Flow params es s) (same : s.schedule.params = params)
    (hstep : Step s e t) : Flow params (es ++ [e]) t := by
  cases hstep with
  | tick hle => exact h.of_silent ⟨rfl, rfl, rfl⟩ (fun _ hheld => hheld.mono hle) rfl
  | @read chunk hr | readEnd hr =>
    obtain ⟨⟨done, held, hreads, hdone, hheld⟩, queued⟩ := h
    rw [hr] at hheld
    obtain rfl : held = [] := hheld
    refine ⟨⟨done, _, ?_, ?_, s.now, le_rfl, rfl⟩, ?_⟩
    · rw [reads_append, reads_singleton, hreads, List.append_nil]
      rfl
    · simpa using hdone
    · simpa using queued
  | acquire hr =>
    exact h.of_silent ⟨rfl, rfl, rfl⟩ (fun _ hheld => by rw [hr] at hheld; exact hheld) rfl
  | @schedule chunk hr =>
    refine h.of_silent ⟨rfl, rfl, rfl⟩ (fun held hheld => ?_) rfl
    rw [hr] at hheld
    obtain ⟨time, hle, hheld⟩ := hheld
    have hsent : s.now ≤ s.schedule.sent s.now chunk.length := Schedule.now_le_sent
    refine ⟨time, ?_, hheld⟩
    rw [← same]
    exact add_le_add_left (hle.trans hsent) _
  | @push due chunk hr =>
    obtain ⟨⟨done, held, hreads, hdone, hheld⟩, queued⟩ := h
    rw [hr] at hheld
    obtain ⟨time, hle, rfl⟩ := hheld
    refine ⟨⟨done ++ [(time, chunk)], [], by simpa using hreads, ?_, rfl⟩, ?_⟩
    · rw [pushes_append]
      exact List.rel_append hdone (.cons ⟨hle, rfl⟩ .nil)
    · simp [queued]
  | @notify more hr =>
    refine h.of_silent ⟨rfl, rfl, rfl⟩ (fun held hheld => ?_) ?_
    · rw [hr] at hheld
      cases more <;> exact hheld
    · rcases s.notifyOne_eq with ⟨hw, hs⟩ | ⟨-, hs⟩
      · rw [hs, hw]
        rfl
      · rw [hs]
  | pop hw hq =>
    exact h.of_silent ⟨rfl, rfl, rfl⟩ (fun _ => id) (by simp [hw, hq, Writer.unwritten])
  | popNone hw | wake hw | sleep hw | written hw | shutdown hw =>
    exact h.of_silent ⟨rfl, rfl, rfl⟩ (fun _ => id) (by rw [hw]; rfl)
  | poll hw =>
    rcases s.pollNotified_eq with ⟨-, hs⟩ | ⟨-, hs⟩ <;>
    · rw [hs]
      exact h.of_silent ⟨rfl, rfl, rfl⟩ (fun _ => id) (by rw [hw]; rfl)
  | late hw | elapse hw =>
    refine h.of_silent ⟨rfl, rfl, rfl⟩ (fun _ => id) ?_
    rw [hw, Writer.unwritten_handle]
    rfl
  | write hw =>
    obtain ⟨⟨done, held, hreads, hdone, hheld⟩, queued⟩ := h
    refine ⟨⟨done, held, by simpa using hreads, by simpa using hdone, hheld⟩, ?_⟩
    rw [hw] at queued
    simpa [Writer.unwritten] using queued
  | readFails | writeFails | shutdownFails => exact h.of_silent ⟨rfl, rfl, rfl⟩ (fun _ => id) rfl

/-! ## Punctuality -/

/-- What the writer knows of the chunk it holds. -/
def Writer.Knows (now : ℚ) (pushed : List (ℚ × Bytes)) : Writer → Prop
  | .popped due chunk => (due, chunk) ∈ pushed
  | .sleeping due chunk => (due, chunk) ∈ pushed
  | .writing _ rest => ∃ p ∈ pushed, rest <:+ p.2 ∧ p.1 ≤ now
  | _ => True

/-- Nothing is written before the delivery time of its chunk. -/
structure Punctual (es : List Event) (s : Pump) : Prop where
  queue : ∀ p ∈ s.queue, p ∈ pushes es
  writer : s.writer.Knows s.now (pushes es)
  write : ∀ time part, .write time part ∈ es → ∃ p ∈ pushes es, part <:+: p.2 ∧ p.1 ≤ time

theorem Writer.Knows.mono {now now' : ℚ} {pushed more : List (ℚ × Bytes)} {writer : Writer}
    (h : writer.Knows now pushed) (hle : now ≤ now') : writer.Knows now' (pushed ++ more) := by
  cases writer with
  | popped | sleeping => exact List.mem_append_left _ h
  | writing =>
    obtain ⟨p, hp, hsuffix, hdue⟩ := h
    exact ⟨p, List.mem_append_left _ hp, hsuffix, hdue.trans hle⟩
  | popping | shuttingDown | polling | waiting | returned => trivial

theorem Writer.Knows.handle {now due : ℚ} {chunk : Bytes} {pushed : List (ℚ × Bytes)}
    (h : (due, chunk) ∈ pushed) (hdue : due ≤ now) : (Writer.handle chunk).Knows now pushed := by
  unfold Writer.handle
  split_ifs
  · trivial
  · exact ⟨_, h, List.suffix_rfl, hdue⟩

/-- A step at which nothing is written. -/
theorem Punctual.of_unwritten (h : Punctual es s) (he : ∀ time part, e ≠ .write time part)
    (hqueue : ∀ p ∈ t.queue, p ∈ pushes es ++ e.pushes)
    (hwriter : t.writer.Knows t.now (pushes es ++ e.pushes)) : Punctual (es ++ [e]) t := by
  refine ⟨by simpa using hqueue, by simpa using hwriter, fun time part hmem => ?_⟩
  rcases List.mem_append.mp hmem with hmem | hmem
  · obtain ⟨p, hp, hpart⟩ := h.write time part hmem
    exact ⟨p, by simp [hp], hpart⟩
  · exact absurd (List.mem_singleton.mp hmem).symm (he time part)

theorem Punctual.step (h : Punctual es s) (hstep : Step s e t) : Punctual (es ++ [e]) t := by
  have hqueue : ∀ p ∈ s.queue, p ∈ pushes es ++ e.pushes := fun p hp =>
    List.mem_append_left _ (h.queue p hp)
  have hwriter : s.writer.Knows s.now (pushes es ++ e.pushes) := h.writer.mono le_rfl
  cases hstep with
  | tick hle => exact h.of_unwritten (by simp) hqueue (h.writer.mono hle)
  | push =>
    refine h.of_unwritten (by simp) (fun p hp => ?_) hwriter
    rcases List.mem_append.mp hp with hp | hp
    · exact hqueue p hp
    · exact List.mem_append_right _ hp
  | notify =>
    rcases s.notifyOne_eq with ⟨-, hs⟩ | ⟨-, hs⟩
    · rw [hs]
      exact h.of_unwritten (by simp) hqueue trivial
    · rw [hs]
      exact h.of_unwritten (by simp) hqueue hwriter
  | pop _ hq =>
    rw [hq] at hqueue
    exact h.of_unwritten (by simp) (fun p hp => hqueue p (List.mem_cons_of_mem _ hp))
      (hqueue _ List.mem_cons_self)
  | poll =>
    rcases s.pollNotified_eq with ⟨-, hs⟩ | ⟨-, hs⟩ <;>
    · rw [hs]
      exact h.of_unwritten (by simp) hqueue trivial
  | sleep hw =>
    rw [hw] at hwriter
    exact h.of_unwritten (by simp) hqueue hwriter
  | late hw hdue =>
    rw [hw] at hwriter
    exact h.of_unwritten (by simp) hqueue (.handle hwriter (not_lt.mp hdue))
  | elapse hw hdue =>
    rw [hw] at hwriter
    exact h.of_unwritten (by simp) hqueue (.handle hwriter hdue)
  | @write len part rest hw =>
    have hheld := h.writer
    rw [hw] at hheld
    obtain ⟨p, hp, hsuffix, hdue⟩ := hheld
    refine ⟨by simpa using h.queue, ?_, fun time part' hmem => ?_⟩
    · simpa using ⟨p, hp, (List.suffix_append part rest).trans hsuffix, hdue⟩
    · simp only [pushes_append, pushes_singleton, Event.pushes, List.append_nil]
      rcases List.mem_append.mp hmem with hmem | hmem
      · exact h.write time part' hmem
      · obtain ⟨rfl, rfl⟩ := Event.write.inj (List.mem_singleton.mp hmem)
        exact ⟨p, hp, (List.prefix_append _ rest).isInfix.trans hsuffix.isInfix, hdue⟩
  | popNone | wake | written | shutdown => exact h.of_unwritten (by simp) hqueue trivial
  | read | readEnd | readFails | acquire | schedule | writeFails | shutdownFails =>
    exact h.of_unwritten (by simp) hqueue hwriter

/-! ## Every trace -/

theorem LinkParams.chunk_le (h : params.validate = .ok ()) : CHUNK ≤ params.queueBytes := by
  obtain ⟨_, -, hqueue⟩ := bind_eq_ok.mp h
  exact (ensure_eq_ok.mp hqueue).1

structure Invariant (params : LinkParams) (es : List Event) (s : Pump) : Prop where
  accounting : Accounting params (written es).length s
  marked : Marked s.reader.closed s.chunks
  knows : s.reader.Knows es
  woken : Woken s
  scheduled : Scheduled params (pushes es) s
  flow : Flow params es s
  punctual : Punctual es s

theorem Invariant.init : Invariant params [] (.start params start) where
  accounting := ⟨by simp [Pump.start, Reader.reserved, Writer.reserved], le_rfl, rfl⟩
  marked := List.not_mem_nil
  knows := trivial
  woken := .of_writer (by simp [Pump.start]) (by simp [Pump.start])
  scheduled := ⟨rfl, .nil, by simp [pushes], by simp [Pump.start]⟩
  flow := ⟨⟨[], [], rfl, .nil, rfl⟩, rfl⟩
  punctual := ⟨by simp [Pump.start], trivial, by simp⟩

theorem Invariant.step (h : Invariant params es s) (hstep : Step s e t) :
    Invariant params (es ++ [e]) t where
  accounting := by
    rw [written_append, written_singleton, List.length_append]
    exact h.accounting.step hstep
  marked := h.marked.step hstep
  knows := h.knows.step hstep
  woken := h.woken.step hstep
  scheduled := by
    rw [pushes_append, pushes_singleton]
    exact h.scheduled.step hstep
  flow := h.flow.step h.scheduled.same hstep
  punctual := h.punctual.step hstep

theorem Runs.invariant (h : Runs params start es s) : Invariant params es s :=
  Trace.Runs.invariant (Invariant params) Invariant.init (fun hinv hstep => hinv.step hstep.2) h

namespace Invariant

variable (h : Invariant params es s)
include h

theorem bytes_reads : ∃ held, bytes (reads es) = bytes (pushes es) ++ bytes held ∧
    s.reader.Holds params s.now held := by
  obtain ⟨⟨done, held, hreads, hdone, hheld⟩, -⟩ := h.flow
  exact ⟨held, by rw [hreads, bytes_append, bytes_eq_of_carried hdone], hheld⟩

theorem written_prefix : written es <+: bytes (reads es) := by
  obtain ⟨held, hreads, -⟩ := h.bytes_reads
  rw [hreads, h.flow.queued, List.append_assoc, List.append_assoc]
  exact List.prefix_append ..

theorem carried :
    List.Forall₂ (Carried params) ((reads es).take (pushes es).length) (pushes es) := by
  obtain ⟨done, held, hreads, hdone, -⟩ := h.flow.read
  rwa [hreads, ← hdone.length_eq, List.take_left]

/-- What is queued and not yet written fits the queue. -/
theorem length_pushes_le :
    (bytes (pushes es)).length ≤ (written es).length + params.queueBytes := by
  have hroom := h.accounting.room
  have hrest := h.accounting.rest
  rw [h.flow.queued, List.length_append, List.length_append]
  omega

theorem no_deadlock (hqueue : CHUNK ≤ params.queueBytes) (hwaits : s.WriterWaits) :
    ¬s.ReaderWaits ∧ s.reader ≠ .returned := by
  have hnotifies (hne : s.queue ≠ []) : s.reader.Notifies := h.woken.waiting hne hwaits
  constructor
  · rintro ⟨chunk, hr, hlt⟩
    have hempty : s.queue = [] := by
      by_contra hne
      obtain ⟨more, hmore⟩ := hnotifies hne
      exact nomatch hr.symm.trans hmore
    have hroom := h.accounting.room
    rw [hr, hwaits, hempty] at hroom
    have hknows := h.knows
    rw [hr] at hknows
    simp only [Reader.reserved, Writer.reserved, bytes_nil, List.length_nil] at hroom
    have := hknows.2
    omega
  · intro hr
    have hmarked := h.marked
    rw [hr, Pump.chunks, hwaits] at hmarked
    have hne : s.queue ≠ [] := fun hempty => hmarked.ne_nil (by rw [hempty]; rfl)
    obtain ⟨more, hmore⟩ := hnotifies hne
    exact nomatch hr.symm.trans hmore

/-- When the writer has passed the end of the stream, everything that was read is written. -/
theorem done (hw : s.writer = .shuttingDown) :
    s.reader.closed ∧ Ended es ∧ written es = bytes (reads es) := by
  have hmarked := h.marked
  rw [Pump.chunks, hw] at hmarked
  obtain ⟨hclosed, hempty⟩ := hmarked.cons_nil
  have hqueue : s.queue = [] := List.map_eq_nil_iff.mp hempty
  obtain ⟨held, hreads, hheld⟩ := h.bytes_reads
  have hqueued := h.flow.queued
  rw [hw, hqueue, bytes_nil, List.append_nil] at hqueued
  have hknows := h.knows
  cases hr : s.reader with
  | reading | acquiring | scheduling | pushing => simp [hr, Reader.closed] at hclosed
  | notifying more =>
    rw [hr] at hclosed hknows hheld
    obtain rfl : held = [] := hheld
    refine ⟨hclosed, hknows (by simpa [Reader.closed] using hclosed), ?_⟩
    rw [hreads, hqueued]
    simp [Writer.unwritten]
  | returned =>
    rw [hr] at hknows hheld
    obtain rfl : held = [] := hheld
    refine ⟨rfl, hknows, ?_⟩
    rw [hreads, hqueued]
    simp [Writer.unwritten]

end Invariant

/-- After the end of the stream the reader reads no more. -/
theorem Reader.closed_step (h : s.reader.closed = true) (hstep : Step s e t) :
    t.reader.closed = true ∧ e.reads = [] := by
  cases hstep with
  | read hr | readEnd hr | readFails hr | acquire hr | schedule hr | push hr =>
    simp [hr, Reader.closed] at h
  | @notify more hr =>
    rw [hr] at h
    have hmore : more = false := by simpa [Reader.closed] using h
    exact ⟨by rw [hmore]; rfl, rfl⟩
  | poll =>
    rcases s.pollNotified_eq with ⟨-, hs⟩ | ⟨-, hs⟩ <;>
    · rw [hs]
      exact ⟨h, rfl⟩
  | tick | pop | popNone | wake | sleep | late | elapse | write | written | writeFails | shutdown
  | shutdownFails => exact ⟨h, rfl⟩

theorem Runs.shutdown (h : Runs params start es s) {front rest : List Event}
    (hes : es = front ++ .shutdown :: rest) :
    Ended front ∧ written front = bytes (reads es) := by
  subst hes
  obtain ⟨u, hfront, hrest⟩ := Trace.Runs.of_append h
  obtain ⟨v, ⟨-, hstep⟩, hrest⟩ := hrest.of_cons
  cases hstep with
  | shutdown hw =>
    obtain ⟨hclosed, hended, hwritten⟩ := (Runs.invariant hfront).done hw
    have hreads : s.reader.closed = true ∧ reads rest = [] := by
      refine hrest.invariant (fun ds x => x.reader.closed = true ∧ reads ds = []) ⟨hclosed, rfl⟩
        fun hinv hstep => ?_
      obtain ⟨hclosed, hnil⟩ := Reader.closed_step hinv.1 hstep.2
      exact ⟨hclosed, by rw [reads_append, reads_singleton, hinv.2, hnil]; rfl⟩
    refine ⟨hended, ?_⟩
    rw [reads_append, show reads (.shutdown :: rest) = [] from hreads.2, List.append_nil]
    exact hwritten

/-- **The link loses, reorders and corrupts nothing.** -/
theorem lossless (hvalid : params.validate = .ok ()) (h : Runs params start es s) :
    (pushes es).Pairwise (fun p q => p.1 ≤ q.1) ∧
    List.Forall₂ (Carried params) ((reads es).take (pushes es).length) (pushes es) ∧
    (∀ time part, .write time part ∈ es → ∃ p ∈ pushes es, part <:+: p.2 ∧ p.1 ≤ time) ∧
    written es <+: bytes (reads es) ∧
    (bytes (pushes es)).length ≤ (written es).length + params.queueBytes ∧
    (s.WriterWaits → ¬s.ReaderWaits ∧ s.reader ≠ .returned ∧
      (s.queue ≠ [] → s.reader.Notifies)) ∧
    ∀ front rest, es = front ++ .shutdown :: rest →
      Ended front ∧ written front = bytes (reads es) := by
  have hinv := h.invariant
  refine ⟨hinv.scheduled.sorted, hinv.carried, hinv.punctual.write, hinv.written_prefix,
    hinv.length_pushes_le, fun hwaits => ?_, fun front rest => h.shutdown⟩
  obtain ⟨hreader, hreturned⟩ := hinv.no_deadlock (LinkParams.chunk_le hvalid) hwaits
  exact ⟨hreader, hreturned, fun hne => hinv.woken.waiting hne hwaits⟩

/-- A delay of one second and a bandwidth of 8 Mbit/s. -/
def testLink : LinkParams := ⟨1, some 8000000, 1 <<< 20⟩

/-- Two bytes and the end of the stream go over the link. -/
theorem testLink_runs : ∃ front s, Runs testLink 0 (front ++ [.shutdown]) s ∧
    bytes (reads (front ++ [.shutdown])) = [104, 105] := by
  have h : Runs testLink 0 [] (.start testLink 0) := .start
  replace h := h.snoc ⟨rfl, @Step.read _ [104, 105] rfl (List.cons_ne_nil _ _) (by decide)⟩
  replace h := h.snoc ⟨rfl, .acquire rfl (by decide)⟩
  replace h := h.snoc ⟨rfl, .schedule rfl⟩
  replace h := h.snoc ⟨rfl, .push rfl⟩
  replace h := h.snoc ⟨rfl, .notify rfl⟩
  replace h := h.snoc ⟨rfl, .pop rfl rfl⟩
  replace h := h.snoc ⟨rfl, @Step.tick _ 2 (by decide)⟩
  replace h := h.snoc ⟨rfl, .late rfl (by decide +kernel)⟩
  replace h := h.snoc ⟨rfl, @Step.write _ 2 [104, 105] [] rfl (List.cons_ne_nil _ _)⟩
  replace h := h.snoc ⟨rfl, .written rfl⟩
  replace h := h.snoc ⟨rfl, .readEnd rfl⟩
  replace h := h.snoc ⟨rfl, .schedule rfl⟩
  replace h := h.snoc ⟨rfl, .push rfl⟩
  replace h := h.snoc ⟨rfl, .notify rfl⟩
  replace h := h.snoc ⟨rfl, .pop rfl rfl⟩
  replace h := h.snoc ⟨rfl, @Step.tick _ 4 (by decide)⟩
  replace h := h.snoc ⟨rfl, .late rfl (by decide +kernel)⟩
  exact ⟨_, _, h.snoc ⟨rfl, .shutdown rfl⟩, rfl⟩

theorem lossless_testLink : ∃ front s, Runs testLink 0 (front ++ [.shutdown]) s ∧ Ended front ∧
    written front = [104, 105] := by
  obtain ⟨front, s, hrun, hread⟩ := testLink_runs
  obtain ⟨-, -, -, -, -, -, hshutdown⟩ := lossless (show testLink.validate = .ok () by decide) hrun
  obtain ⟨hended, hwritten⟩ := hshutdown front [] rfl
  exact ⟨front, s, hrun, hended, hwritten.trans hread⟩

end Netem

end Pprev
