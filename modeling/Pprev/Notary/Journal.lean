import Pprev.Notary.Lines

/-!
# Crashes of the notary

The record over runs in which the process that holds it open stops or the machine crashes at any
point, and in which any write fails. A crash keeps what was synced and a part of what was written
after it. A nonce that was recorded is in every record that is read from then on, since nothing that
came before its line can make the line read as another nonce.
-/

namespace Pprev

open Evm

/-! ## Lines of a record -/

theorem splitLines_lines {content : Bytes} (h : Ended content) (etas : List Nonce) :
    splitLines (content ++ etas.flatMap nonceLine) =
      splitLines content ++ etas.map fun eta => Hex.encode eta.1 := by
  rw [h.splitLines_append]
  congr 1
  induction etas with
  | nil => rfl
  | cons eta etas ih =>
    rw [List.flatMap_cons, nonceLine, List.append_assoc, List.singleton_append,
      splitLines_newline (newline_notMem_encode eta), ih, List.map_cons]

/-- Lines appended at a line boundary read as their nonces. -/
theorem openRecord_lines {content : Bytes} {seen : Finset Nonce} (h : Ended content)
    (hopen : openRecord content = .ok seen) (etas : List Nonce) :
    openRecord (content ++ etas.flatMap nonceLine) = .ok (seen ∪ etas.toFinset) := by
  obtain ⟨old, hold, rfl⟩ := openRecord_eq_ok.mp hopen
  refine openRecord_eq_ok.mpr ⟨old ++ etas, ?_, by rw [List.toFinset_append]⟩
  rw [splitLines_lines h]
  refine List.rel_append hold ?_
  rw [List.forall₂_map_left_iff, List.forall₂_same]
  exact fun eta _ => isLine_encode eta

/-- The line of a nonce and what comes after it, behind any content. -/
theorem exists_splitLines_nonceLine (content : Bytes) (eta : Nonce) (more : Bytes) :
    ∃ l before, content = l ++ before ∧ Ended l ∧ 10 ∉ before ∧
      splitLines (content ++ nonceLine eta ++ more) =
        splitLines l ++ (before ++ Hex.encode eta.1) :: splitLines more := by
  obtain ⟨l, before, rfl, hl, hbefore⟩ := exists_ended content
  refine ⟨l, before, rfl, hl, hbefore, ?_⟩
  have hline : 10 ∉ before ++ Hex.encode eta.1 := by
    simp only [List.mem_append, not_or]
    exact ⟨hbefore, newline_notMem_encode eta⟩
  rw [show l ++ before ++ nonceLine eta ++ more = l ++ (before ++ Hex.encode eta.1 ++ 10 :: more) by
      simp [nonceLine], hl.splitLines_append, splitLines_newline hline]

theorem exists_isLine {content line : Bytes} {seen : Finset Nonce} (h : openRecord content = .ok seen)
    (hline : line ∈ splitLines content) : ∃ eta ∈ seen, IsLine line eta := by
  obtain ⟨etas, hetas, rfl⟩ := openRecord_eq_ok.mp h
  simp only [List.mem_toFinset]
  clear h
  generalize splitLines content = lines at hline hetas
  induction hetas with
  | nil => exact absurd hline List.not_mem_nil
  | @cons _ eta _ _ heta _ ih =>
    rcases List.mem_cons.mp hline with rfl | hline
    · exact ⟨eta, List.mem_cons_self, heta⟩
    · obtain ⟨eta', hmem, heta'⟩ := ih hline
      exact ⟨eta', List.mem_cons_of_mem _ hmem, heta'⟩

/-- A record with the line of a nonce in it cannot be read without the nonce. -/
theorem mem_of_openRecord {content more : Bytes} {eta : Nonce} {seen : Finset Nonce}
    (h : openRecord (content ++ nonceLine eta ++ more) = .ok seen) : eta ∈ seen := by
  obtain ⟨l, before, -, -, -, hsplit⟩ := exists_splitLines_nonceLine content eta more
  have hmem : before ++ Hex.encode eta.1 ∈ splitLines (content ++ nonceLine eta ++ more) := by
    rw [hsplit]
    exact List.mem_append_right _ List.mem_cons_self
  obtain ⟨n, hn, hline⟩ := exists_isLine h hmem
  rwa [← hline.of_append_encode.1]

/-! ## Appending -/

/-- Calls of `record` that return, one after another. -/
inductive Records : NonceStore → List Nonce → NonceStore → Prop
  | nil {store} : Records store [] store
  | cons {store eta writes next etas last} (h : store.record eta writes = (.ok (), next))
      (rest : Records next etas last) : Records store (eta :: etas) last

theorem Records.content {store last : NonceStore} {etas : List Nonce} (h : Records store etas last) :
    last.file.content = store.file.content ++ etas.flatMap nonceLine := by
  induction h with
  | nil => simp
  | cons hrecord _ ih =>
    obtain ⟨-, -, rfl⟩ := NonceStore.record_eq_ok.mp hrecord
    rw [ih, List.flatMap_cons, File.content, List.append_nil, List.append_assoc]

/-- A last line without its newline reads as a nonce and does not go on to read as another. -/
theorem ended_of_openRecord {content more : Bytes} {eta : Nonce} {seen out : Finset Nonce}
    (hopen : openRecord content = .ok seen)
    (h : openRecord (content ++ nonceLine eta ++ more) = .ok out) : Ended content := by
  obtain ⟨l, before, hcontent, hl, hbefore, hsplit⟩ := exists_splitLines_nonceLine content eta more
  rcases eq_or_ne before [] with rfl | hne
  · rwa [hcontent, List.append_nil]
  · have hline : before ∈ splitLines content := by
      rw [hcontent, hl.splitLines_append, splitLines_last hbefore hne]
      exact List.mem_append_right _ List.mem_cons_self
    have hlonger : before ++ Hex.encode eta.1 ∈ splitLines (content ++ nonceLine eta ++ more) := by
      rw [hsplit]
      exact List.mem_append_right _ List.mem_cons_self
    obtain ⟨n, -, hn⟩ := exists_isLine hopen hline
    obtain ⟨n', -, hn'⟩ := exists_isLine h hlonger
    exact absurd hn' hn.not_append_encode

/-- An accepted record is read again with the nonces recorded since if and only if it ended at a
line boundary or none was recorded. -/
theorem reopens {file : File} {seen : Finset Nonce} (hopen : openRecord file.content = .ok seen)
    {etas : List Nonce} {last : NonceStore} (h : Records ⟨file, seen⟩ etas last) :
    openRecord last.file.content = .ok (seen ∪ etas.toFinset) ↔
      Ended file.content ∨ etas = [] := by
  rw [h.content]
  constructor
  · intro hlast
    cases etas with
    | nil => exact .inr rfl
    | cons eta etas =>
      rw [List.flatMap_cons, ← List.append_assoc] at hlast
      exact .inl (ended_of_openRecord hopen hlast)
  · rintro (hended | rfl)
    · exact openRecord_lines hended hopen etas
    · simpa using hopen

/-! ## A crash between the writes of a line -/

namespace Vectors

def nonce (b : UInt8) : Nonce := ⟨List.replicate 32 b, List.length_replicate⟩

/-- The digits of a nonce are written and its newline is not. -/
def torn : File := ⟨[], Hex.encode (nonce 1).1⟩

end Vectors

open Vectors

theorem openRecord_torn : openRecord torn.content = .ok {nonce 1} := by
  refine openRecord_eq_ok.mpr ⟨[nonce 1], ?_, rfl⟩
  rw [show torn.content = Hex.encode (nonce 1).1 from rfl,
    splitLines_last (newline_notMem_encode _) (by decide)]
  exact .cons (isLine_encode _) .nil

/-- What the crash of a first record leaves is accepted; after one more record it cannot be read. -/
theorem torn_unreadable :
    (NonceStore.record ⟨⟨[], []⟩, ∅⟩ (nonce 1) (.failed 64)).2.file = torn ∧
      openRecord torn.content = .ok {nonce 1} ∧
      ∃ last, Records ⟨torn, {nonce 1}⟩ [nonce 2] last ∧
        ∀ seen, openRecord last.file.content ≠ .ok seen := by
  refine ⟨by decide, openRecord_torn, ⟨⟨torn.content ++ nonceLine (nonce 2), []⟩,
    insert (nonce 2) {nonce 1}⟩, ?_, ?_⟩
  · exact .cons (NonceStore.record_eq_ok.mpr ⟨by decide, rfl, rfl⟩) .nil
  · intro seen h
    have hended : ¬ Ended torn.content := by decide
    have hread : openRecord (torn.content ++ nonceLine (nonce 2) ++ []) = .ok seen := by
      rwa [List.append_nil]
    exact hended (ended_of_openRecord openRecord_torn hread)

theorem reopens_lines :
    openRecord (nonceLine (nonce 1) ++ nonceLine (nonce 2)) = .ok ({nonce 1} ∪ {nonce 2}) := by
  have hopen : openRecord (File.content ⟨nonceLine (nonce 1), []⟩) = .ok {nonce 1} := by
    rw [File.content, List.append_nil]
    exact openRecord_lines (.inl rfl) rfl [nonce 1]
  have hrecords : Records ⟨⟨nonceLine (nonce 1), []⟩, {nonce 1}⟩ [nonce 2]
      ⟨⟨nonceLine (nonce 1) ++ nonceLine (nonce 2), []⟩, insert (nonce 2) {nonce 1}⟩ :=
    .cons (NonceStore.record_eq_ok.mpr ⟨by decide, rfl, rfl⟩) .nil
  have h := (reopens hopen hrecords).mpr (.inl (.inr ⟨Hex.encode (nonce 1).1, rfl⟩))
  rwa [File.content, List.append_nil] at h

/-! ## Runs -/

/-- The file, and what the process that holds it open has in memory. -/
structure Journal where
  file : File
  process : Option (Finset Nonce)

/-- What a crash leaves of a file. -/
def File.crash (file : File) (kept : ℕ) : File :=
  { file with unsynced := file.unsynced.take kept }

inductive Event where
  | opened (seen : Finset Nonce)
  | refused (e : OpenError)
  | record (eta : Nonce) (result : Except RecordError Unit)
  | exit
  | crash

namespace Journal

inductive Step : Journal → Event → Journal → Prop
  | opened {file seen} (h : openRecord file.content = .ok seen) :
      Step ⟨file, none⟩ (.opened seen) ⟨file, some seen⟩
  | refused {file e} (h : openRecord file.content = .error e) :
      Step ⟨file, none⟩ (.refused e) ⟨file, none⟩
  | record {file seen eta writes result store}
      (h : NonceStore.record ⟨file, seen⟩ eta writes = (result, store)) :
      Step ⟨file, some seen⟩ (.record eta result) ⟨store.file, some store.seen⟩
  | exit {file seen} : Step ⟨file, some seen⟩ .exit ⟨file, none⟩
  | crash {file process} (kept : ℕ) : Step ⟨file, process⟩ .crash ⟨file.crash kept, none⟩

inductive Run : Journal → List Event → Journal → Prop
  | nil {journal} : Run journal [] journal
  | step {start events journal event next} (run : Run start events journal)
      (h : Step journal event next) : Run start (events ++ [event]) next

end Journal

/-- The nonces of the calls of `record` that returned. -/
def recorded (events : List Event) : List Nonce :=
  events.filterMap fun
    | .record eta (.ok ()) => some eta
    | _ => none

@[simp] theorem recorded_append (events events' : List Event) :
    recorded (events ++ events') = recorded events ++ recorded events' :=
  List.filterMap_append

/-- Every way to read on from what is synced finds the nonce. -/
def File.Durable (file : File) (eta : Nonce) : Prop :=
  ∀ more seen, openRecord (file.synced ++ more) = .ok seen → eta ∈ seen

structure Journal.Remembers (journal : Journal) (etas : List Nonce) : Prop where
  nodup : etas.Nodup
  durable : ∀ eta ∈ etas, journal.file.Durable eta
  process : ∀ seen, journal.process = some seen → ∀ eta ∈ etas, eta ∈ seen

namespace Journal.Remembers

/-- What is written and not synced does not matter. -/
theorem of_synced {journal next : Journal} {etas : List Nonce} (h : journal.Remembers etas)
    (hfile : next.file.synced = journal.file.synced)
    (hprocess : ∀ seen, next.process = some seen → ∀ eta ∈ etas, eta ∈ seen) :
    next.Remembers etas := by
  refine ⟨h.nodup, fun eta heta more seen hopen => ?_, hprocess⟩
  rw [hfile] at hopen
  exact h.durable eta heta more seen hopen

theorem recorded {file : File} {seen : Finset Nonce} {store : NonceStore} {etas : List Nonce}
    {eta : Nonce} {writes : Writes} (h : Remembers ⟨file, some seen⟩ etas)
    (hrecord : NonceStore.record ⟨file, seen⟩ eta writes = (.ok (), store)) :
    Remembers ⟨store.file, some store.seen⟩ (etas ++ [eta]) := by
  obtain ⟨hnew, -, rfl⟩ := NonceStore.record_eq_ok.mp hrecord
  have hseen := h.process seen rfl
  refine ⟨?_, ?_, ?_⟩
  · rw [List.nodup_append]
    refine ⟨h.nodup, List.nodup_singleton _, fun eta' heta' eta'' h' => ?_⟩
    rw [List.mem_singleton.mp h']
    rintro rfl
    exact hnew (hseen _ heta')
  · intro eta' heta' more seen' hopen
    rcases List.mem_append.mp heta' with heta' | heta'
    · refine h.durable eta' heta' (file.unsynced ++ nonceLine eta ++ more) seen' ?_
      rw [← hopen, File.content]
      simp only [List.append_assoc]
    · rw [List.mem_singleton.mp heta']
      exact mem_of_openRecord hopen
  · rintro _ ⟨⟩ eta' heta'
    rcases List.mem_append.mp heta' with heta' | heta'
    · exact Finset.mem_insert_of_mem (hseen _ heta')
    · rw [List.mem_singleton.mp heta']
      exact Finset.mem_insert_self _ _

theorem step {journal next : Journal} {event : Event} {etas : List Nonce}
    (h : journal.Remembers etas) (hstep : Step journal event next) :
    next.Remembers (etas ++ Pprev.recorded [event]) ∧
      ∀ seen, event = .opened seen → ∀ eta ∈ etas, eta ∈ seen := by
  cases hstep with
  | @opened file seen hopen =>
    have hseen : ∀ eta ∈ etas, eta ∈ seen := fun eta heta =>
      h.durable eta heta file.unsynced seen hopen
    refine ⟨?_, ?_⟩
    · simp only [Pprev.recorded, List.filterMap_cons, List.filterMap_nil, List.append_nil]
      exact h.of_synced rfl (by rintro _ ⟨⟩; exact hseen)
    · rintro _ ⟨⟩
      exact hseen
  | refused hopen =>
    refine ⟨?_, by rintro _ ⟨⟩⟩
    simpa [Pprev.recorded] using h
  | @record file seen eta writes result store hrecord =>
    refine ⟨?_, by rintro _ ⟨⟩⟩
    cases result with
    | ok _ => exact h.recorded hrecord
    | error e =>
      simp only [Pprev.recorded, List.filterMap_cons, List.filterMap_nil, List.append_nil]
      obtain hstore | ⟨more, hstore⟩ := NonceStore.record_eq_error hrecord <;> rw [hstore]
      · exact h
      · exact h.of_synced rfl h.process
  | exit =>
    refine ⟨?_, by rintro _ ⟨⟩⟩
    simp only [Pprev.recorded, List.filterMap_cons, List.filterMap_nil, List.append_nil]
    exact h.of_synced rfl (by rintro _ ⟨⟩)
  | crash kept =>
    refine ⟨?_, by rintro _ ⟨⟩⟩
    simp only [Pprev.recorded, List.filterMap_cons, List.filterMap_nil, List.append_nil]
    exact h.of_synced rfl (by rintro _ ⟨⟩)

theorem run {file : File} {events : List Event} {journal : Journal}
    (run : Run ⟨file, none⟩ events journal) :
    journal.Remembers (Pprev.recorded events) ∧
      ∀ before seen after, events = before ++ .opened seen :: after →
        ∀ eta ∈ Pprev.recorded before, eta ∈ seen := by
  induction run with
  | nil =>
    refine ⟨⟨List.nodup_nil, ?_, ?_⟩, ?_⟩
    · exact fun _ h => absurd h List.not_mem_nil
    · rintro _ ⟨⟩
    · intro before seen after h
      simp at h
  | @step events journal event next run hstep ih =>
    obtain ⟨hremembers, hopened⟩ := ih
    obtain ⟨hnext, hevent⟩ := hremembers.step hstep
    refine ⟨by rwa [recorded_append], fun before seen after h => ?_⟩
    -- the reading is the last event or an earlier one
    rcases List.eq_nil_or_concat' after with rfl | ⟨after, last, rfl⟩
    · obtain ⟨rfl, hlast⟩ := List.append_inj' h rfl
      exact hevent seen (List.cons.inj hlast).1
    · rw [← List.cons_append, ← List.append_assoc] at h
      exact hopened before seen after (List.append_inj' h rfl).1

end Journal.Remembers

/-- Over all restarts a nonce is recorded once, and a record that can be read has every nonce that
was recorded. -/
theorem recorded_once {file : File} {events : List Event} {journal : Journal}
    (run : Journal.Run ⟨file, none⟩ events journal) :
    (recorded events).Nodup ∧
      ∀ before seen after, events = before ++ .opened seen :: after →
        ∀ eta ∈ recorded before, eta ∈ seen := by
  obtain ⟨hremembers, hopened⟩ := Journal.Remembers.run run
  exact ⟨hremembers.nodup, hopened⟩

/-- A nonce is recorded, the record of another fails, and a crash leaves the digits of both. -/
theorem recorded_once_crash :
    let before := [.opened ∅, .record (nonce 2) (.ok ()), .record (nonce 1) (.error .appending),
      .crash]
    let seen : Finset Nonce := {nonce 2} ∪ {nonce 1}
    (∃ journal, Journal.Run ⟨⟨[], []⟩, none⟩ (before ++ [.opened seen]) journal) ∧
      (recorded (before ++ [.opened seen])).Nodup ∧ ∀ eta ∈ recorded before, eta ∈ seen := by
  intro before seen
  let left : File := ⟨nonceLine (nonce 2), Hex.encode (nonce 1).1⟩
  have hread : openRecord left.content = .ok seen := by
    refine openRecord_eq_ok.mpr ⟨[nonce 2, nonce 1], ?_, rfl⟩
    rw [show left.content = Hex.encode (nonce 2).1 ++ 10 :: Hex.encode (nonce 1).1 from rfl,
      splitLines_newline (newline_notMem_encode _),
      splitLines_last (newline_notMem_encode _) (by decide)]
    exact .cons (isLine_encode _) (.cons (isLine_encode _) .nil)
  have hopened : Journal.Step ⟨⟨[], []⟩, none⟩ (.opened ∅) ⟨⟨[], []⟩, some ∅⟩ := .opened rfl
  have hrecord : Journal.Step ⟨⟨[], []⟩, some ∅⟩ (.record (nonce 2) (.ok ()))
      ⟨⟨nonceLine (nonce 2), []⟩, some {nonce 2}⟩ :=
    .record (NonceStore.record_eq_ok.mpr ⟨Finset.notMem_empty _, rfl, rfl⟩)
  have hfailed : Journal.Step ⟨⟨nonceLine (nonce 2), []⟩, some {nonce 2}⟩
      (.record (nonce 1) (.error .appending)) ⟨left, some {nonce 2}⟩ := by
    have h : NonceStore.record ⟨⟨nonceLine (nonce 2), []⟩, {nonce 2}⟩ (nonce 1) (.failed 64) =
        (.error .appending, ⟨left, {nonce 2}⟩) := rfl
    exact .record h
  have hcrash : Journal.Step ⟨left, some {nonce 2}⟩ .crash ⟨left, none⟩ := .crash 64
  have run : Journal.Run ⟨⟨[], []⟩, none⟩ (before ++ [.opened seen]) ⟨left, some seen⟩ :=
    ((((Journal.Run.nil.step hopened).step hrecord).step hfailed).step hcrash).step (.opened hread)
  obtain ⟨hnodup, hseen⟩ := recorded_once run
  exact ⟨⟨_, run⟩, hnodup, hseen before seen [] rfl⟩

end Pprev
