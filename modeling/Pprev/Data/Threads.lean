import Mathlib.Data.List.Perm.Basic
import Mathlib.Logic.Relation

/-!
# Threads over a shared state

A pool of threads, each started for an input, whose actions read and change the shared state in any
order. A rely-guarantee rule says what a thread may find out and leave behind among the others, and
a rule for logs says that a log holds what the threads that have ended put there.
-/

namespace Threads

/-- A thread from here on: it has ended, or it reads and changes the state at one go. -/
inductive Code (σ α : Type) where
  | done (result : α)
  | act (upd : σ → σ) (next : σ → Code σ α)

namespace Code

variable {σ α β : Type}

/-- A thread that goes on with what another one found. -/
def bind : Code σ α → (α → Code σ β) → Code σ β
  | done a, f => f a
  | act upd next, f => act upd fun s => (next s).bind f

instance : Monad (Code σ) where
  pure := done
  bind := bind

@[simp] theorem pure_eq (a : α) : (pure a : Code σ α) = done a := rfl

@[simp] theorem done_bind (a : α) (f : α → Code σ β) : (done a >>= f) = f a := rfl

@[simp] theorem act_bind (upd : σ → σ) (next : σ → Code σ α) (f : α → Code σ β) :
    (act upd next >>= f) = act upd fun s => next s >>= f := rfl

/-- The state, read once. -/
def read : Code σ σ := act id done

/-- One change of the state. -/
def modify (upd : σ → σ) : Code σ Unit := act upd fun _ => done ()

end Code

structure Thread (ι σ α : Type) where
  input : ι
  code : Code σ α

/-- The shared state, and the threads in the order in which they were started. -/
structure Pool (ι σ α : Type) where
  shared : σ
  threads : List (Thread ι σ α)

variable {ι σ α β : Type}

/-- A thread is started, or one thread takes one action. -/
inductive Step (code : ι → Code σ α) : Pool ι σ α → Pool ι σ α → Prop where
  | start (s : σ) (ts : List (Thread ι σ α)) (i : ι) : Step code ⟨s, ts⟩ ⟨s, ts ++ [⟨i, code i⟩]⟩
  | act (s : σ) (before after : List (Thread ι σ α)) (i : ι) (upd : σ → σ)
      (next : σ → Code σ α) : Step code ⟨s, before ++ ⟨i, .act upd next⟩ :: after⟩
        ⟨upd s, before ++ ⟨i, next s⟩ :: after⟩

/-- A run of a pool. -/
abbrev Runs (code : ι → Code σ α) : Pool ι σ α → Pool ι σ α → Prop :=
  Relation.ReflTransGen (Step code)

/-! ## A thread on its own -/

/-- The result of a thread that no other one interrupts, and the state after it. -/
def Code.run : Code σ α → σ → α × σ
  | .done result, s => (result, s)
  | .act upd next, s => (next s).run (upd s)

theorem Code.run_bind (c : Code σ α) (f : α → Code σ β) (s : σ) :
    (c >>= f).run s = (f (c.run s).1).run (c.run s).2 := by
  induction c generalizing s with
  | done a => rfl
  | act upd next ih => exact ih s (upd s)

theorem Runs.last (code : ι → Code σ α) (ts : List (Thread ι σ α)) (i : ι) (c : Code σ α) (s : σ) :
    Runs code ⟨s, ts ++ [⟨i, c⟩]⟩ ⟨(c.run s).2, ts ++ [⟨i, .done (c.run s).1⟩]⟩ := by
  induction c generalizing s with
  | done a => exact .refl
  | act upd next ih => exact .head (.act s ts [] i upd next) (ih s (upd s))

/-- After any run a thread can be started and run to its end. -/
theorem Runs.next {code : ι → Code σ α} {p q : Pool ι σ α} (h : Runs code p q) {i : ι} {result : α}
    {s : σ} (hrun : (code i).run q.shared = (result, s)) :
    Runs code p ⟨s, q.threads ++ [⟨i, .done result⟩]⟩ := by
  have hlast := Runs.last code q.threads i (code i) q.shared
  rw [hrun] at hlast
  exact h.trans (.head (.start q.shared q.threads i) hlast)

/-- What all threads may know of: the inputs of those that were started, and the state. -/
structure World (ι σ : Type) where
  started : List ι
  shared : σ

namespace Pool

def world (p : Pool ι σ α) : World ι σ := ⟨p.threads.map Thread.input, p.shared⟩

/-- The thread that was started after `k` others has ended. -/
def Ended (p : Pool ι σ α) (k : ℕ) (i : ι) (result : α) : Prop :=
  p.threads[k]? = some ⟨i, .done result⟩

end Pool

/-! ## Rely and guarantee -/

section

variable (Inv : World ι σ → Prop) (Rely : World ι σ → World ι σ → Prop)

/-- A thread keeps the invariant and does to the world what others rely on, wherever they have
brought it, and its result satisfies `post`. -/
def Code.Keeps (post : World ι σ → α → Prop) : Code σ α → World ι σ → Prop
  | .done result, w => post w result
  | .act upd next, w => ∀ w', Rely w w' → Inv w' →
      Inv ⟨w'.started, upd w'.shared⟩ ∧ Rely w' ⟨w'.started, upd w'.shared⟩ ∧
        (next w'.shared).Keeps post ⟨w'.started, upd w'.shared⟩

/-- What makes the rule sound; `post k i` is about the thread that is started after `k` others for
the input `i`. -/
structure Discipline (code : ι → Code σ α) (post : ℕ → ι → World ι σ → α → Prop) : Prop where
  refl : ∀ w, Rely w w
  trans : ∀ {u v w}, Rely u v → Rely v w → Rely u w
  start : ∀ {w} i, Inv w → Inv ⟨w.started ++ [i], w.shared⟩ ∧ Rely w ⟨w.started ++ [i], w.shared⟩
  stable : ∀ {k i w w' result}, Rely w w' → post k i w result → post k i w' result
  keeps : ∀ {w} i, Inv w →
    (code i).Keeps Inv Rely (post w.started.length i) ⟨w.started ++ [i], w.shared⟩

/-- Every thread of a pool keeps the invariant, which holds. -/
structure Safe (post : ℕ → ι → World ι σ → α → Prop) (p : Pool ι σ α) : Prop where
  inv : Inv p.world
  keeps : ∀ {k : ℕ} {t : Thread ι σ α}, p.threads[k]? = some t →
    t.code.Keeps Inv Rely (post k t.input) p.world

end

section

variable {Inv : World ι σ → Prop} {Rely : World ι σ → World ι σ → Prop}

theorem Code.keeps_bind {c : Code σ α} {f : α → Code σ β} {post : World ι σ → β → Prop}
    {w : World ι σ} :
    (c >>= f).Keeps Inv Rely post w ↔
      c.Keeps Inv Rely (fun w a => (f a).Keeps Inv Rely post w) w := by
  induction c generalizing w with
  | done a => rfl
  | act upd next ih =>
    rw [act_bind]
    simp only [Code.Keeps, ih]

theorem Code.Keeps.imp {c : Code σ α} {post post' : World ι σ → α → Prop}
    (h : ∀ w a, post w a → post' w a) {w : World ι σ} (hc : c.Keeps Inv Rely post w) :
    c.Keeps Inv Rely post' w := by
  induction c generalizing w with
  | done a => exact h w a hc
  | act upd next ih =>
    intro w' hrely hinv
    obtain ⟨hinv', hrely', hnext⟩ := hc w' hrely hinv
    exact ⟨hinv', hrely', ih _ hnext⟩

namespace Discipline

variable {code : ι → Code σ α} {post : ℕ → ι → World ι σ → α → Prop}

/-- What a thread keeps it keeps after actions of the others. -/
theorem later (d : Discipline Inv Rely code post) {c : Code σ α} {k : ℕ} {i : ι} {w w' : World ι σ}
    (h : Rely w w') (hc : c.Keeps Inv Rely (post k i) w) : c.Keeps Inv Rely (post k i) w' := by
  cases c with
  | done a => exact d.stable h hc
  | act upd next => exact fun w'' hrely hinv => hc w'' (d.trans h hrely) hinv

theorem step (d : Discipline Inv Rely code post) {p q : Pool ι σ α} (h : Step code p q)
    (hp : Safe Inv Rely post p) : Safe Inv Rely post q ∧ Rely p.world q.world := by
  cases h with
  | start s ts i =>
    have hworld : (⟨s, ts ++ [⟨i, code i⟩]⟩ : Pool ι σ α).world =
        ⟨(⟨s, ts⟩ : Pool ι σ α).world.started ++ [i], s⟩ := by
      simp only [Pool.world, List.map_append, List.map_cons, List.map_nil]
    obtain ⟨hinv, hrely⟩ := d.start i hp.inv
    have hkeeps := d.keeps i hp.inv
    rw [hworld]
    refine ⟨⟨by rw [hworld]; exact hinv, fun {k t} hk => ?_⟩, hrely⟩
    rw [hworld]
    rcases Nat.lt_trichotomy k ts.length with hlt | rfl | hgt
    · rw [List.getElem?_append_left hlt] at hk
      exact d.later hrely (hp.keeps hk)
    · rw [List.getElem?_concat_length] at hk
      obtain rfl := Option.some.inj hk
      rw [show (⟨s, ts⟩ : Pool ι σ α).world.started.length = ts.length from
        List.length_map ..] at hkeeps
      exact hkeeps
    · rw [List.getElem?_eq_none (by rw [List.length_append, List.length_singleton]; omega)] at hk
      cases hk
  | act s before after i upd next =>
    have hself : (before ++ ⟨i, Code.act upd next⟩ :: after)[before.length]? =
        some ⟨i, .act upd next⟩ := by simp
    obtain ⟨hinv, hrely, hnext⟩ := hp.keeps hself _ (d.refl _) hp.inv
    have hworld : (⟨upd s, before ++ ⟨i, next s⟩ :: after⟩ : Pool ι σ α).world =
        ⟨(before ++ ⟨i, Code.act upd next⟩ :: after).map Thread.input, upd s⟩ := by
      simp only [Pool.world, List.map_append, List.map_cons]
    rw [hworld]
    refine ⟨⟨by rw [hworld]; exact hinv, fun {k t} hk => ?_⟩, hrely⟩
    rw [hworld]
    by_cases hself : k = before.length
    · subst hself
      rw [List.getElem?_append_right (Nat.le_refl _), Nat.sub_self] at hk
      obtain rfl := Option.some.inj hk
      exact hnext
    · -- the other threads stand where they stood
      have hsame : (before ++ ⟨i, next s⟩ :: after)[k]? =
          (before ++ ⟨i, Code.act upd next⟩ :: after)[k]? := by
        rcases Nat.lt_or_gt_of_ne hself with hlt | hgt
        · rw [List.getElem?_append_left hlt, List.getElem?_append_left hlt]
        · obtain ⟨j, hj⟩ := Nat.exists_eq_add_of_lt hgt
          rw [List.getElem?_append_right (by omega), List.getElem?_append_right (by omega),
            show k - before.length = j + 1 by omega, List.getElem?_cons_succ,
            List.getElem?_cons_succ]
      exact d.later hrely (hp.keeps (hsame ▸ hk))

theorem runs (d : Discipline Inv Rely code post) {p q : Pool ι σ α} (h : Runs code p q)
    (hp : Safe Inv Rely post p) : Safe Inv Rely post q ∧ Rely p.world q.world := by
  induction h with
  | refl => exact ⟨hp, d.refl _⟩
  | tail _ hstep ih =>
    obtain ⟨hsafe, hrely⟩ := d.step hstep ih.1
    exact ⟨hsafe, d.trans ih.2 hrely⟩

/-- From a pool without threads. -/
theorem safe (d : Discipline Inv Rely code post) {s : σ} (hinit : Inv ⟨[], s⟩) {p : Pool ι σ α}
    (h : Runs code ⟨s, []⟩ p) : Safe Inv Rely post p :=
  (d.runs h ⟨hinit, fun hk => by simp at hk⟩).1

end Discipline

theorem Safe.ended {post : ℕ → ι → World ι σ → α → Prop} {p : Pool ι σ α}
    (h : Safe Inv Rely post p) {k : ℕ} {i : ι} {result : α} (hk : p.Ended k i result) :
    post k i p.world result := h.keeps hk

/-- What was reached can be relied on, too. -/
theorem Code.Keeps.since (htrans : ∀ u v w : World ι σ, Rely u v → Rely v w → Rely u w)
    (w₀ : World ι σ) {c : Code σ α} {post : World ι σ → α → Prop} {w : World ι σ}
    (hc : c.Keeps Inv Rely post w) :
    c.Keeps (fun w => Inv w ∧ Rely w₀ w) Rely post w := by
  induction c generalizing w with
  | done a => exact hc
  | act upd next ih =>
    rintro w' hrely ⟨hinv, hsince⟩
    obtain ⟨hinv', hrely', hnext⟩ := hc w' hrely hinv
    exact ⟨⟨hinv', htrans _ _ _ hsince hrely'⟩, hrely', ih _ hnext⟩

end

/-! ## Logs -/

section

variable (log : σ → List β)

/-- A thread that leaves the log alone. -/
def Code.Silent : Code σ α → Prop
  | .done _ => True
  | .act upd next => ∀ s, log (upd s) = log s ∧ (next s).Silent

/-- A thread that ends in the action that logs what its result tells. -/
def Code.Logs (told : α → Option β) : Code σ α → Prop
  | .done result => told result = none
  | .act upd next => ∀ s, (log (upd s) = log s ∧ (next s).Logs told) ∨
      ∃ result, next s = .done result ∧ log (upd s) = log s ++ (told result).toList

/-- What a thread tells, once it has ended. -/
def Code.told (told : α → Option β) : Code σ α → Option β
  | .done result => told result
  | .act _ _ => none

/-- What the threads that have ended tell. -/
def Pool.told (told : ι → α → Option β) (p : Pool ι σ α) : List β :=
  p.threads.filterMap fun t => t.code.told (told t.input)

end

section

variable {log : σ → List β} {told : α → Option β}

theorem Code.Silent.bind {γ : Type} {c : Code σ γ} {f : γ → Code σ α} (hc : c.Silent log)
    (hf : ∀ a, (f a).Logs log told) : (c >>= f).Logs log told := by
  induction c with
  | done a => exact hf a
  | act upd next ih =>
    intro s
    exact .inl ⟨(hc s).1, ih s (hc s).2⟩

theorem Code.Logs.map {γ : Type} {told : γ → Option β} {c : Code σ α} {f : α → γ}
    (h : c.Logs log (told ∘ f)) : (c >>= fun a => done (f a)).Logs log told := by
  induction c with
  | done a => exact h
  | act upd next ih =>
    intro s
    rcases h s with ⟨hsame, hnext⟩ | ⟨result, hdone, hmore⟩
    · exact .inl ⟨hsame, ih s hnext⟩
    · refine .inr ⟨f result, ?_, hmore⟩
      show (next s >>= fun a => done (f a)) = _
      rw [hdone]
      rfl

theorem Code.Logs.told_eq {c : Code σ α} (h : c.Logs log told) : c.told told = none := by
  cases c with
  | done result => exact h
  | act upd next => rfl

/-- The log of a run is what was there at first and what the ended threads tell. -/
theorem Runs.logs {code : ι → Code σ α} {told : ι → α → Option β}
    (hcode : ∀ i, (code i).Logs log (told i)) {s : σ} {p : Pool ι σ α} (h : Runs code ⟨s, []⟩ p) :
    (log p.shared).Perm (log s ++ p.told told) := by
  suffices hall : (log p.shared).Perm (log s ++ p.told told) ∧ ∀ t ∈ p.threads,
      (∃ result, t.code = .done result) ∨ t.code.Logs log (told t.input) from hall.1
  induction h with
  | refl => exact ⟨by simp [Pool.told], fun t ht => by simp at ht⟩
  | tail _ hstep ih =>
    obtain ⟨hlog, hthreads⟩ := ih
    cases hstep with
    | start u ts i =>
      refine ⟨?_, fun t ht => ?_⟩
      · rw [Pool.told, List.filterMap_append]
        simp only [List.filterMap_cons, (hcode i).told_eq, List.filterMap_nil, List.append_nil]
        exact hlog
      · rcases List.mem_append.mp ht with ht | ht
        · exact hthreads t ht
        · obtain rfl := List.mem_singleton.mp ht
          exact .inr (hcode i)
    | act u before after i upd next =>
      have hself : (⟨i, .act upd next⟩ : Thread ι σ α) ∈ before ++ ⟨i, .act upd next⟩ :: after := by
        simp
      have hothers : ∀ t ∈ before ++ after,
          (∃ result, t.code = .done result) ∨ t.code.Logs log (told t.input) := fun t ht =>
        hthreads t (by
          rcases List.mem_append.mp ht with ht | ht
          · exact List.mem_append_left _ ht
          · exact List.mem_append_right _ (List.mem_cons_of_mem _ ht))
      simp only [Pool.told, List.filterMap_append, List.filterMap_cons] at hlog ⊢
      obtain ⟨_, hcontra⟩ | hlogs := hthreads _ hself
      · cases hcontra
      rcases hlogs u with ⟨hsame, hnext⟩ | ⟨result, hdone, hmore⟩
      · -- the action logs nothing
        refine ⟨by rw [hsame, hnext.told_eq]; exact hlog, fun t ht => ?_⟩
        rcases List.mem_append.mp ht with ht | ht
        · exact hothers t (List.mem_append_left _ ht)
        · rcases List.mem_cons.mp ht with rfl | ht
          · exact .inr hnext
          · exact hothers t (List.mem_append_right _ ht)
      · -- the last action of the thread
        refine ⟨?_, fun t ht => ?_⟩
        · rw [hmore, hdone]
          cases htold : told i result with
          | none =>
            rw [show (Code.done result : Code σ α).told (told i) = none from htold]
            rw [Option.toList_none, List.append_nil]
            exact hlog
          | some b =>
            rw [show (Code.done result : Code σ α).told (told i) = some b from htold]
            rw [Option.toList_some]
            have hmoved := (hlog.append_right [b]).trans (List.perm_append_singleton b _)
            refine hmoved.trans ?_
            rw [← List.append_assoc, ← List.append_assoc]
            exact List.perm_middle.symm
        · rcases List.mem_append.mp ht with ht | ht
          · exact hothers t (List.mem_append_left _ ht)
          · rcases List.mem_cons.mp ht with rfl | ht
            · exact .inl ⟨result, hdone⟩
            · exact hothers t (List.mem_append_right _ ht)

end

end Threads
