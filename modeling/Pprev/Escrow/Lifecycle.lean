import Pprev.Escrow.Book
import Mathlib.Data.Fintype.Basic
import Mathlib.Data.Finset.Card
import Mathlib.Data.Set.Function

/-!
# The lifecycle of listings, applications and engagements

The links between the entries of a book (`Book.Valid`) are kept by every move, and every move takes
each entry along the edges of its status graph and leaves the rest of it alone (`Book.Evolves`).
-/

namespace Pprev

open Function Relation

/-! ## Tables of entries -/

section Tables

variable {ι α β : Type} [DecidableEq ι] {f : ι → α} {i : ι} {x y : α}

/-- An entry that changes otherwise than from or to `x` leaves the entries at `x` as they are. -/
theorem update_eq_iff (hi : f i ≠ x) (hy : y ≠ x) (j : ι) : update f i y j = x ↔ f j = x := by
  rcases eq_or_ne j i with rfl | hne
  · rw [update_self]
    exact iff_of_false hy hi
  · rw [update_of_ne hne]

/-- A new entry that is not at `x` leaves the others off `x`. -/
theorem update_ne (hy : y ≠ x) {j : ι} (hj : f j ≠ x) : update f i y j ≠ x := by
  rcases eq_or_ne j i with rfl | hne
  · rwa [update_self]
  · rwa [update_of_ne hne]

/-- An entry that moves along an edge moves along a path, and so does every other. -/
theorem path_update {r : α → α → Prop} (h : r (f i) y) (j : ι) :
    ReflTransGen r (f j) (update f i y j) := by
  rcases eq_or_ne j i with rfl | hne
  · rw [update_self]
    exact .single h
  · rw [update_of_ne hne]

/-- What is written for an absent entry leaves those that exist as they are. -/
theorem update_of_absent (h : f i = x) {g : ι → β} {v : β} (j : ι) (hj : f j ≠ x) :
    update g i v j = g j := by
  refine update_of_ne ?_ v g
  rintro rfl
  exact hj h

/-- The entries at `x` after one more is written. -/
theorem setOf_update_self : {j | update f i x j = x} = insert i {j | f j = x} := by
  ext j
  rcases eq_or_ne j i with rfl | hne
  · simp
  · simp [hne]

/-- The entries at `x` after one is taken away. -/
theorem setOf_update_of_ne (hy : y ≠ x) : {j | update f i y j = x} = {j | f j = x} \ {i} := by
  ext j
  rcases eq_or_ne j i with rfl | hne
  · simp [hy]
  · simp [hne]

end Tables

namespace Book

variable {T A E W : Type}

/-- Engagements of status `es` and listings of state `ts` go together, one for one. -/
structure OneEach (b : Book T A E W) (es : EngStatus) (ts : TxState) : Prop where
  state : ∀ e, b.engStatus e = es → b.txState (b.listing e) = ts
  eng : ∀ t, b.txState t = ts → ∃ e, b.engStatus e = es ∧ b.listing e = t
  unique : ∀ e e', b.engStatus e = es → b.engStatus e' = es → b.listing e = b.listing e' → e = e'

/-- Applications belong to listings of others, and engagements to engaged applications. -/
structure Linked (b : Book T A E W) : Prop where
  app_listing : ∀ a, b.appStatus a ≠ .none → b.txState (b.appTx a) ≠ .none
  app_owner : ∀ a, b.appStatus a ≠ .none → b.depositor a ≠ b.owner (b.appTx a)
  eng_app : ∀ e, b.engStatus e ≠ .none → b.appStatus (b.engApp e) = .engaged
  app_eng : ∀ a, b.appStatus a = .engaged → ∃ e, b.engStatus e ≠ .none ∧ b.engApp e = a
  eng_unique : ∀ e e', b.engStatus e ≠ .none → b.engStatus e' ≠ .none →
    b.engApp e = b.engApp e' → e = e'

/-- The times of the engagements. -/
structure Timed (p : Terms) (now : ℕ) (b : Book T A E W) : Prop where
  past : ∀ e, b.engStatus e = .expired → b.expiresAt e < now
  window : ∀ e, b.engStatus e ≠ .none → b.expiresAt e ≤ now + p.lock

/-- The collateral and the expirations of a listing agree with its state. -/
structure Tallied (p : Terms) (b : Book T A E W) : Prop where
  closed : ∀ t, b.txState t = .settled ∨ b.txState t = .cancelled → b.collateral t = 0
  active : ∀ t, b.txState t = .active → b.expirations t = 0
  expired : ∀ t, b.txState t = .expired → 1 ≤ b.expirations t
  bounded : ∀ t, b.txState t = .active ∨ b.txState t = .expired ∨ b.txState t = .locked ∨
    b.txState t = .settled → b.expirations t < p.maxExpirations

/-- The expired engagements of a listing. -/
def expiredOf [Fintype E] [DecidableEq T] (b : Book T A E W) (t : T) : Finset E :=
  Finset.univ.filter fun e => b.engStatus e = .expired ∧ b.listing e = t

/-- What holds of every book that grew from the empty one. -/
structure Valid [Fintype E] [DecidableEq T] (p : Terms) (now : ℕ) (b : Book T A E W) : Prop where
  linked : b.Linked
  locked : b.OneEach .open .locked
  settled : b.OneEach .settled .settled
  timed : b.Timed p now
  tallied : b.Tallied p
  counted : ∀ t, b.expirations t = (b.expiredOf t).card

/-- Every entry moves along its status graph and keeps its other fields. -/
structure Evolves (b b' : Book T A E W) : Prop where
  txState : ∀ t, ReflTransGen TxState.Step (b.txState t) (b'.txState t)
  owner : ∀ t, b.txState t ≠ .none → b'.owner t = b.owner t
  appStatus : ∀ a, ReflTransGen AppStatus.Step (b.appStatus a) (b'.appStatus a)
  appTx : ∀ a, b.appStatus a ≠ .none → b'.appTx a = b.appTx a
  depositor : ∀ a, b.appStatus a ≠ .none → b'.depositor a = b.depositor a
  deposit : ∀ a, b.appStatus a ≠ .none → b'.deposit a = b.deposit a
  engStatus : ∀ e, ReflTransGen EngStatus.Step (b.engStatus e) (b'.engStatus e)
  engApp : ∀ e, b.engStatus e ≠ .none → b'.engApp e = b.engApp e
  expiresAt : ∀ e, b.engStatus e ≠ .none → b'.expiresAt e = b.expiresAt e

theorem Evolves.refl (b : Book T A E W) : b.Evolves b :=
  ⟨fun _ => .refl, fun _ _ => rfl, fun _ => .refl, fun _ _ => rfl, fun _ _ => rfl, fun _ _ => rfl,
    fun _ => .refl, fun _ _ => rfl, fun _ _ => rfl⟩

section

variable [Fintype E] [DecidableEq T] {p : Terms} {now : ℕ} {b b' : Book T A E W}

omit [Fintype E] [DecidableEq T] in
theorem OneEach.iff_existsUnique {es : EngStatus} {ts : TxState} (h : b.OneEach es ts) (t : T) :
    b.txState t = ts ↔ ∃! e, b.engStatus e = es ∧ b.listing e = t := by
  constructor
  · intro ht
    obtain ⟨e, he, hl⟩ := h.eng t ht
    exact ⟨e, ⟨he, hl⟩, fun e' he' => h.unique e' e he'.1 he (he'.2.trans hl.symm)⟩
  · rintro ⟨e, ⟨he, rfl⟩, -⟩
    exact h.state e he

/-- In a book whose entries are linked only an open engagement can be settled. -/
theorem Valid.open_of_locked (h : b.Valid p now) {e : E} (known : b.engStatus e ≠ .none)
    (locked : b.txState (b.listing e) = .locked) (window : now ≤ b.expiresAt e) :
    b.engStatus e = .open := by
  cases he : b.engStatus e with
  | none => exact absurd he known
  | «open» => rfl
  | settled =>
    have := h.settled.state e he
    rw [locked] at this
    cases this
  | expired =>
    have := h.timed.past e he
    omega

/-- The expired engagements of a listing depend only on who is expired where. -/
theorem card_expiredOf_congr {t : T}
    (h : ∀ e, b'.engStatus e = .expired ∧ b'.listing e = t ↔
      b.engStatus e = .expired ∧ b.listing e = t) :
    (b'.expiredOf t).card = (b.expiredOf t).card :=
  congrArg Finset.card (Finset.filter_congr fun e _ => h e)

/-- An expiration adds one expired engagement to its listing. -/
theorem card_expiredOf_expire [DecidableEq E] {e : E} (he : b.engStatus e = .open) (next : TxState)
    (left : ℕ) (t : T) : ((b.expire e next left).expiredOf t).card =
      if t = b.listing e then (b.expiredOf t).card + 1 else (b.expiredOf t).card := by
  split_ifs with ht
  · have hnot : e ∉ b.expiredOf t := by
      simp [expiredOf, he]
    rw [← Finset.card_insert_of_notMem hnot]
    congr 1
    ext e'
    simp only [expiredOf, expire, listing, update_apply, Finset.mem_filter, Finset.mem_univ,
      true_and, Finset.mem_insert] at ht ⊢
    grind
  · refine card_expiredOf_congr fun e' => ?_
    simp only [expire, listing, update_apply] at ht ⊢
    grind

/-- Time may pass. -/
theorem Valid.mono {later : ℕ} (h : b.Valid p now) (hle : now ≤ later) : b.Valid p later :=
  { h with
    timed := ⟨fun e he => (h.timed.past e he).trans_le hle,
      fun e he => (h.timed.window e he).trans (Nat.add_le_add_right hle _)⟩ }

end

/-! ## The links between the entries -/

section

variable {b b' : Book T A E W}

/-- An engagement that exists is of an engaged application. -/
theorem Linked.engApp_ne (h : b.Linked) {a : A} {e : E} (ha : b.appStatus a ≠ .engaged)
    (he : b.engStatus e ≠ .none) : b.engApp e ≠ a := by
  rintro rfl
  exact ha (h.eng_app e he)

/-- Links depend on which entries exist and on which applications are engaged. -/
theorem Linked.of_same (h : b.Linked) (howner : b'.owner = b.owner) (hTx : b'.appTx = b.appTx)
    (hdepositor : b'.depositor = b.depositor) (hApp : b'.engApp = b.engApp)
    (htx : ∀ t, b.txState t ≠ .none → b'.txState t ≠ .none)
    (happ : ∀ a, b'.appStatus a = .none ↔ b.appStatus a = .none)
    (hengaged : ∀ a, b'.appStatus a = .engaged ↔ b.appStatus a = .engaged)
    (heng : ∀ e, b'.engStatus e = .none ↔ b.engStatus e = .none) : b'.Linked where
  app_listing a ha := by
    rw [hTx]
    exact htx _ (h.app_listing a ((happ a).not.mp ha))
  app_owner a ha := by
    rw [hTx, hdepositor, howner]
    exact h.app_owner a ((happ a).not.mp ha)
  eng_app e he := by
    rw [hApp, hengaged]
    exact h.eng_app e ((heng e).not.mp he)
  app_eng a ha := by
    obtain ⟨e, he, hea⟩ := h.app_eng a ((hengaged a).mp ha)
    exact ⟨e, (heng e).not.mpr he, hApp ▸ hea⟩
  eng_unique e e' he he' hsame := by
    rw [hApp] at hsame
    exact h.eng_unique e e' ((heng e).not.mp he) ((heng e').not.mp he') hsame

theorem Linked.register [DecidableEq T] (h : b.Linked) {t : T} (fresh : b.txState t = .none)
    (w : W) (c : ℕ) : (b.register t w c).Linked := by
  -- no application is for a listing that is absent
  have hne (a : A) (ha : b.appStatus a ≠ .none) : b.appTx a ≠ t := by
    rintro rfl
    exact h.app_listing a ha fresh
  refine { h with app_listing := fun a ha => ?_, app_owner := fun a ha => ?_ }
  · show update b.txState t .active (b.appTx a) ≠ .none
    rw [update_of_ne (hne a ha)]
    exact h.app_listing a ha
  · show b.depositor a ≠ update b.owner t w (b.appTx a)
    rw [update_of_ne (hne a ha)]
    exact h.app_owner a ha

theorem Linked.apply [DecidableEq A] (h : b.Linked) {a : A} {t : T} {w : W} (v : ℕ)
    (fresh : b.appStatus a = .none) (present : b.txState t ≠ .none) (owner : w ≠ b.owner t) :
    (b.apply a t w v).Linked := by
  have hengaged : ∀ a', (b.apply a t w v).appStatus a' = .engaged ↔ b.appStatus a' = .engaged :=
    update_eq_iff (by rw [fresh]; decide) (by decide)
  have hold (a' : A) (hne : a' ≠ a) : (b.apply a t w v).appStatus a' = b.appStatus a' ∧
      (b.apply a t w v).appTx a' = b.appTx a' ∧ (b.apply a t w v).depositor a' = b.depositor a' :=
    ⟨update_of_ne hne _ _, update_of_ne hne _ _, update_of_ne hne _ _⟩
  have hnew : (b.apply a t w v).appTx a = t ∧ (b.apply a t w v).depositor a = w :=
    ⟨update_self .., update_self ..⟩
  constructor
  case app_listing =>
    intro a' ha'
    show b.txState _ ≠ .none
    rcases eq_or_ne a' a with rfl | hne
    · rwa [hnew.1]
    · rw [(hold a' hne).1] at ha'
      rw [(hold a' hne).2.1]
      exact h.app_listing a' ha'
  case app_owner =>
    intro a' ha'
    show _ ≠ b.owner _
    rcases eq_or_ne a' a with rfl | hne
    · rwa [hnew.1, hnew.2]
    · rw [(hold a' hne).1] at ha'
      rw [(hold a' hne).2.1, (hold a' hne).2.2]
      exact h.app_owner a' ha'
  case eng_app => exact fun e he => (hengaged _).mpr (h.eng_app e he)
  case app_eng => exact fun a' ha' => h.app_eng a' ((hengaged a').mp ha')
  case eng_unique => exact h.eng_unique

theorem Linked.engage [DecidableEq T] [DecidableEq A] [DecidableEq E] (h : b.Linked) {e : E}
    {a : A} (until_ : ℕ) (fresh : b.engStatus e = .none) (pending : b.appStatus a = .pending) :
    (b.engage e a until_).Linked := by
  have happ : ∀ a', update b.appStatus a .engaged a' = .none ↔ b.appStatus a' = .none :=
    update_eq_iff (by rw [pending]; decide) (by decide)
  have hother (e' : E) (he' : b.engStatus e' ≠ .none) : b.engApp e' ≠ a :=
    h.engApp_ne (by rw [pending]; decide) he'
  have hold (e' : E) (hne : e' ≠ e) : (b.engage e a until_).engStatus e' = b.engStatus e' ∧
      (b.engage e a until_).engApp e' = b.engApp e' :=
    ⟨update_of_ne hne _ _, update_of_ne hne _ _⟩
  have hnew : (b.engage e a until_).engApp e = a := update_self ..
  have hstatus : (b.engage e a until_).engStatus e = .open := update_self ..
  constructor
  case app_listing =>
    intro a' ha'
    exact update_ne (by decide) (h.app_listing a' ((happ a').not.mp ha'))
  case app_owner => exact fun a' ha' => h.app_owner a' ((happ a').not.mp ha')
  case eng_app =>
    intro e' he'
    show update b.appStatus a .engaged _ = .engaged
    rcases eq_or_ne e' e with rfl | hne
    · rw [hnew, update_self]
    · rw [(hold e' hne).1] at he'
      rw [(hold e' hne).2, update_of_ne (hother e' he')]
      exact h.eng_app e' he'
  case app_eng =>
    intro a' ha'
    rcases eq_or_ne a' a with rfl | hne
    · exact ⟨e, by rw [hstatus]; decide, hnew⟩
    · have hengaged : b.appStatus a' = .engaged := (update_of_ne hne _ _).symm.trans ha'
      obtain ⟨e', he', rfl⟩ := h.app_eng a' hengaged
      have hee : e' ≠ e := by
        rintro rfl
        exact he' fresh
      exact ⟨e', by rwa [(hold e' hee).1], (hold e' hee).2⟩
  case eng_unique =>
    intro e₁ e₂ he₁ he₂ hsame
    rcases eq_or_ne e₁ e with heq₁ | hne₁ <;> rcases eq_or_ne e₂ e with heq₂ | hne₂
    · exact heq₁.trans heq₂.symm
    · rw [(hold e₂ hne₂).1] at he₂
      rw [heq₁, hnew, (hold e₂ hne₂).2] at hsame
      exact absurd hsame.symm (hother e₂ he₂)
    · rw [(hold e₁ hne₁).1] at he₁
      rw [heq₂, hnew, (hold e₁ hne₁).2] at hsame
      exact absurd hsame (hother e₁ he₁)
    · rw [(hold e₁ hne₁).1] at he₁
      rw [(hold e₂ hne₂).1] at he₂
      rw [(hold e₁ hne₁).2, (hold e₂ hne₂).2] at hsame
      exact h.eng_unique e₁ e₂ he₁ he₂ hsame

end

/-! ## Engagements and listings that go together -/

section

variable {b b' : Book T A E W} {es : EngStatus} {ts : TxState}

theorem oneEach_iff : b.OneEach es ts ↔
    Set.BijOn b.listing {e | b.engStatus e = es} {t | b.txState t = ts} :=
  ⟨fun h => ⟨h.state, fun e he e' he' hl => h.unique e e' he he' hl, h.eng⟩,
    fun h => ⟨h.mapsTo, fun _ ht => h.surjOn ht, fun _ _ he he' hl => h.injOn he he' hl⟩⟩

theorem OneEach.of_same (h : b.OneEach es ts) (heng : ∀ e, b'.engStatus e = es ↔ b.engStatus e = es)
    (htx : ∀ t, b'.txState t = ts ↔ b.txState t = ts)
    (hlisting : ∀ e, b.engStatus e = es → b'.listing e = b.listing e) : b'.OneEach es ts := by
  rw [oneEach_iff, show {e | b'.engStatus e = es} = {e | b.engStatus e = es} from Set.ext heng,
    show {t | b'.txState t = ts} = {t | b.txState t = ts} from Set.ext htx]
  exact (oneEach_iff.mp h).congr fun e he => (hlisting e he).symm

variable [DecidableEq E] [DecidableEq T] {e : E}

/-- An engagement and a listing come to go together. -/
theorem OneEach.add {t : T} (h : b.OneEach es ts) (he : b.engStatus e ≠ es) (ht : b.txState t ≠ ts)
    (heng : b'.engStatus = update b.engStatus e es) (htx : b'.txState = update b.txState t ts)
    (hlisting : b'.listing e = t) (hother : ∀ e', e' ≠ e → b'.listing e' = b.listing e') :
    b'.OneEach es ts := by
  rw [oneEach_iff, heng, htx, setOf_update_self, setOf_update_self, ← hlisting]
  have hold : Set.BijOn b'.listing {e | b.engStatus e = es} {t | b.txState t = ts} := by
    refine (oneEach_iff.mp h).congr fun e' he' => (hother e' ?_).symm
    rintro rfl
    exact he he'
  exact hold.insert (hlisting ▸ ht)

/-- An engagement that ends takes its listing with it. -/
theorem OneEach.remove (h : b.OneEach es ts) (he : b.engStatus e = es) {x : EngStatus} {y : TxState}
    (heng : b'.engStatus = update b.engStatus e x)
    (htx : b'.txState = update b.txState (b.listing e) y) (hx : x ≠ es) (hy : y ≠ ts)
    (hlisting : ∀ e', b'.listing e' = b.listing e') : b'.OneEach es ts := by
  rw [oneEach_iff, heng, htx, setOf_update_of_ne hx, setOf_update_of_ne hy, funext hlisting]
  exact (oneEach_iff.mp h).sdiff_singleton he

end

/-! ## Times and tallies -/

section

variable {p : Terms} {now : ℕ} {b b' : Book T A E W}

theorem Timed.update [DecidableEq E] (h : b.Timed p now) {e : E} {x : EngStatus} {v : ℕ}
    (heng : b'.engStatus = update b.engStatus e x) (htime : b'.expiresAt = update b.expiresAt e v)
    (hpast : x = .expired → v < now) (hwindow : v ≤ now + p.lock) : b'.Timed p now := by
  constructor <;> intro e' he' <;> rw [heng] at he' <;> rw [htime] <;>
    rcases eq_or_ne e' e with rfl | hne
  case past.inl =>
    rw [update_self] at he' ⊢
    exact hpast he'
  case past.inr =>
    rw [update_of_ne hne] at he' ⊢
    exact h.past e' he'
  case window.inl => rwa [update_self]
  case window.inr =>
    rw [update_of_ne hne] at he' ⊢
    exact h.window e' he'

/-- What the state of a listing says of its collateral and its expirations. -/
structure Standing (p : Terms) (state : TxState) (collateral expirations : ℕ) : Prop where
  closed : state = .settled ∨ state = .cancelled → collateral = 0
  active : state = .active → expirations = 0
  expired : state = .expired → 1 ≤ expirations
  bounded : state = .active ∨ state = .expired ∨ state = .locked ∨ state = .settled →
    expirations < p.maxExpirations

theorem tallied_iff :
    b.Tallied p ↔ ∀ t, Standing p (b.txState t) (b.collateral t) (b.expirations t) :=
  ⟨fun h t => ⟨h.closed t, h.active t, h.expired t, h.bounded t⟩,
    fun h => ⟨fun t => (h t).closed, fun t => (h t).active, fun t => (h t).expired,
      fun t => (h t).bounded⟩⟩

theorem Tallied.update [DecidableEq T] (h : b.Tallied p) {t : T} {x : TxState} {c n : ℕ}
    (htx : b'.txState = update b.txState t x) (hc : b'.collateral = update b.collateral t c)
    (hn : b'.expirations = update b.expirations t n) (hnew : Standing p x c n) : b'.Tallied p := by
  refine tallied_iff.mpr fun t' => ?_
  rw [htx, hc, hn]
  rcases eq_or_ne t' t with rfl | hne
  · rwa [update_self, update_self, update_self]
  · rw [update_of_ne hne, update_of_ne hne, update_of_ne hne]
    exact tallied_iff.mp h t'

end

/-! ## Preservation -/

section

variable [DecidableEq T] [DecidableEq A] [DecidableEq E] [DecidableEq W] {p : Terms} {now : ℕ}
  {b b' : Book T A E W}

theorem Linked.step (h : b.Linked) (hs : b.Step p now b') : b'.Linked := by
  cases hs with
  | register t w c fresh => exact h.register fresh w c
  | apply a t w v fresh isOpen owner alone =>
    exact h.apply v fresh (isOpen.ne (by decide) (by decide)) owner
  | engage e a fresh pending isOpen => exact h.engage _ fresh pending
  | settle e known locked window =>
    exact h.of_same rfl rfl rfl rfl (fun _ => update_ne (by decide)) (fun _ => .rfl)
      (fun _ => .rfl) (update_eq_iff known (by decide))
  | expire e isOpen locked window more =>
    exact h.of_same rfl rfl rfl rfl (fun _ => update_ne (by decide)) (fun _ => .rfl)
      (fun _ => .rfl) (update_eq_iff (by rw [isOpen]; decide) (by decide))
  | exhaust e isOpen locked window last =>
    exact h.of_same rfl rfl rfl rfl (fun _ => update_ne (by decide)) (fun _ => .rfl)
      (fun _ => .rfl) (update_eq_iff (by rw [isOpen]; decide) (by decide))
  | reclaim a pending =>
    exact h.of_same rfl rfl rfl rfl (fun _ => id)
      (update_eq_iff (by rw [pending]; decide) (by decide))
      (update_eq_iff (by rw [pending]; decide) (by decide)) (fun _ => .rfl)
  | cancel t state =>
    exact h.of_same rfl rfl rfl rfl (fun _ => update_ne (by decide)) (fun _ => .rfl)
      (fun _ => .rfl) (fun _ => .rfl)
  | addCredit w v => exact { h with }
  | withdraw w => exact { h with }

theorem step_locked [Fintype E] (h : b.Valid p now) (hs : b.Step p now b') :
    b'.OneEach .open .locked := by
  have hone := h.locked
  cases hs with
  | register t w c fresh =>
    exact hone.of_same (fun _ => .rfl) (update_eq_iff (by rw [fresh]; decide) (by decide))
      fun _ _ => rfl
  | apply a t w v fresh isOpen owner alone =>
    refine hone.of_same (fun _ => .rfl) (fun _ => .rfl) fun e he => ?_
    exact update_of_ne (h.linked.engApp_ne (by rw [fresh]; decide) (by rw [he]; decide)) _ _
  | engage e a fresh pending isOpen =>
    have hunlocked : b.txState (b.appTx a) ≠ .locked := isOpen.ne (by decide) (by decide)
    refine hone.add (e := e) (by rw [fresh]; decide) hunlocked rfl rfl ?_ fun e' he' => ?_
    · exact congrArg b.appTx (update_self ..)
    · exact congrArg b.appTx (update_of_ne he' _ _)
  | settle e known locked window =>
    have hopen := h.open_of_locked known locked window
    exact hone.remove hopen rfl rfl (by decide) (by decide) fun _ => rfl
  | expire e isOpen locked window more =>
    exact hone.remove isOpen rfl rfl (by decide) (by decide) fun _ => rfl
  | exhaust e isOpen locked window last =>
    exact hone.remove isOpen rfl rfl (by decide) (by decide) fun _ => rfl
  | reclaim a pending => exact { hone with }
  | cancel t state =>
    refine hone.of_same (fun _ => .rfl) (update_eq_iff ?_ (by decide)) fun _ _ => rfl
    rcases state with state | state <;> rw [state] <;> decide
  | addCredit w v => exact { hone with }
  | withdraw w => exact { hone with }

theorem step_settled [Fintype E] (h : b.Valid p now) (hs : b.Step p now b') :
    b'.OneEach .settled .settled := by
  have hone := h.settled
  cases hs with
  | register t w c fresh =>
    exact hone.of_same (fun _ => .rfl) (update_eq_iff (by rw [fresh]; decide) (by decide))
      fun _ _ => rfl
  | apply a t w v fresh isOpen owner alone =>
    refine hone.of_same (fun _ => .rfl) (fun _ => .rfl) fun e he => ?_
    exact update_of_ne (h.linked.engApp_ne (by rw [fresh]; decide) (by rw [he]; decide)) _ _
  | engage e a fresh pending isOpen =>
    refine hone.of_same (update_eq_iff (by rw [fresh]; decide) (by decide))
      (update_eq_iff (isOpen.ne (by decide) (by decide)) (by decide)) fun e' he' => ?_
    have hne : e' ≠ e := by
      rintro rfl
      cases fresh.symm.trans he'
    exact congrArg b.appTx (update_of_ne hne _ _)
  | settle e known locked window =>
    have hopen := h.open_of_locked known locked window
    exact hone.add (e := e) (by rw [hopen]; decide) (by rw [locked]; decide) rfl rfl rfl
      fun _ _ => rfl
  | expire e isOpen locked window more =>
    exact hone.of_same (update_eq_iff (by rw [isOpen]; decide) (by decide))
      (update_eq_iff (by rw [locked]; decide) (by decide)) fun _ _ => rfl
  | exhaust e isOpen locked window last =>
    exact hone.of_same (update_eq_iff (by rw [isOpen]; decide) (by decide))
      (update_eq_iff (by rw [locked]; decide) (by decide)) fun _ _ => rfl
  | reclaim a pending => exact { hone with }
  | cancel t state =>
    refine hone.of_same (fun _ => .rfl) (update_eq_iff ?_ (by decide)) fun _ _ => rfl
    rcases state with state | state <;> rw [state] <;> decide
  | addCredit w v => exact { hone with }
  | withdraw w => exact { hone with }

theorem Timed.step (h : b.Timed p now) (hs : b.Step p now b') : b'.Timed p now := by
  cases hs with
  | engage e a fresh pending isOpen => exact h.update rfl rfl nofun le_rfl
  | settle e known locked window =>
    exact h.update rfl (update_eq_self e _).symm nofun (h.window e known)
  | expire e isOpen locked window more =>
    have hknown : b.engStatus e ≠ .none := by rw [isOpen]; decide
    exact h.update rfl (update_eq_self e _).symm (fun _ => window) (h.window e hknown)
  | exhaust e isOpen locked window last =>
    have hknown : b.engStatus e ≠ .none := by rw [isOpen]; decide
    exact h.update rfl (update_eq_self e _).symm (fun _ => window) (h.window e hknown)
  | _ => exact { h with }

theorem Tallied.step (h : b.Tallied p) (hp : 0 < p.maxExpirations) (hs : b.Step p now b') :
    b'.Tallied p := by
  cases hs with
  | register t w c fresh => exact h.update rfl rfl rfl ⟨by simp, fun _ => rfl, nofun, fun _ => hp⟩
  | engage e a fresh pending isOpen =>
    exact h.update rfl (update_eq_self _ _).symm (update_eq_self _ _).symm
      ⟨by simp, nofun, nofun, fun _ => isOpen.2⟩
  | settle e known locked window =>
    have hlt := h.bounded _ (.inr (.inr (.inl locked)))
    exact h.update rfl rfl (update_eq_self _ _).symm ⟨fun _ => rfl, nofun, nofun, fun _ => hlt⟩
  | expire e isOpen locked window more =>
    have hlt := h.bounded _ (.inr (.inr (.inl locked)))
    exact h.update rfl rfl rfl ⟨by simp, nofun, fun _ => by omega, fun _ => by omega⟩
  | exhaust e isOpen locked window last =>
    exact h.update rfl rfl rfl ⟨fun _ => rfl, nofun, nofun, by simp⟩
  | cancel t state =>
    exact h.update rfl rfl (update_eq_self _ _).symm ⟨fun _ => rfl, nofun, nofun, by simp⟩
  | _ => exact { h with }

theorem step_counted [Fintype E] (h : b.Valid p now) (hs : b.Step p now b') (t : T) :
    b'.expirations t = (b'.expiredOf t).card := by
  have ht := h.counted t
  have h₁ := h.linked.app_listing
  have h₃ := h.linked.eng_app
  cases hs with
  | expire e isOpen locked window more =>
    rw [card_expiredOf_expire isOpen, ← ht]
    simp only [expire, update_apply]
    grind
  | exhaust e isOpen locked window last =>
    rw [card_expiredOf_expire isOpen, ← ht]
    simp only [expire, update_apply]
    grind
  | register t' w c fresh =>
    -- a listing that was absent has no engagements
    have habsent : t = t' → (b.expiredOf t).card = 0 := by
      rintro rfl
      simp only [expiredOf, Finset.card_eq_zero, listing]
      grind
    have hsame : ((b.register t' w c).expiredOf t).card = (b.expiredOf t).card :=
      card_expiredOf_congr fun e => Iff.rfl
    rw [hsame]
    simp only [register, update_apply]
    grind
  | apply a t' w v fresh isOpen owner alone =>
    refine ht.trans (card_expiredOf_congr fun e => ?_).symm
    simp only [apply, listing, update_apply]
    grind
  | engage e a fresh pending isOpen =>
    refine ht.trans (card_expiredOf_congr fun e' => ?_).symm
    simp only [engage, listing, update_apply]
    grind
  | settle e known locked window =>
    have hopen := h.open_of_locked known locked window
    refine ht.trans (card_expiredOf_congr fun e' => ?_).symm
    simp only [settle, listing, update_apply]
    grind
  | reclaim a pending => exact ht
  | cancel t' state => exact ht
  | addCredit w v => exact ht
  | withdraw w => exact ht

/-- **Lifecycle.** Every move keeps the entries of a book linked. -/
theorem Valid.step [Fintype E] (hp : 0 < p.maxExpirations) (h : b.Valid p now)
    (hs : b.Step p now b') : b'.Valid p now :=
  ⟨h.linked.step hs, step_locked h hs, step_settled h hs, h.timed.step hs, h.tallied.step hp hs,
    step_counted h hs⟩

/-- Every move takes the entries along their status graphs. -/
theorem Valid.step_evolves [Fintype E] (h : b.Valid p now) (hs : b.Step p now b') :
    b.Evolves b' := by
  have hrefl := Evolves.refl b
  cases hs with
  | register t w c fresh =>
    exact { hrefl with
      txState := path_update (by rw [fresh]; exact .register)
      owner := update_of_absent fresh }
  | apply a t w v fresh isOpen owner alone =>
    exact { hrefl with
      appStatus := path_update (by rw [fresh]; exact .apply)
      appTx := update_of_absent fresh
      depositor := update_of_absent fresh
      deposit := update_of_absent fresh }
  | engage e a fresh pending isOpen =>
    have hlock : TxState.Step (b.txState (b.appTx a)) .locked := by
      rcases isOpen.1 with h | h <;> rw [h]
      · exact .engage
      · exact .reengage
    exact { hrefl with
      txState := path_update hlock
      appStatus := path_update (by rw [pending]; exact .engage)
      engStatus := path_update (by rw [fresh]; exact .engage)
      engApp := update_of_absent fresh
      expiresAt := update_of_absent fresh }
  | settle e known locked window =>
    have hopen := h.open_of_locked known locked window
    exact { hrefl with
      txState := path_update (by rw [locked]; exact .settle)
      engStatus := path_update (by rw [hopen]; exact .settle) }
  | expire e isOpen locked window more =>
    exact { hrefl with
      txState := path_update (by rw [locked]; exact .expire)
      engStatus := path_update (by rw [isOpen]; exact .expire) }
  | exhaust e isOpen locked window last =>
    exact { hrefl with
      txState := path_update (by rw [locked]; exact .exhaust)
      engStatus := path_update (by rw [isOpen]; exact .expire) }
  | reclaim a pending =>
    exact { hrefl with appStatus := path_update (by rw [pending]; exact .reclaim) }
  | cancel t state =>
    have hcancel : TxState.Step (b.txState t) .cancelled := by
      rcases state with h | h <;> rw [h]
      · exact .cancel
      · exact .cancelExpired
    exact { hrefl with txState := path_update hcancel }
  | addCredit w v => exact { hrefl with }
  | withdraw w => exact { hrefl with }

end

end Book

/-! ## Evolution over several moves -/

/-- A listing that exists does not vanish. -/
theorem TxState.ne_none_of_path {x y : TxState} (h : ReflTransGen TxState.Step x y)
    (hx : x ≠ .none) : y ≠ .none := by
  induction h with
  | refl => exact hx
  | tail _ hstep _ => cases hstep <;> simp

theorem AppStatus.ne_none_of_path {x y : AppStatus} (h : ReflTransGen AppStatus.Step x y)
    (hx : x ≠ .none) : y ≠ .none := by
  induction h with
  | refl => exact hx
  | tail _ hstep _ => cases hstep <;> simp

theorem EngStatus.ne_none_of_path {x y : EngStatus} (h : ReflTransGen EngStatus.Step x y)
    (hx : x ≠ .none) : y ≠ .none := by
  induction h with
  | refl => exact hx
  | tail _ hstep _ => cases hstep <;> simp

/-- A settled or cancelled listing moves no more. -/
theorem TxState.eq_of_path {x y : TxState} (h : ReflTransGen TxState.Step x y)
    (hx : x = .settled ∨ x = .cancelled) : y = x := by
  induction h with
  | refl => rfl
  | tail _ hstep ih =>
    subst ih
    rcases hx with rfl | rfl <;> cases hstep

/-- A reclaimed application moves no more. -/
theorem AppStatus.eq_of_path {x y : AppStatus} (h : ReflTransGen AppStatus.Step x y)
    (hx : x = .reclaimed) : y = x := by
  induction h with
  | refl => rfl
  | tail _ hstep ih =>
    subst ih
    subst hx
    cases hstep

/-- A settled or expired engagement moves no more. -/
theorem EngStatus.eq_of_path {x y : EngStatus} (h : ReflTransGen EngStatus.Step x y)
    (hx : x = .settled ∨ x = .expired) : y = x := by
  induction h with
  | refl => rfl
  | tail _ hstep ih =>
    subst ih
    rcases hx with rfl | rfl <;> cases hstep

namespace Book

variable {T A E W : Type} {b b' b'' : Book T A E W}

theorem Evolves.trans (h : b.Evolves b') (h' : b'.Evolves b'') : b.Evolves b'' where
  txState t := (h.txState t).trans (h'.txState t)
  owner t ht := (h'.owner t (TxState.ne_none_of_path (h.txState t) ht)).trans (h.owner t ht)
  appStatus a := (h.appStatus a).trans (h'.appStatus a)
  appTx a ha := (h'.appTx a (AppStatus.ne_none_of_path (h.appStatus a) ha)).trans (h.appTx a ha)
  depositor a ha :=
    (h'.depositor a (AppStatus.ne_none_of_path (h.appStatus a) ha)).trans (h.depositor a ha)
  deposit a ha :=
    (h'.deposit a (AppStatus.ne_none_of_path (h.appStatus a) ha)).trans (h.deposit a ha)
  engStatus e := (h.engStatus e).trans (h'.engStatus e)
  engApp e he := (h'.engApp e (EngStatus.ne_none_of_path (h.engStatus e) he)).trans (h.engApp e he)
  expiresAt e he :=
    (h'.expiresAt e (EngStatus.ne_none_of_path (h.engStatus e) he)).trans (h.expiresAt e he)

/-- A book without entries is valid. -/
theorem valid_of_absent [Fintype E] [DecidableEq T] {p : Terms} {now : ℕ}
    (ht : ∀ t, b.txState t = .none) (ha : ∀ a, b.appStatus a = .none)
    (he : ∀ e, b.engStatus e = .none) (hx : ∀ t, b.expirations t = 0) : b.Valid p now where
  linked := by constructor <;> simp [ha, he]
  locked := by constructor <;> simp [ht, he]
  settled := by constructor <;> simp [ht, he]
  timed := by constructor <;> simp [he]
  tallied := by constructor <;> simp [ht]
  counted t := by simp [hx, expiredOf, he]

end Book

end Pprev
