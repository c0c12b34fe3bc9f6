import Mathlib.Data.List.Basic
import Mathlib.Data.Nat.Init

/-!
# JSON texts

A reader of JSON (RFC 8259) on bytes in UTF-8. The members of an object keep their order, a string
is the bytes of its characters and a number is the text it is written with.
-/

namespace Json

abbrev Bytes := List UInt8

/-- Reads something at the front of a text; what remains comes with it. -/
abbrev Reader (α : Type) := Bytes → Option (α × Bytes)

inductive Value where
  | null
  | bool (b : Bool)
  | number (text : Bytes)
  | string (s : Bytes)
  | array (xs : List Value)
  | object (members : List (Bytes × Value))

def isWs (b : UInt8) : Bool := b = 32 || b = 9 || b = 10 || b = 13

/-- The first byte that is not white space. -/
def next (l : Bytes) : Option (UInt8 × Bytes) :=
  match l.dropWhile isWs with
  | [] => none
  | b :: l => some (b, l)

/-! ## Strings -/

def hexDigit (b : UInt8) : Option ℕ :=
  if 48 ≤ b ∧ b ≤ 57 then some (b.toNat - 48)
  else if 65 ≤ b ∧ b ≤ 70 then some (b.toNat - 55)
  else if 97 ≤ b ∧ b ≤ 102 then some (b.toNat - 87)
  else none

/-- The number of four hexadecimal digits. -/
def codeUnit (a b c d : UInt8) : Option ℕ := do
  some (((← hexDigit a) * 16 + (← hexDigit b)) * 256 + (← hexDigit c) * 16 + (← hexDigit d))

def isHigh (u : ℕ) : Bool := 0xd800 ≤ u && u < 0xdc00

def isLow (u : ℕ) : Bool := 0xdc00 ≤ u && u < 0xe000

def encode (codePoint : ℕ) : Bytes := String.utf8EncodeChar (Char.ofNat codePoint)

/-- The byte of an escape of two characters. -/
def unescape (b : UInt8) : Option UInt8 :=
  if b = 34 ∨ b = 92 ∨ b = 47 then some b
  else if b = 98 then some 8
  else if b = 102 then some 12
  else if b = 110 then some 10
  else if b = 114 then some 13
  else if b = 116 then some 9
  else none

/-- Bytes in front of the string that is read. -/
def push (s : Bytes) : Option (Bytes × Bytes) → Option (Bytes × Bytes)
  | some (t, rest) => some (s ++ t, rest)
  | none => none

/-- The characters of a string up to its closing quote. -/
def readString : Reader Bytes
  | [] => none
  | b :: l =>
    if b = 34 then some ([], l)
    else if b = 92 then
      match l with
      | 117 :: a :: b :: c :: d :: l =>
        match codeUnit a b c d with
        | none => none
        | some u =>
          if isHigh u then
            -- a character outside the basic plane is written as two code units
            match l with
            | 92 :: 117 :: a' :: b' :: c' :: d' :: l =>
              match codeUnit a' b' c' d' with
              | none => none
              | some u' =>
                if isLow u' then
                  push (encode (0x10000 + (u - 0xd800) * 0x400 + (u' - 0xdc00))) (readString l)
                else none
            | _ => none
          else if isLow u then none
          else push (encode u) (readString l)
      | e :: l =>
        match unescape e with
        | none => none
        | some c => push [c] (readString l)
      | [] => none
    else if b < 32 then none
    else push [b] (readString l)

/-! ## Numbers and words -/

def isDigit (b : UInt8) : Bool := 48 ≤ b && b ≤ 57

def readDigits (l : Bytes) : Option (Bytes × Bytes) :=
  match l.takeWhile isDigit with
  | [] => none
  | digits => some (digits, l.dropWhile isDigit)

/-- An integer has no leading zero. -/
def readInt : Reader Bytes
  | 48 :: l => some ([48], l)
  | l => readDigits l

def readSign (signs : Bytes) : Bytes → Bytes × Bytes
  | b :: l => if b ∈ signs then ([b], l) else ([], b :: l)
  | [] => ([], [])

def readFraction : Reader Bytes
  | 46 :: l => (readDigits l).map fun p => (46 :: p.1, p.2)
  | l => some ([], l)

def readExponent : Reader Bytes
  | b :: l =>
    if b = 101 ∨ b = 69 then
      let sign := readSign [43, 45] l
      (readDigits sign.2).map fun p => (b :: sign.1 ++ p.1, p.2)
    else some ([], b :: l)
  | [] => some ([], [])

def readNumber (l : Bytes) : Option (Bytes × Bytes) := do
  let sign := readSign [45] l
  let int ← readInt sign.2
  let fraction ← readFraction int.2
  let exponent ← readExponent fraction.2
  some (sign.1 ++ int.1 ++ fraction.1 ++ exponent.1, exponent.2)

/-- `null`, `true`, `false` or a number. -/
def readScalar (l : Bytes) : Option (Value × Bytes) :=
  if [110, 117, 108, 108] <+: l then some (.null, l.drop 4)
  else if [116, 114, 117, 101] <+: l then some (.bool true, l.drop 4)
  else if [102, 97, 108, 115, 101] <+: l then some (.bool false, l.drop 5)
  else (readNumber l).map fun p => (.number p.1, p.2)

/-! ## Values -/

/-- Items between commas up to a closing bracket, `n` at most. -/
def readItems {α : Type} (item : Reader α) (close : UInt8) : ℕ → Reader (List α)
  | 0, _ => none
  | n + 1, l =>
    (item l).bind fun p => (next p.2).bind fun q =>
      if q.1 = 44 then (readItems item close n q.2).map fun r => (p.1 :: r.1, r.2)
      else if q.1 = close then some ([p.1], q.2)
      else none

/-- Nothing, or items, up to a closing bracket. -/
def readList {α : Type} (item : Reader α) (close : UInt8) (l : Bytes) :
    Option (List α × Bytes) :=
  (next l).bind fun q =>
    if q.1 = close then some ([], q.2) else readItems item close l.length l

/-- A quoted key, a colon and a value. -/
def readMember (value : Reader Value) : Reader (Bytes × Value) := fun l =>
  (next l).bind fun q => if q.1 = 34 then
    (readString q.2).bind fun key => (next key.2).bind fun c =>
      if c.1 = 58 then (value c.2).map fun p => ((key.1, p.1), p.2) else none
  else none

/-- A value that is nested `depth` times at most. -/
def readValue : ℕ → Reader Value
  | 0, _ => none
  | depth + 1, l => (next l).bind fun q =>
    if q.1 = 34 then (readString q.2).map fun p => (.string p.1, p.2)
    else if q.1 = 91 then
      (readList (readValue depth) 93 q.2).map fun p => (.array p.1, p.2)
    else if q.1 = 123 then
      (readList (readMember (readValue depth)) 125 q.2).map fun p => (.object p.1, p.2)
    else readScalar (q.1 :: q.2)

/-- The value of a text; a text cannot nest values more often than it has bytes. -/
def parse (text : String) : Option Value :=
  let l := text.toUTF8.data.toList
  match readValue l.length l with
  | some (v, rest) => if next rest = none then some v else none
  | none => none

example : parse " \x7b\"a\": [1.5e-3, \"\\u00e9\\n\", null], \"a\":\x7b\x7d\x7d" =
    some (.object [([97], .array [.number [49, 46, 53, 101, 45, 51], .string [0xc3, 0xa9, 10],
      .null]), ([97], .object [])]) := by rfl

/-! ## Reading strings -/

/-- A byte that stands for itself in a string. -/
def Plain (b : UInt8) : Prop := b ≠ 34 ∧ b ≠ 92 ∧ ¬b < 32

instance (b : UInt8) : Decidable (Plain b) := by unfold Plain; infer_instance

section

variable {b c : UInt8} {l s t u rest : Bytes}

@[simp] theorem push_eq_some {r : Option (Bytes × Bytes)} :
    push s r = some (s ++ t, rest) ↔ r = some (t, rest) := by
  cases r <;> simp [push, Prod.ext_iff]

theorem push_push (r : Option (Bytes × Bytes)) : push s (push t r) = push (s ++ t) r := by
  cases r <;> simp [push]

theorem readString_quote (l : Bytes) : readString (34 :: l) = some ([], l) := by
  rw [readString.eq_def]
  rfl

theorem readString_cons (h : Plain b) : readString (b :: l) = push [b] (readString l) := by
  obtain ⟨hquote, hescape, hcontrol⟩ := h
  rw [readString.eq_def]
  simp only [if_neg hquote, if_neg hescape, if_neg hcontrol]

theorem readString_append (h : ∀ b ∈ s, Plain b) :
    readString (s ++ l) = push s (readString l) := by
  induction s with
  | nil => cases hl : readString l <;> simp [push, hl]
  | cons b s ih =>
    rw [List.forall_mem_cons] at h
    rw [List.cons_append, readString_cons h.1, ih h.2, push_push]
    rfl

theorem readString_control (h : b < 32) (hquote : b ≠ 34) (hescape : b ≠ 92) :
    readString (b :: l) = none := by
  rw [readString.eq_def]
  simp only [if_neg hquote, if_neg hescape, if_pos h]

/-- Two backslashes are read as one. -/
theorem readString_backslashes {j k : ℕ}
    (h : readString (List.replicate k 92 ++ 34 :: l) = some (List.replicate j 92, rest)) :
    2 * j = k := by
  induction k using Nat.twoStepInduction generalizing j with
  | zero =>
    rw [List.replicate_zero, List.nil_append, readString_quote] at h
    obtain ⟨hj, -⟩ := Prod.mk.inj (Option.some.inj h)
    have := congrArg List.length hj
    simp at this
    omega
  | one =>
    -- the closing quote is escaped
    have hread : readString (List.replicate 1 92 ++ 34 :: l) = push [34] (readString l) := rfl
    rw [hread] at h
    cases hl : readString l with
    | none => simp [hl, push] at h
    | some p =>
      rw [hl] at h
      obtain ⟨hj, -⟩ := Prod.mk.inj (Option.some.inj h)
      cases j with
      | zero => simp at hj
      | succ j => simp [List.replicate_succ] at hj
  | more k ih _ =>
    have hread : readString (List.replicate (k + 2) 92 ++ 34 :: l) =
        push [92] (readString (List.replicate k 92 ++ 34 :: l)) := rfl
    rw [hread] at h
    cases j with
    | zero =>
      cases hl : readString (List.replicate k 92 ++ 34 :: l) with
      | none => simp [hl, push] at h
      | some p => simp [hl, push] at h
    | succ j =>
      have := ih (push_eq_some.mp h)
      omega

/-- A string with padding is read as it stands exactly if the padding stands for itself. -/
theorem readString_padded (hu : ∀ b ∈ u, Plain b) {k : ℕ} :
    readString (u ++ List.replicate k c ++ 34 :: l) = some (u ++ List.replicate k c, rest) ↔
      (k = 0 ∨ Plain c) ∧ rest = l := by
  rw [List.append_assoc, readString_append hu, push_eq_some]
  by_cases hc : Plain c
  · have hplain : ∀ b ∈ List.replicate k c, Plain b := fun b hb => List.eq_of_mem_replicate hb ▸ hc
    rw [readString_append hplain, readString_quote]
    simp [push, hc, eq_comm]
  · cases k with
    | zero => simp [readString_quote, eq_comm]
    | succ k =>
      refine ⟨fun h => ?_, fun h => absurd h.1 (by simp [hc])⟩
      by_cases hquote : c = 34
      · subst hquote
        rw [List.replicate_succ, List.cons_append, readString_quote] at h
        simp at h
      · by_cases hescape : c = 92
        · subst hescape
          have := readString_backslashes h
          omega
        · have hcontrol : c < 32 := by
            by_contra hcontrol
            exact hc ⟨hquote, hescape, hcontrol⟩
          rw [List.replicate_succ, List.cons_append,
            readString_control hcontrol hquote hescape] at h
          cases h

end

/-! ## Reading lists -/

/-- Texts with a comma between any two. -/
def commas : List Bytes → Bytes
  | [] => []
  | [x] => x
  | x :: y :: xs => x ++ 44 :: commas (y :: xs)

theorem commas_concat (xs : List Bytes) (x : Bytes) :
    commas (xs ++ [x]) = commas xs ++ (if 0 < xs.length then 44 :: x else x) := by
  induction xs with
  | nil => rfl
  | cons y ys ih =>
    cases ys with
    | nil => rfl
    | cons z zs =>
      simp only [List.cons_append, commas, List.append_assoc, List.length_cons] at ih ⊢
      rw [ih]
      simp

theorem next_cons {b : UInt8} (h : isWs b = false) (l : Bytes) : next (b :: l) = some (b, l) := by
  rw [next, List.dropWhile_cons, h]
  rfl

theorem length_le_commas {xs : List Bytes} (h : ∀ x ∈ xs, x ≠ []) :
    xs.length ≤ (commas xs).length := by
  induction xs with
  | nil => exact Nat.zero_le _
  | cons x xs ih =>
    rw [List.forall_mem_cons] at h
    cases xs with
    | nil => exact List.length_pos_of_ne_nil h.1
    | cons y ys =>
      have := ih h.2
      simp only [commas, List.length_append, List.length_cons] at this ⊢
      omega

section

variable {α β : Type} {item : Reader α} {close : UInt8} {n : ℕ} {l rest : Bytes}

theorem readItems_succ {r : List α} : readItems item close (n + 1) l = some (r, rest) ↔
    ∃ a l', item l = some (a, l') ∧ ((∃ l'' r', next l' = some (44, l'') ∧
      readItems item close n l'' = some (r', rest) ∧ r = a :: r') ∨
      (close ≠ 44 ∧ next l' = some (close, rest) ∧ r = [a])) := by
  simp only [readItems, Option.bind_eq_some_iff, Prod.exists]
  refine exists_congr fun a => exists_congr fun l' => and_congr_right fun _ => ?_
  constructor
  · rintro ⟨b, l'', hnext, h⟩
    split_ifs at h with hcomma hclose
    · obtain ⟨⟨r', rest'⟩, hr, hrest⟩ := Option.map_eq_some_iff.mp h
      obtain ⟨rfl, rfl⟩ := Prod.mk.inj hrest
      exact .inl ⟨l'', r', hcomma ▸ hnext, hr, rfl⟩
    · obtain ⟨rfl, rfl⟩ := Prod.mk.inj (Option.some.inj h)
      exact .inr ⟨hclose ▸ hcomma, hclose ▸ hnext, rfl⟩
  · rintro (⟨l'', r', hnext, hr, rfl⟩ | ⟨hne, hnext, rfl⟩)
    · exact ⟨44, l'', hnext, by rw [if_pos rfl, hr]; rfl⟩
    · exact ⟨close, rest, hnext, by rw [if_neg hne, if_pos rfl]⟩

/-- What a reader makes of a text in front of anything: the value, under a condition. -/
def Exact (item : Reader α) (text : Bytes) (a : α) (p : Prop) : Prop :=
  ∀ l rest, item (text ++ l) = some (a, rest) ↔ p ∧ rest = l

theorem Exact.congr {text : Bytes} {a : α} {p q : Prop} (h : Exact item text a p) (hpq : p ↔ q) :
    Exact item text a q := fun l rest => (h l rest).trans (and_congr_left fun _ => hpq)

variable {text : β → Bytes} {value : β → α} {P : β → Prop} {xs : List β}

theorem readItems_commas (hcomma : close ≠ 44) (hws : isWs close = false)
    (h : ∀ x ∈ xs, Exact item (text x) (value x) (P x)) (hne : xs ≠ []) (hn : xs.length ≤ n) :
    readItems item close n (commas (xs.map text) ++ close :: l) = some (xs.map value, rest) ↔
      (∀ x ∈ xs, P x) ∧ rest = l := by
  induction xs generalizing n with
  | nil => exact absurd rfl hne
  | cons x xs ih =>
    obtain ⟨m, rfl⟩ : ∃ m, n = m + 1 := ⟨n - 1, by simp only [List.length_cons] at hn; omega⟩
    rw [List.forall_mem_cons] at h
    rw [readItems_succ, List.forall_mem_cons]
    cases xs with
    | nil =>
      simp only [List.map_cons, List.map_nil, commas, List.not_mem_nil, false_imp_iff,
        implies_true, and_true]
      constructor
      · rintro ⟨a, l', hitem, ⟨l'', r', hnext, -, hr⟩ | ⟨-, hnext, hr⟩⟩
        · obtain ⟨rfl, -⟩ := List.cons_eq_cons.mp hr
          obtain ⟨-, rfl⟩ := (h.1 _ _).mp hitem
          rw [next_cons hws] at hnext
          exact absurd (Prod.mk.inj (Option.some.inj hnext)).1 hcomma
        · obtain ⟨rfl, -⟩ := List.cons_eq_cons.mp hr
          obtain ⟨hx, rfl⟩ := (h.1 _ _).mp hitem
          rw [next_cons hws] at hnext
          exact ⟨hx, (Prod.mk.inj (Option.some.inj hnext)).2.symm⟩
      · rintro ⟨hx, rfl⟩
        exact ⟨value x, _, (h.1 _ _).mpr ⟨hx, rfl⟩, .inr ⟨hcomma, next_cons hws _, rfl⟩⟩
    | cons y ys =>
      have hm : (y :: ys).length ≤ m := by simpa using hn
      have hrest := ih h.2 (by simp) hm
      simp only [List.map_cons, commas, List.append_assoc, List.cons_append] at hrest ⊢
      constructor
      · rintro ⟨a, l', hitem, ⟨l'', r', hnext, hread, hr⟩ | ⟨-, -, hr⟩⟩
        · obtain ⟨rfl, rfl⟩ := List.cons_eq_cons.mp hr
          obtain ⟨hx, rfl⟩ := (h.1 _ _).mp hitem
          rw [next_cons (by decide)] at hnext
          obtain ⟨-, rfl⟩ := Prod.mk.inj (Option.some.inj hnext)
          obtain ⟨hys, hl⟩ := hrest.mp hread
          exact ⟨⟨hx, hys⟩, hl⟩
        · simp at hr
      · rintro ⟨⟨hx, hys⟩, hl⟩
        exact ⟨value x, _, (h.1 _ _).mpr ⟨hx, rfl⟩,
          .inl ⟨_, _, next_cons (by decide) _, hrest.mpr ⟨hys, hl⟩, rfl⟩⟩

/-- A list of items that start with a quote. -/
theorem exact_list (hcomma : close ≠ 44) (hquote : close ≠ 34) (hws : isWs close = false)
    (h : ∀ x ∈ xs, Exact item (text x) (value x) (P x)) (hne : xs ≠ [])
    (hstart : ∀ x ∈ xs, ∃ t, text x = 34 :: t) :
    Exact (readList item close) (commas (xs.map text) ++ [close]) (xs.map value)
      (∀ x ∈ xs, P x) := by
  intro l rest
  have hlen : xs.length ≤ (commas (xs.map text)).length := by
    rw [← List.length_map text]
    refine length_le_commas fun t ht => ?_
    obtain ⟨x, hx, rfl⟩ := List.mem_map.mp ht
    obtain ⟨t, ht⟩ := hstart x hx
    simp [ht]
  obtain ⟨t, ht⟩ : ∃ t, commas (xs.map text) = 34 :: t := by
    cases xs with
    | nil => exact absurd rfl hne
    | cons x xs =>
      obtain ⟨t, ht⟩ := hstart x (by simp)
      cases xs with
      | nil => exact ⟨t, ht⟩
      | cons y ys => exact ⟨_, by rw [List.map_cons, List.map_cons, commas, ht]; rfl⟩
  have hnext : next (commas (xs.map text) ++ close :: l) = some (34, t ++ close :: l) := by
    rw [ht]
    exact next_cons (by decide) _
  rw [List.append_assoc, List.singleton_append, readList, hnext, Option.bind_some,
    if_neg (Ne.symm hquote)]
  exact readItems_commas hcomma hws h hne (by rw [List.length_append]; omega)

end

/-! ## Reading values -/

section

variable {key text u : Bytes} {v : Value} {p : Prop} {d k : ℕ} {c : UInt8}

theorem exact_member {item : Reader Value} (hkey : ∀ b ∈ key, Plain b) (h : Exact item text v p) :
    Exact (readMember item) (34 :: key ++ 34 :: 58 :: text) (key, v) p := by
  intro l rest
  have hread : readString (key ++ 34 :: 58 :: (text ++ l)) = some (key, 58 :: (text ++ l)) := by
    rw [readString_append hkey, readString_quote]
    simp [push]
  rw [← h l rest]
  simp only [readMember, List.cons_append, List.append_assoc, next_cons (show isWs 34 = false by rfl),
    Option.bind_some, if_true, hread, next_cons (show isWs 58 = false by rfl)]
  simp [Prod.ext_iff]

theorem exact_string (hu : ∀ b ∈ u, Plain b) :
    Exact (readValue (d + 1)) (34 :: (u ++ List.replicate k c) ++ [34])
      (.string (u ++ List.replicate k c)) (k = 0 ∨ Plain c) := by
  intro l rest
  rw [← readString_padded hu]
  simp only [readValue, List.cons_append, List.append_assoc,
    next_cons (show isWs 34 = false by rfl), Option.bind_some, if_true]
  simp [Prod.ext_iff]

theorem exact_array {vs : List Value} (h : Exact (readList (readValue d) 93) text vs p) :
    Exact (readValue (d + 1)) (91 :: text) (.array vs) p := by
  intro l rest
  rw [← h l rest]
  simp only [readValue, List.cons_append, next_cons (show isWs 91 = false by rfl),
    Option.bind_some, if_true, if_neg (show ¬(91 : UInt8) = 34 by decide)]
  simp [Prod.ext_iff]

theorem exact_object {ms : List (Bytes × Value)}
    (h : Exact (readList (readMember (readValue d)) 125) text ms p) :
    Exact (readValue (d + 1)) (123 :: text) (.object ms) p := by
  intro l rest
  rw [← h l rest]
  simp only [readValue, List.cons_append, next_cons (show isWs 123 = false by rfl),
    Option.bind_some, if_true, if_neg (show ¬(123 : UInt8) = 34 by decide),
    if_neg (show ¬(123 : UInt8) = 91 by decide)]
  simp [Prod.ext_iff]

/-- A member of an object with its text, and the condition under which it is read as such. -/
structure Entry where
  key : Bytes
  text : Bytes
  value : Value
  holds : Prop

def Entry.member (e : Entry) : Bytes := 34 :: e.key ++ 34 :: 58 :: e.text

/-- The text of an object. -/
def objectText (es : List Entry) : Bytes := 123 :: (commas (es.map Entry.member) ++ [125])

theorem exact_entries {es : List Entry} (hkey : ∀ e ∈ es, ∀ b ∈ e.key, Plain b)
    (h : ∀ e ∈ es, Exact (readValue d) e.text e.value e.holds) (hne : es ≠ []) :
    Exact (readValue (d + 1)) (objectText es) (.object (es.map fun e => (e.key, e.value)))
      (∀ e ∈ es, e.holds) :=
  exact_object (exact_list (by decide) (by decide) rfl
    (fun e he => exact_member (hkey e he) (h e he)) hne fun _ _ => ⟨_, rfl⟩)

/-- The text of an object with a member has two brackets, two quotes and a colon. -/
theorem length_objectText {es : List Entry} (hne : es ≠ []) : 5 ≤ (objectText es).length := by
  have hfirst : ∀ (x : Bytes) (xs : List Bytes), x.length ≤ (commas (x :: xs)).length := by
    intro x xs
    cases xs with
    | nil => exact Nat.le_refl _
    | cons y ys =>
      rw [commas, List.length_append]
      exact Nat.le_add_right _ _
  cases es with
  | nil => exact absurd rfl hne
  | cons e es =>
    have := hfirst e.member (es.map Entry.member)
    simp only [Entry.member, List.length_cons, List.length_append, objectText, List.map_cons,
      List.length_nil] at this ⊢
    omega

/-- The value of a text that is read exactly at its own depth bound. -/
theorem parse_eq_some {doc : String}
    (h : Exact (readValue doc.toUTF8.data.toList.length) doc.toUTF8.data.toList v p) :
    parse doc = some v ↔ p := by
  have hread := h []
  rw [List.append_nil] at hread
  simp only [parse]
  cases hdoc : readValue doc.toUTF8.data.toList.length doc.toUTF8.data.toList with
  | none =>
    simp only [hdoc, reduceCtorEq, false_iff, not_and] at hread ⊢
    exact fun hp => hread [] hp rfl
  | some r =>
    obtain ⟨v', rest⟩ := r
    simp only [hdoc, Option.some.injEq, Prod.mk.injEq] at hread ⊢
    constructor
    · intro hparse
      split_ifs at hparse with hrest
      obtain rfl := Option.some.inj hparse
      exact ((hread rest).mp ⟨rfl, rfl⟩).1
    · intro hp
      obtain ⟨rfl, rfl⟩ := (hread []).mpr ⟨hp, rfl⟩
      exact if_pos rfl

end

end Json
