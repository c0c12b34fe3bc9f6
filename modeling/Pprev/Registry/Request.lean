import Pprev.Circuit.Decimal
import Pprev.Data.Runs
import Pprev.Notary.Nonces
import Pprev.Offchain.Layout

/-!
# Requests to the registry

The parser of `mock-registry/src/lib.rs`, which reads one request from the bytes that have arrived
so far, and the loop of `handle` that runs it after every chunk.
-/

namespace Pprev

open Evm

namespace Registry

/-- Largest request the registry reads. -/
def MAX_REQUEST : ℕ := 8 * 1024

structure Request where
  method : String
  target : String
  headers : List (String × String)
  body : Bytes
  deriving DecidableEq

/-- Why a head is refused. -/
inductive RequestError where
  /-- request head is not UTF-8 -/
  | notUtf8
  /-- malformed request line -/
  | requestLine
  /-- unsupported HTTP version -/
  | version (version : String)
  /-- malformed header -/
  | header (line : String)
  /-- invalid Content-Length -/
  | contentLength (value : String)
  deriving DecidableEq

/-- How a function fails: with an error, or with a panic. -/
inductive Fault (ε : Type) where
  | error (e : ε)
  | panic
  deriving DecidableEq

/-! ## The head -/

/-- The position of the first CRLF CRLF. -/
def headEnd : Bytes → Option ℕ
  | [] => none
  | b :: l => if (b :: l).take 4 = [13, 10, 13, 10] then some 0 else (headEnd l).map (· + 1)

/-- A line with one character more at its front. -/
def consChar (c : Char) : List (List Char) → List (List Char)
  | [] => [[c]]
  | line :: lines => (c :: line) :: lines

/-- The parts of a text between its CRLFs. -/
def splitCrlf : List Char → List (List Char)
  | [] => [[]]
  | '\r' :: '\n' :: l => [] :: splitCrlf l
  | c :: l => consChar c (splitCrlf l)

/-- The parts of a text before and after its first colon. -/
def splitColon (line : List Char) : Option (List Char × List Char) :=
  match line.dropWhile (· ≠ ':') with
  | [] => none
  | _ :: value => some (line.takeWhile (· ≠ ':'), value)

def eqIgnoreAsciiCase (s t : String) : Bool := s.toList.map Char.toLower == t.toList.map Char.toLower

/-- The name and the value of a header line. -/
def parseHeader (line : List Char) : Except RequestError (String × String) :=
  match splitColon line with
  | some (k, v) => .ok (trim (String.ofList k), trim (String.ofList v))
  | none => .error (.header (String.ofList line))

/-- Decimal digits after an optional plus sign, of a number below 2^64. -/
def parseUsize (value : String) : Option ℕ :=
  let digits := match utf8 value with
    | 43 :: digits => digits
    | digits => digits
  if digits ≠ [] ∧ IsDecimal digits ∧ decimalValue digits < 2 ^ 64 then some (decimalValue digits)
  else none

/-- The length of the body that headers announce. -/
def contentLength (headers : List (String × String)) : Except RequestError ℕ :=
  match headers.find? fun header => eqIgnoreAsciiCase header.1 "content-length" with
  | none => .ok 0
  | some header =>
    match parseUsize header.2 with
    | some n => .ok n
    | none => .error (.contentLength header.2)

/-- What a head says. -/
structure Head where
  method : String
  target : String
  headers : List (String × String)
  contentLength : ℕ

def decodeHead (head : Bytes) : Except RequestError String :=
  match String.fromUTF8? ⟨head.toArray⟩ with
  | some head => .ok head
  | none => .error .notUtf8

/-- The method and the target of a request line. -/
def parseRequestLine (line : List Char) : Except RequestError (String × String) :=
  match line.splitOn ' ' with
  | method :: target :: version :: _ => do
    ensure (version = "HTTP/1.1".toList) (.version (String.ofList version))
    .ok (String.ofList method, String.ofList target)
  | _ => .error .requestLine

def parseHead (head : Bytes) : Except RequestError Head := do
  let head ← decodeHead head
  let lines := splitCrlf head.toList
  let (method, target) ← parseRequestLine (lines.head?.getD [])
  let headers ← (lines.tail.filter (· ≠ [])).mapM parseHeader
  let contentLength ← contentLength headers
  .ok ⟨method, target, headers, contentLength⟩

/-! ## The body -/

/-- The sum of two `usize`s, which wraps in a build that does not check for overflows. -/
def addUsize (overflowChecks : Bool) (a b : ℕ) : Except (Fault RequestError) ℕ :=
  if a + b < 2 ^ 64 then .ok (a + b)
  else if overflowChecks then .error .panic
  else .ok ((a + b) % 2 ^ 64)

/-- The bytes of a range, which has to lie within the buffer. -/
def sliceRange (buf : Bytes) (start stop : ℕ) : Except (Fault RequestError) Bytes :=
  if start ≤ stop ∧ stop ≤ buf.length then .ok (Slice.slice buf start (stop - start))
  else .error .panic

/-- One request from a buffer, or nothing while it is incomplete. -/
def parse (overflowChecks : Bool) (buf : Bytes) : Except (Fault RequestError) (Option Request) :=
  match headEnd buf with
  | none => .ok none
  | some headEnd => do
    let head ← (parseHead (buf.take headEnd)).mapError .error
    let bodyStart := headEnd + 4
    let bodyEnd ← addUsize overflowChecks bodyStart head.contentLength
    if buf.length < bodyEnd then return none
    else do
      let bodyEnd ← addUsize overflowChecks bodyStart head.contentLength
      let body ← sliceRange buf bodyStart bodyEnd
      return some ⟨head.method, head.target, head.headers, body⟩

/-! ## Reading -/

/-- Why a connection ends without a request. -/
inductive HandleError where
  /-- connection closed before a complete request -/
  | closed
  /-- request too large -/
  | tooLarge
  | parse (fault : Fault RequestError)
  deriving DecidableEq

/-- The request that `handle` routes, from a buffer and the chunks that are read after it. -/
def readRequest (overflowChecks : Bool) : Bytes → List Bytes → Except HandleError Request
  | _, [] => .error .closed
  | buf, chunk :: chunks =>
    if MAX_REQUEST < (buf ++ chunk).length then .error .tooLarge
    else
      match parse overflowChecks (buf ++ chunk) with
      | .error fault => .error (.parse fault)
      | .ok (some request) => .ok request
      | .ok none => readRequest overflowChecks (buf ++ chunk) chunks

def handle (overflowChecks : Bool) (chunks : List Bytes) : Except HandleError Request :=
  readRequest overflowChecks [] chunks

/-! ## The head of a buffer -/

theorem headEnd_cons (b : UInt8) (l : Bytes) : headEnd (b :: l) =
    if (b :: l).take 4 = [13, 10, 13, 10] then some 0 else (headEnd l).map (· + 1) := rfl

theorem headEnd_le {buf : Bytes} {i : ℕ} (h : headEnd buf = some i) : i + 4 ≤ buf.length := by
  induction buf generalizing i with
  | nil => cases h
  | cons b l ih =>
    rw [headEnd_cons] at h
    split_ifs at h with htake
    · have hlen := congrArg List.length htake
      rw [List.length_take] at hlen
      simp only [List.length_cons, List.length_nil, Option.some.injEq] at hlen h ⊢
      omega
    · obtain ⟨j, hj, rfl⟩ := Option.map_eq_some_iff.mp h
      have := ih hj
      rw [List.length_cons]
      omega

theorem headEnd_append {buf : Bytes} {i : ℕ} (h : headEnd buf = some i) (more : Bytes) :
    headEnd (buf ++ more) = some i := by
  induction buf generalizing i with
  | nil => cases h
  | cons b l ih =>
    have hlen := headEnd_le h
    rw [headEnd_cons] at h
    rw [List.cons_append, headEnd_cons, ← List.cons_append,
      List.take_append_of_le_length (by omega)]
    split_ifs at h ⊢ with htake
    · exact h
    · obtain ⟨j, hj, rfl⟩ := Option.map_eq_some_iff.mp h
      rw [ih hj]
      rfl

/-! ## The parser decides on a prefix -/

/-- What a buffer settles: a request or a fault. -/
def decision (overflowChecks : Bool) (buf : Bytes) : Option (Except (Fault RequestError) Request) :=
  match parse overflowChecks buf with
  | .ok none => none
  | .ok (some request) => some (.ok request)
  | .error fault => some (.error fault)

section

variable {overflowChecks : Bool} {buf : Bytes}

theorem decision_eq_request {request : Request} : decision overflowChecks buf = some (.ok request) ↔
    parse overflowChecks buf = .ok (some request) := by
  unfold decision
  split <;> simp_all

theorem decision_eq_fault {fault : Fault RequestError} :
    decision overflowChecks buf = some (.error fault) ↔ parse overflowChecks buf = .error fault := by
  unfold decision
  split <;> simp_all

theorem parse_of_headEnd {i : ℕ} (h : headEnd buf = some i) : parse overflowChecks buf = (do
    let head ← (parseHead (buf.take i)).mapError .error
    let bodyEnd ← addUsize overflowChecks (i + 4) head.contentLength
    if buf.length < bodyEnd then return none
    else do
      let body ← sliceRange buf (i + 4) bodyEnd
      return some ⟨head.method, head.target, head.headers, body⟩) := by
  rw [parse, h]
  refine bind_congr fun head => ?_
  dsimp only
  cases addUsize overflowChecks (i + 4) head.contentLength <;> rfl

theorem sliceRange_append {start stop : ℕ} (h : stop ≤ buf.length) (more : Bytes) :
    sliceRange (buf ++ more) start stop = sliceRange buf start stop := by
  have hle : stop ≤ (buf ++ more).length := by
    rw [List.length_append]
    omega
  unfold sliceRange
  by_cases hstart : start ≤ stop
  · rw [if_pos ⟨hstart, hle⟩, if_pos ⟨hstart, h⟩, Slice.slice_append_left (by omega)]
  · rw [if_neg fun h => hstart h.1, if_neg fun h => hstart h.1]

/-- The parser reads the head and the announced part of the body only. -/
theorem stable_decision : Incremental.Stable (decision overflowChecks) := by
  intro buf more b h
  unfold decision at h ⊢
  cases hend : headEnd buf with
  | none =>
    rw [parse, hend] at h
    cases h
  | some i =>
    have hlen := headEnd_le hend
    rw [parse_of_headEnd hend] at h
    rw [parse_of_headEnd (headEnd_append hend more), List.take_append_of_le_length (by omega)]
    cases hhead : parseHead (buf.take i) with
    | error e =>
      rw [hhead] at h
      exact h
    | ok head =>
      rw [hhead] at h
      simp only [Except.mapError, bind, Except.bind] at h ⊢
      cases hadd : addUsize overflowChecks (i + 4) head.contentLength with
      | error fault =>
        rw [hadd] at h
        exact h
      | ok bodyEnd =>
        simp only [hadd] at h ⊢
        by_cases hshort : buf.length < bodyEnd
        · rw [if_pos hshort] at h
          cases h
        · rw [if_neg hshort] at h
          rw [if_neg (by rw [List.length_append]; omega), sliceRange_append (by omega)]
          exact h

example : parse true (utf8 "GET /income HTTP/1.1\r\ncontent-length: +2\r\n\r\nokGET") =
    .ok (some ⟨"GET", "/income", [("content-length", "+2")], utf8 "ok"⟩) := by decide +kernel

/-! ## Panics -/

/-- The buffer holds a head that ends at `start`, is well formed and announces a body of `n`
bytes. -/
def Announces (buf : Bytes) (start n : ℕ) : Prop :=
  ∃ (text : String) (requestLine method target : List Char) (lines more : List (List Char))
    (headers : List (String × String)),
    headEnd buf = some (utf8 text).length ∧ utf8 text <+: buf ∧ start = (utf8 text).length + 4 ∧
    splitCrlf text.toList = requestLine :: lines ∧
    requestLine.splitOn ' ' = method :: target :: "HTTP/1.1".toList :: more ∧
    List.Forall₂ (fun line header => parseHeader line = .ok header) (lines.filter (· ≠ [])) headers ∧
    contentLength headers = .ok n

theorem splitCrlf_ne_nil (l : List Char) : splitCrlf l ≠ [] := by
  fun_induction splitCrlf l with
  | case1 => simp
  | case2 => simp
  | case3 c l _ ih =>
    cases h : splitCrlf l with
    | nil => exact absurd h ih
    | cons line lines => simp [consChar]

theorem decodeHead_eq_ok {bytes : Bytes} {text : String} :
    decodeHead bytes = .ok text ↔ utf8 text = bytes := by
  rw [← fromUTF8_eq_some]
  unfold decodeHead
  cases String.fromUTF8? ⟨bytes.toArray⟩ <;> simp

theorem parseRequestLine_eq_ok {line : List Char} {out : String × String} :
    parseRequestLine line = .ok out ↔ ∃ method target more,
      line.splitOn ' ' = method :: target :: "HTTP/1.1".toList :: more ∧
      out = (String.ofList method, String.ofList target) := by
  unfold parseRequestLine
  constructor
  · intro h
    split at h
    next method target version more hsplit =>
      simp only [bind_eq_ok, ensure_eq_ok, Except.ok.injEq] at h
      obtain ⟨_, rfl, rfl⟩ := h
      exact ⟨method, target, more, hsplit, rfl⟩
    · cases h
  · rintro ⟨method, target, more, hsplit, rfl⟩
    rw [hsplit]
    rfl

theorem parseHead_eq_ok {bytes : Bytes} {head : Head} : parseHead bytes = .ok head ↔
    ∃ (text : String) (requestLine method target : List Char) (lines more : List (List Char)),
      utf8 text = bytes ∧ splitCrlf text.toList = requestLine :: lines ∧
      requestLine.splitOn ' ' = method :: target :: "HTTP/1.1".toList :: more ∧
      List.Forall₂ (fun line header => parseHeader line = .ok header) (lines.filter (· ≠ []))
        head.headers ∧
      contentLength head.headers = .ok head.contentLength ∧
      head.method = String.ofList method ∧ head.target = String.ofList target := by
  simp only [parseHead, bind_eq_ok, decodeHead_eq_ok, parseRequestLine_eq_ok, mapM_eq_ok,
    Except.ok.injEq]
  constructor
  · rintro ⟨text, hutf8, _, ⟨method, target, more, hsplit, rfl⟩, headers, hheaders, n, hn, rfl⟩
    cases hlines : splitCrlf text.toList with
    | nil => exact absurd hlines (splitCrlf_ne_nil _)
    | cons requestLine lines =>
      rw [hlines] at hsplit hheaders
      exact ⟨text, requestLine, method, target, lines, more, hutf8, hlines, hsplit, hheaders, hn, rfl,
        rfl⟩
  · obtain ⟨_, _, headers, n⟩ := head
    rintro ⟨text, requestLine, method, target, lines, more, hutf8, hlines, hsplit, hheaders, hn, rfl,
      rfl⟩
    refine ⟨text, hutf8, _, ⟨method, target, more, ?_, rfl⟩, headers, ?_, n, hn, rfl⟩
    · rw [hlines]
      exact hsplit
    · rw [hlines]
      exact hheaders

theorem announces_iff {start n : ℕ} : Announces buf start n ↔ ∃ i head, headEnd buf = some i ∧
    parseHead (buf.take i) = .ok head ∧ start = i + 4 ∧ n = head.contentLength := by
  unfold Announces
  simp only [parseHead_eq_ok]
  constructor
  · rintro ⟨text, requestLine, method, target, lines, more, headers, hend, hprefix, rfl, hlines,
      hsplit, hheaders, hn⟩
    refine ⟨_, ⟨String.ofList method, String.ofList target, headers, n⟩, hend, ⟨text, requestLine,
      method, target, lines, more, ?_, hlines, hsplit, hheaders, hn, rfl, rfl⟩, rfl, rfl⟩
    exact List.prefix_iff_eq_take.mp hprefix
  · rintro ⟨i, head, hend, ⟨text, requestLine, method, target, lines, more, hutf8, hlines, hsplit,
      hheaders, hn, -, -⟩, rfl, rfl⟩
    have hlen : (utf8 text).length = i := by
      have := headEnd_le hend
      rw [hutf8, List.length_take]
      omega
    exact ⟨text, requestLine, method, target, lines, more, head.headers, by rw [hlen]; exact hend,
      by rw [hutf8]; exact List.take_prefix _ _, by rw [hlen], hlines, hsplit, hheaders, hn⟩

theorem contentLength_lt {headers : List (String × String)} {n : ℕ}
    (h : contentLength headers = .ok n) : n < 2 ^ 64 := by
  have husize {value : String} {n : ℕ} (hv : parseUsize value = some n) : n < 2 ^ 64 := by
    unfold parseUsize at hv
    dsimp only at hv
    split_ifs at hv with hdigits
    rw [← Option.some.inj hv]
    exact hdigits.2.2
  unfold contentLength at h
  split at h
  · rw [← Except.ok.inj h]
    decide
  · split at h
    next hn =>
      rw [← Except.ok.inj h]
      exact husize hn
    · cases h

theorem addUsize_of_lt {a b : ℕ} (h : a + b < 2 ^ 64) : addUsize overflowChecks a b = .ok (a + b) :=
  if_pos h

/-- The parser panics exactly if the end of the announced body is no `usize`. -/
theorem parse_eq_panic : parse overflowChecks buf = .error .panic ↔
    ∃ start n, Announces buf start n ∧ 2 ^ 64 ≤ start + n := by
  simp only [announces_iff]
  cases hend : headEnd buf with
  | none => simp [parse, hend]
  | some i =>
    have hlen := headEnd_le hend
    rw [parse_of_headEnd hend]
    cases hhead : parseHead (buf.take i) with
    | error e => simp [Except.mapError, bind, Except.bind, hhead]
    | ok head =>
      have hn : head.contentLength < 2 ^ 64 := by
        obtain ⟨-, -, -, -, -, -, -, -, -, -, hn, -⟩ := parseHead_eq_ok.mp hhead
        exact contentLength_lt hn
      have hcond : (∃ start n, (∃ j head', some i = some j ∧ parseHead (buf.take j) = .ok head' ∧
          start = j + 4 ∧ n = head'.contentLength) ∧ 2 ^ 64 ≤ start + n) ↔
          2 ^ 64 ≤ i + 4 + head.contentLength := by
        constructor
        · rintro ⟨_, _, ⟨j, head', hj, hhead', rfl, rfl⟩, hle⟩
          obtain rfl := Option.some.inj hj
          rw [hhead] at hhead'
          rwa [Except.ok.inj hhead']
        · exact fun hle => ⟨_, _, ⟨i, head, rfl, hhead, rfl, rfl⟩, hle⟩
      rw [hcond]
      simp only [Except.mapError, bind, Except.bind]
      by_cases hfits : i + 4 + head.contentLength < 2 ^ 64
      · -- the body is sliced within the buffer
        rw [addUsize_of_lt hfits]
        dsimp only
        split_ifs with hshort
        · simp only [pure, Except.pure, reduceCtorEq, false_iff]
          omega
        · rw [sliceRange, if_pos (by omega)]
          simp only [pure, Except.pure, reduceCtorEq, false_iff]
          omega
      · cases overflowChecks with
        | true =>
          rw [addUsize, if_neg hfits]
          simp only [if_true, true_iff]
          omega
        | false =>
          -- the end wraps to one before the start
          have hwrap : (i + 4 + head.contentLength) % 2 ^ 64 < i + 4 := by omega
          rw [addUsize, if_neg hfits]
          simp only [Bool.false_eq_true, if_false]
          rw [if_neg (by omega), sliceRange, if_neg (by omega)]
          simp only [true_iff]
          omega

/-! ## Chunks -/

/-- The chunks in which bytes arrive. -/
structure Arrives (bytes : Bytes) (chunks : List Bytes) : Prop where
  flatten : chunks.flatten = bytes
  chunk : ∀ chunk ∈ chunks, chunk ≠ [] ∧ chunk.length ≤ 1024

/-- The end of the loop for a decision. -/
def outcome : Option (Except (Fault RequestError) Request) → Except HandleError Request
  | none => .error .closed
  | some (.ok request) => .ok request
  | some (.error fault) => .error (.parse fault)

/-- Within the limit the loop ends with the first decision. -/
theorem readRequest_eq {chunks : List Bytes} (h : (buf ++ chunks.flatten).length ≤ MAX_REQUEST) :
    readRequest overflowChecks buf chunks =
      outcome (Incremental.first (decision overflowChecks) buf chunks) := by
  induction chunks generalizing buf with
  | nil => rfl
  | cons chunk chunks ih =>
    rw [List.flatten_cons, ← List.append_assoc] at h
    have hlen := h
    rw [List.length_append] at hlen
    rw [readRequest, if_neg (by omega), Incremental.first, decision]
    cases hparse : parse overflowChecks (buf ++ chunk) with
    | error fault => rfl
    | ok request =>
      cases request with
      | none => exact ih h
      | some request => rfl

/-- What is routed depends on the bytes only. -/
theorem handle_eq {bytes : Bytes} {chunks : List Bytes} (h : Arrives bytes chunks)
    (hlen : bytes.length ≤ MAX_REQUEST) :
    handle overflowChecks chunks = outcome (decision overflowChecks bytes) := by
  obtain ⟨rfl, -⟩ := h
  rw [handle, readRequest_eq hlen, stable_decision.first_eq rfl, List.nil_append]

end

/-- On a buffer the parser does not panic; a request that it finds is found on every extension, and
an error stays one; and if the buffer is within the limit, what is routed does not depend on the
chunks in which it arrives. -/
structure SafeAndStable (overflowChecks : Bool) (buf : Bytes) : Prop where
  safe : parse overflowChecks buf ≠ .error .panic
  request : ∀ request, parse overflowChecks buf = .ok (some request) →
    ∀ more, parse overflowChecks (buf ++ more) = .ok (some request)
  error : ∀ e, parse overflowChecks buf = .error (.error e) →
    ∀ more, ∃ e', parse overflowChecks (buf ++ more) = .error (.error e')
  chunks : buf.length ≤ MAX_REQUEST → ∀ chunks chunks', Arrives buf chunks → Arrives buf chunks' →
    handle overflowChecks chunks = handle overflowChecks chunks'

/-- The parser is safe and stable on exactly the buffers that announce no body whose end is past the
integers of 64 bits. -/
theorem safeAndStable_iff (overflowChecks : Bool) (buf : Bytes) :
    SafeAndStable overflowChecks buf ↔ ¬ ∃ start n, Announces buf start n ∧ 2 ^ 64 ≤ start + n := by
  have hpanic : parse overflowChecks buf = .error .panic ↔ _ := parse_eq_panic
  rw [← hpanic]
  refine ⟨fun h => h.safe, fun hsafe => ⟨hsafe, ?_, ?_, ?_⟩⟩
  · intro request hparse more
    exact decision_eq_request.mp (stable_decision _ more _ (decision_eq_request.mpr hparse))
  · intro e hparse more
    exact ⟨e, decision_eq_fault.mp (stable_decision _ more _ (decision_eq_fault.mpr hparse))⟩
  · intro hlen chunks chunks' h h'
    rw [handle_eq h hlen, handle_eq h' hlen]

/-- A request whose Content-Length is the greatest integer of 64 bits. -/
def endlessRequest : Bytes := utf8 "POST /login HTTP/1.1\r\nContent-Length: 18446744073709551615\r\n\r\n"

theorem not_safeAndStable_endless : ¬ SafeAndStable true endlessRequest ∧
    ¬ SafeAndStable false endlessRequest := by
  have hpanic : ∀ overflowChecks, parse overflowChecks endlessRequest = .error .panic := by
    decide +kernel
  exact ⟨fun h => h.safe (hpanic true), fun h => h.safe (hpanic false)⟩

end Registry

end Pprev
