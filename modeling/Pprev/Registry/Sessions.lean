import Pprev.Notary.Notarised
import Pprev.Registry.Server

/-!
# Sessions with the registry

What the exchange of a notarised session says about the registry: the request line that is revealed
is the one the registry routes, and a response with the structure of a layout is a record, shown to
a connection with the token of an account.
-/

namespace Pprev

open Evm Threads

/-! ## Texts and their bytes -/

/-- Bytes that begin with a text are of a text that does. -/
theorem toList_prefix_of_utf8 {s t : String} (h : utf8 s <+: utf8 t) : s.toList <+: t.toList := by
  obtain ⟨rest, hrest⟩ := h
  refine List.isPrefix_of_utf8Encode_append_eq_utf8Encode ⟨rest.toArray⟩ (ByteArray.ext ?_)
  rw [← Array.toList_inj]
  simpa [utf8_eq, List.utf8Encode] using hrest

theorem notMem_toList {s : String} {c : Char} {b : UInt8} (hc : String.utf8EncodeChar c = [b])
    (h : b ∉ utf8 s) : c ∉ s.toList := by
  intro hmem
  refine h ?_
  rw [utf8_eq]
  exact List.mem_flatMap.mpr ⟨c, hmem, by rw [hc]; exact List.mem_singleton_self b⟩

/-- A part of a request target: it has no blank and does not end the line. -/
structure IsTarget (text : String) : Prop where
  blank : ' ' ∉ text.toList
  line : 13 ∉ utf8 text

namespace Registry

/-! ## The request line -/

theorem headEnd_getElem {buf : Bytes} {i : ℕ} (h : headEnd buf = some i) : buf[i]? = some 13 := by
  induction buf generalizing i with
  | nil => cases h
  | cons b l ih =>
    rw [headEnd_cons] at h
    split_ifs at h with htake
    · obtain rfl := Option.some.inj h
      rw [List.take_succ_cons] at htake
      rw [List.getElem?_cons_zero, (List.cons.inj htake).1]
    · obtain ⟨j, hj, rfl⟩ := Option.map_eq_some_iff.mp h
      rw [List.getElem?_cons_succ]
      exact ih hj

theorem splitCrlf_append {line text : List Char} (h : '\r' ∉ line) : ∃ first rest,
    splitCrlf text = first :: rest ∧ splitCrlf (line ++ text) = (line ++ first) :: rest := by
  induction line with
  | nil =>
    obtain ⟨first, rest, heq⟩ := List.exists_cons_of_ne_nil (splitCrlf_ne_nil text)
    exact ⟨first, rest, heq, heq⟩
  | cons c line ih =>
    obtain ⟨hc, hline⟩ := not_or.mp (mt List.mem_cons.mpr h)
    obtain ⟨first, rest, heq, happend⟩ := ih hline
    refine ⟨first, rest, heq, ?_⟩
    rw [List.cons_append, splitCrlf, happend]
    · rfl
    · rintro _ rfl
      exact absurd rfl hc

variable {overflowChecks : Bool}

/-- A request is parsed from bytes that have arrived. -/
theorem exists_parse {buf : Bytes} {chunks : List Bytes} {request : Request}
    (h : readRequest overflowChecks buf chunks = .ok request) :
    ∃ read, read <+: buf ++ chunks.flatten ∧ parse overflowChecks read = .ok (some request) := by
  induction chunks generalizing buf with
  | nil => cases h
  | cons chunk chunks ih =>
    rw [readRequest] at h
    rw [List.flatten_cons, ← List.append_assoc]
    split_ifs at h with hlarge
    split at h
    next => cases h
    next hparse =>
      obtain rfl := Except.ok.inj h
      exact ⟨buf ++ chunk, List.prefix_append _ _, hparse⟩
    next => exact ih h

/-- The head of a parsed request ends at a line end. -/
theorem exists_head {buf : Bytes} {request : Request}
    (h : parse overflowChecks buf = .ok (some request)) : ∃ i head, buf[i]? = some 13 ∧
      parseHead (buf.take i) = .ok head ∧ request.method = head.method ∧
      request.target = head.target := by
  cases hend : headEnd buf with
  | none =>
    rw [parse, hend] at h
    cases h
  | some i =>
    rw [parse_of_headEnd hend] at h
    simp only [bind_eq_ok, mapError_eq_ok] at h
    obtain ⟨head, hhead, bodyEnd, -, h⟩ := h
    split_ifs at h
    · cases h
    · obtain ⟨body, -, h⟩ := bind_eq_ok.mp h
      cases h
      exact ⟨i, head, headEnd_getElem hend, hhead, rfl, rfl⟩

/-- A text before a blank begins with a word. -/
theorem exists_word (text more : List Char) : ∃ word rest,
    text ++ ' ' :: more = word ++ ' ' :: rest ∧ ' ' ∉ word ∧ (' ' ∉ text → word = text) := by
  induction text with
  | nil => exact ⟨[], more, rfl, List.not_mem_nil, fun _ => rfl⟩
  | cons c text ih =>
    obtain ⟨word, rest, heq, hblank, hsame⟩ := ih
    by_cases hc : c = ' '
    · subst hc
      exact ⟨[], _, rfl, List.not_mem_nil, fun hno => absurd List.mem_cons_self hno⟩
    · refine ⟨c :: word, rest, by rw [List.cons_append, heq, List.cons_append], ?_, fun hno => ?_⟩
      · exact fun hmem => (List.mem_cons.mp hmem).elim (fun h => hc h.symm) hblank
      · rw [hsame (mt (List.mem_cons_of_mem _) hno)]

/-- Of two beginnings of a text, one without a byte is within what the other has before it. -/
theorem prefix_take_of_notMem {line read sent : Bytes} {b : UInt8} {i : ℕ} (hline : line <+: sent)
    (hread : read <+: sent) (hi : read[i]? = some b) (hb : b ∉ line) : line <+: read.take i := by
  have hlt : i < read.length := (List.getElem?_eq_some_iff.mp hi).1
  rcases le_or_gt line.length i with hle | hgt
  · refine List.prefix_of_prefix_length_le hline ((List.take_prefix _ _).trans hread) ?_
    rw [List.length_take]
    omega
  · have hsame := List.prefix_iff_getElem?.mp hread i hlt
    rw [← List.getElem?_eq_getElem hlt, hi, List.prefix_iff_getElem?.mp hline i hgt] at hsame
    exact absurd (Option.some.inj hsame ▸ List.getElem_mem hgt) hb

/-- The request line that a client sends is the one that the registry reads: its target begins as
the client's does, and is the client's if that has no blank. -/
theorem target_of_sent {sent : Bytes} {chunks : List Bytes} {request : Request}
    (h : handle overflowChecks chunks = .ok request) (hchunks : chunks.flatten <+: sent)
    {start rest : String} (hline : utf8 ("GET " ++ (start ++ rest) ++ " HTTP/1.1") <+: sent)
    (hstart : IsTarget start) (hrest : 13 ∉ utf8 rest) :
    request.method = "GET" ∧ ∃ rest', request.target = start ++ rest' ∧
      (' ' ∉ rest.toList → rest' = rest) := by
  set line := "GET " ++ (start ++ rest) ++ " HTTP/1.1" with hdef
  have hcr : 13 ∉ utf8 line := by
    simp only [hdef, utf8_append, List.mem_append, hstart.line, hrest, or_false]
    decide
  obtain ⟨read, hread, hparse⟩ := exists_parse h
  obtain ⟨i, head, hi, hhead, hmethod, htarget⟩ := exists_head hparse
  obtain ⟨text, requestLine, method, target, lines, more, htext, hlines, hsplit, -, -, hmethod',
    htarget'⟩ := parseHead_eq_ok.mp hhead
  -- the line ends before the head does
  have hprefix := prefix_take_of_notMem hline (hread.trans hchunks) hi hcr
  rw [← htext] at hprefix
  obtain ⟨after, hafter⟩ := toList_prefix_of_utf8 hprefix
  obtain ⟨first, lines', -, hsplit'⟩ := @splitCrlf_append _ after (notMem_toList rfl hcr)
  rw [hafter, hlines] at hsplit'
  obtain ⟨rfl, -⟩ := List.cons.inj hsplit'
  obtain ⟨word, more', hword, hblank, hsame⟩ :=
    exists_word rest.toList ("HTTP/1.1".toList ++ first)
  have hwords : line.toList ++ first =
      "GET".toList ++ ' ' :: ((start.toList ++ word) ++ ' ' :: more') := by
    rw [List.append_assoc, ← hword, hdef]
    simp
  have hnoblank : ' ' ∉ start.toList ++ word := by
    rw [List.mem_append]
    exact not_or.mpr ⟨hstart.blank, hblank⟩
  rw [hwords, List.splitOn_append_cons_self_of_not_mem (by decide),
    List.splitOn_append_cons_self_of_not_mem hnoblank] at hsplit
  obtain ⟨hget, hrest⟩ := List.cons.inj hsplit
  refine ⟨?_, String.ofList word, ?_, fun hno => ?_⟩
  · rw [hmethod, hmethod', ← hget]
    rfl
  · rw [htarget, htarget', ← (List.cons.inj hrest).1, String.ofList_append, String.ofList_toList]
  · rw [hsame hno, String.ofList_toList]

/-! ## Records -/

/-- The registry has answered the client of an exchange, after it had read some of what was sent. -/
def Session (p : Pool Connection State (Except HandleError Response)) (x : Exchange) : Prop :=
  ∃ k c, c.chunks.flatten <+: x.sent ∧ p.Ended k c (.ok ⟨x.received⟩)

/-- A connection has ended with these bytes, at a request with a token that a connection got by
logging in to the account with its password. -/
def ShownTo (R : Registry) (credentials : Bytes → Option Credentials) (overflowChecks : Bool)
    (p : Pool Connection State (Except HandleError Response)) (account : String) (bytes : Bytes) :
    Prop :=
  ∃ k c request token, p.Ended k c (.ok ⟨bytes⟩) ∧ handle overflowChecks c.chunks = .ok request ∧
    bearer (request.header "authorization") = some token ∧
    ∃ login ∈ p.threads.map Thread.input, R.LogsIn credentials overflowChecks login token account

/-- No target is that of two sources. -/
structure Routes (R : Registry) : Prop where
  income : ∀ l, R.phases.income = some l →
    ¬R.layout.pathPrefix.toList <+: (l.path "").toList ∧
      ∀ tenancy, R.phases.tenancy = some tenancy →
        ¬tenancy.pathPrefix.toList <+: (l.path "").toList
  tenancy : ∀ l, R.phases.tenancy = some l → ¬R.layout.pathPrefix.toList <+: l.pathPrefix.toList ∧
    ¬l.pathPrefix.toList <+: R.layout.pathPrefix.toList

/-- A response without a record has no quote. -/
theorem quote_notMem_status {code : ℕ} (hcode : code ∈ [401, 404]) {reason : String}
    (hreason : 34 ∉ utf8 reason) : 34 ∉ (Response.status code reason).bytes := by
  simp only [Response.status, Response.json, utf8_append, List.mem_append, hreason, or_false]
  revert code
  decide

section

variable {R : Registry} {credentials : Bytes → Option Credentials}
  {p : Pool Connection State (Except HandleError Response)} {x : Exchange}

/-- A session that requests a target and gets an answer with a quote is shown the record of a
source, for an account that it has the token of. -/
theorem Session.exists_view (hp : Threads.Runs (R.serve credentials overflowChecks) idle p)
    (hx : Session p x) {start rest : String}
    (hline : utf8 ("GET " ++ (start ++ rest) ++ " HTTP/1.1") <+: x.sent) (hstart : IsTarget start)
    (hrest : 13 ∉ utf8 rest) (hquote : 34 ∈ x.received) :
    ∃ rest' source account, (' ' ∉ rest.toList → rest' = rest) ∧
      R.source (start ++ rest') = some source ∧
      R.ShownTo credentials overflowChecks p account x.received ∧
      R.view account source = some x.received := by
  obtain ⟨k, c, hchunks, hended⟩ := hx
  obtain ⟨request, hrequest, hanswers⟩ := ended hp hended
  obtain ⟨hget, rest', htarget, hsame⟩ := target_of_sent hrequest hchunks hline hstart hrest
  have hstatus {code : ℕ} (hcode : code ∈ [401, 404]) {reason : String}
      (hreason : 34 ∉ utf8 reason) : (⟨x.received⟩ : Response) ≠ .status code reason := fun heq =>
    quote_notMem_status hcode hreason (heq ▸ hquote)
  generalize hresponse : (⟨x.received⟩ : Response) = response at hanswers hstatus
  obtain ⟨rfl, -⟩ | ⟨token, account, source, hbearer, hmem, hsource, rfl⟩ | ⟨rfl, -⟩ :=
    hanswers.of_get hget
  · exact absurd rfl (hstatus (by decide) (by decide))
  · cases hview : R.view account source with
    | none =>
      rw [hview] at hstatus
      exact absurd rfl (hstatus (by decide) (by decide))
    | some bytes =>
      rw [hview] at hresponse
      have hlogin := (safe_of_runs hp).inv.1 token account hmem
      refine ⟨rest', source, account, hsame, htarget ▸ hsource,
        ⟨k, c, request, token, hended, hrequest, hbearer, hlogin⟩, ?_⟩
      rw [hview, ← Response.mk.inj hresponse]
  · exact absurd rfl (hstatus (by decide) (by decide))

theorem stripPrefix_append (start rest : String) :
    stripPrefix (start ++ rest) start = some rest := by
  rw [stripPrefix, if_pos (by simp)]
  simp

theorem prefix_of_stripPrefix {text start rest : String} (h : stripPrefix text start = some rest) :
    start.toList <+: text.toList := by
  rw [eq_append_of_stripPrefix h]
  simp

theorem Routes.source_title (h : R.Routes) (rest : String) :
    R.source (R.layout.pathPrefix ++ rest) = some (.title rest) := by
  have hstart : R.layout.pathPrefix.toList <+: (R.layout.pathPrefix ++ rest).toList := by simp
  unfold Registry.source
  split
  next l hincome =>
    obtain ⟨hl, htarget⟩ := Option.filter_eq_some_iff.mp hincome
    exact absurd (of_decide_eq_true htarget ▸ hstart) (h.income l hl).1
  next =>
    split
    next htenancy =>
      obtain ⟨l, hl, hstrip⟩ := Option.bind_eq_some_iff.mp htenancy
      obtain ⟨id, hid, -⟩ := Option.map_eq_some_iff.mp hstrip
      rcases List.prefix_or_prefix_of_prefix hstart (prefix_of_stripPrefix hid) with hpre | hpre
      · exact absurd hpre (h.tenancy l hl).1
      · exact absurd hpre (h.tenancy l hl).2
    next => rw [stripPrefix_append, Option.map_some]

theorem Routes.source_tenancy (h : R.Routes) {l : RecordLayout} (hl : R.phases.tenancy = some l)
    (id : String) : R.source (l.path id) = some (.tenancy l id) := by
  have hstart : l.pathPrefix.toList <+: (l.path id).toList := by simp [RecordLayout.path]
  unfold Registry.source
  split
  next income hincome =>
    obtain ⟨hincome, htarget⟩ := Option.filter_eq_some_iff.mp hincome
    exact absurd (of_decide_eq_true htarget ▸ hstart) ((h.income income hincome).2 l hl)
  next =>
    rw [hl, Option.bind_some, RecordLayout.path, stripPrefix_append, Option.map_some]

theorem source_income {l : RecordLayout} (hl : R.phases.income = some l) :
    R.source (l.path "") = some (.income l) := by
  unfold Registry.source
  rw [hl, Option.filter_some, if_pos (by simp)]

/-- A response that agrees with a template of which a key is marked has a quote. -/
theorem quote_mem {ps : List (Template.Piece UInt8)} {vs : List Bytes} {template : Bytes}
    {revealed values : List Range} (h : Filled ps vs template revealed values) {name : String}
    (hname : keyText name ∈ Template.markedTexts ps)
    (hstructured : ∀ range ∈ revealed, range.part x.received = range.part template) :
    34 ∈ x.received := by
  rw [← h.map_revealed] at hname
  obtain ⟨range, hrange, hpart⟩ := List.mem_map.mp hname
  have hquote : (34 : UInt8) ∈ range.part x.received := by
    rw [hstructured range hrange, hpart, keyText, utf8_append, utf8_append]
    exact List.mem_append_left _ (List.mem_append_left _ (by decide))
  exact List.mem_of_mem_drop (List.mem_of_mem_take hquote)

theorem ok_of_toOption {ε α : Type} {y : Except ε α} {f : α → Bytes} {bytes : Bytes}
    (h : (y.map f).toOption = some bytes) : ∃ a, y = .ok a ∧ f a = bytes := by
  cases y with
  | error e => cases h
  | ok a => exact ⟨a, rfl, Option.some.inj h⟩

variable {sha256 : Bytes → Bytes} {S : Set Bytes} {shape : ResponseShape} {hashes : List Bytes32}

section

variable (hp : Threads.Runs (R.serve credentials overflowChecks) idle p) (hx : Session p x)

include hp hx

/-- A session with the structure of a title is shown a title record. -/
theorem Session.shows_title (hroutes : R.Routes) (hvalid : R.layout.validate = .ok ())
    (htarget : IsTarget R.layout.pathPrefix) {propertyId : String} (hid : 13 ∉ utf8 propertyId)
    (hshape : R.layout.shape propertyId = .ok shape) (hhas : x.Has sha256 S shape hashes) :
    ∃ account record r, R.ShownTo credentials overflowChecks p account r.bytes ∧
      record ∈ R.fixtures.records ∧ R.layout.renderResponse account record = .ok r ∧
      x.received = r.bytes ∧ shape.hidden = r.ranges.hidden := by
  obtain ⟨t, ht, hok⟩ := bind_eq_ok.mp hshape
  obtain rfl := Except.ok.inj hok
  have hmarked : keyText KEY_ACCOUNT ∈ Template.markedTexts R.layout.pieces := by
    simp [markedTexts_pieces]
  have hquote := quote_mem (Layout.filled hvalid ht) hmarked hhas.structured
  obtain ⟨rest, source, account, -, hsource, hshownTo, hview⟩ :=
    hx.exists_view hp hhas.requestLine htarget hid hquote
  obtain rfl := Option.some.inj ((hroutes.source_title rest).symm.trans hsource)
  obtain ⟨record, hrecord, hshown⟩ := Option.bind_eq_some_iff.mp hview
  obtain ⟨r, hr, hbytes⟩ := ok_of_toOption hshown
  exact ⟨account, record, r, hbytes ▸ hshownTo, (findTitle_eq hrecord).1, hr, hbytes.symm,
    congrArg ResponseRanges.hidden (Layout.ranges_eq_ranges hvalid ht hr)⟩

/-- A session with the structure of an income is shown the income of the account. -/
theorem Session.shows_income {l : RecordLayout} (hl : R.phases.income = some l)
    (hvalid : l.validate = .ok ()) (htarget : IsTarget l.pathPrefix)
    (hshape : l.shape "" = .ok shape) (hhas : x.Has sha256 S shape hashes) :
    ∃ record r, R.ShownTo credentials overflowChecks p record.account r.bytes ∧
      record ∈ R.fixtures.incomes ∧
      l.renderResponse record.account [record.monthlyIncome] = .ok r ∧
      x.received = r.bytes ∧ shape.hidden = r.ranges.hidden := by
  obtain ⟨t, ht, hok⟩ := bind_eq_ok.mp hshape
  obtain rfl := Except.ok.inj hok
  have hmarked : keyText KEY_ACCOUNT ∈ Template.markedTexts l.pieces := by
    simp [markedTexts_recordPieces]
  have hquote := quote_mem (RecordLayout.filled hvalid ht) hmarked hhas.structured
  obtain ⟨rest, source, account, hsame, hsource, hshownTo, hview⟩ :=
    hx.exists_view hp hhas.requestLine htarget List.not_mem_nil hquote
  obtain rfl := hsame List.not_mem_nil
  obtain rfl := Option.some.inj ((source_income hl).symm.trans hsource)
  obtain ⟨record, hrecord, hshown⟩ := Option.bind_eq_some_iff.mp hview
  obtain ⟨r, hr, hbytes⟩ := ok_of_toOption hshown
  obtain ⟨hmem, rfl⟩ := findIncome_eq hrecord
  exact ⟨record, r, hbytes ▸ hshownTo, hmem, hr, hbytes.symm,
    congrArg RecordRanges.hidden (RecordLayout.ranges_eq_ranges hvalid ht hr)⟩

/-- A session with the structure of a tenancy is shown the notation that it asks for. -/
theorem Session.shows_tenancy (hroutes : R.Routes) {l : RecordLayout}
    (hl : R.phases.tenancy = some l)
    (hvalid : l.validate = .ok ()) (htarget : IsTarget l.pathPrefix) {subject : String}
    (hsubject : IsTarget subject) (hshape : l.shape subject = .ok shape)
    (hhas : x.Has sha256 S shape hashes) :
    ∃ account n r, R.ShownTo credentials overflowChecks p account r.bytes ∧
      n ∈ R.fixtures.tenancies ∧ n.id = subject ∧ l.renderResponse account n.values = .ok r ∧
      x.received = r.bytes ∧ shape.hidden = r.ranges.hidden := by
  obtain ⟨t, ht, hok⟩ := bind_eq_ok.mp hshape
  obtain rfl := Except.ok.inj hok
  have hmarked : keyText KEY_ACCOUNT ∈ Template.markedTexts l.pieces := by
    simp [markedTexts_recordPieces]
  have hquote := quote_mem (RecordLayout.filled hvalid ht) hmarked hhas.structured
  obtain ⟨rest, source, account, hsame, hsource, hshownTo, hview⟩ :=
    hx.exists_view hp hhas.requestLine htarget hsubject.line hquote
  obtain rfl := hsame hsubject.blank
  obtain rfl := Option.some.inj ((hroutes.source_tenancy hl rest).symm.trans hsource)
  obtain ⟨n, hn, hshown⟩ := Option.bind_eq_some_iff.mp hview
  obtain ⟨r, hr, hbytes⟩ := ok_of_toOption hshown
  obtain ⟨hmem, hid⟩ := findTenancy_eq hn
  exact ⟨account, n, r, hbytes ▸ hshownTo, hmem, hid, hr, hbytes.symm,
    congrArg RecordRanges.hidden (RecordLayout.ranges_eq_ranges hvalid ht hr)⟩

end

end

end Registry

end Pprev
