import Mathlib.Data.List.Infix
import Pprev.Data.Hex
import Pprev.Data.Threads
import Pprev.Notary.Linkage
import Pprev.Registry.Request

/-!
# The registry as a server

The state, the routes and the connections of `mock-registry/src/lib.rs`. Each connection is a thread
that reads one request and answers it; the tokens and the log of sent records are shared, each
behind a lock that is held for one action. The JSON reader of credentials is a parameter.
-/

namespace Pprev

open Evm Threads

namespace Registry

structure Account where
  id : String
  password : String

/-- The eligibility record of one account. -/
structure IncomeRecord where
  account : String
  monthlyIncome : String

structure TenancyNotation where
  id : String
  propertyId : String
  tenant : String
  recordDate : String

def TenancyNotation.values (n : TenancyNotation) : List String :=
  [n.propertyId, n.tenant, n.recordDate]

structure Fixtures where
  accounts : List Account
  records : List TitleRecord
  incomes : List IncomeRecord
  tenancies : List TenancyNotation

/-- Layouts of the Apply and Settle sources, when the registry serves them. -/
structure PhaseLayouts where
  income : Option RecordLayout
  tenancy : Option RecordLayout

/-- Why a registry is not built. -/
inductive RegistryError where
  | layout (e : LayoutError)
  | record (e : RecordLayoutError)

/-! ## Building a registry -/

/-- Every record renders under its layout. -/
structure Renders (layout : Layout) (phases : PhaseLayouts) (fixtures : Fixtures) : Prop where
  title : ∀ record ∈ fixtures.records, ∀ account ∈ fixtures.accounts,
    ∃ r, layout.renderResponse account.id record = .ok r
  income : ∀ l, phases.income = some l → ∀ record ∈ fixtures.incomes,
    ∃ r, l.renderResponse record.account [record.monthlyIncome] = .ok r
  tenancy : ∀ l, phases.tenancy = some l → ∀ notation_ ∈ fixtures.tenancies,
    ∀ account ∈ fixtures.accounts, ∃ r, l.renderResponse account.id notation_.values = .ok r

/-- A record renders. -/
def renderable {ε α : Type} (rendered : Except ε α) (f : ε → RegistryError) :
    Except RegistryError Unit :=
  match rendered with
  | .ok _ => .ok ()
  | .error e => .error (f e)

def checkRecords (layout : Layout) (phases : PhaseLayouts) (fixtures : Fixtures) :
    Except RegistryError Unit := do
  fixtures.records.forM fun record => fixtures.accounts.forM fun account =>
    renderable (layout.renderResponse account.id record) .layout
  phases.income.toList.forM fun income => fixtures.incomes.forM fun record =>
    renderable (income.renderResponse record.account [record.monthlyIncome]) .record
  phases.tenancy.toList.forM fun tenancy => fixtures.tenancies.forM fun notation_ =>
    fixtures.accounts.forM fun account =>
      renderable (tenancy.renderResponse account.id notation_.values) .record

theorem renderable_eq_ok {ε α : Type} {rendered : Except ε α} {f : ε → RegistryError} {u : Unit} :
    renderable rendered f = .ok u ↔ ∃ a, rendered = .ok a := by
  cases rendered <;> simp [renderable]

theorem checkRecords_eq_ok {layout : Layout} {phases : PhaseLayouts} {fixtures : Fixtures} :
    checkRecords layout phases fixtures = .ok () ↔ Renders layout phases fixtures := by
  simp only [checkRecords, bind_eq_ok, forM_eq_ok, renderable_eq_ok, exists_const,
    Option.mem_toList]
  exact ⟨fun ⟨htitle, hincome, htenancy⟩ => ⟨htitle, hincome, htenancy⟩,
    fun h => ⟨h.title, h.income, h.tenancy⟩⟩

end Registry

/-- A registry whose records all render. -/
structure Registry where
  layout : Layout
  phases : Registry.PhaseLayouts
  fixtures : Registry.Fixtures
  renders : Registry.Renders layout phases fixtures

namespace Registry

def withPhases (layout : Layout) (phases : PhaseLayouts) (fixtures : Fixtures) :
    Except RegistryError Registry :=
  match h : checkRecords layout phases fixtures with
  | .ok () => .ok ⟨layout, phases, fixtures, checkRecords_eq_ok.mp h⟩
  | .error e => .error e

/-- The issued tokens with their accounts, the latest first, and the record responses sent so far,
in order. -/
structure State where
  tokens : List (String × String)
  sent : List Bytes

def State.initial : State := ⟨[], []⟩

/-! ## Responses -/

structure Response where
  bytes : Bytes
  deriving DecidableEq

namespace Response

def json (code : ℕ) (reason body : String) : Response :=
  ⟨utf8 ("HTTP/1.1 " ++ toString code ++ " " ++ reason ++
    "\r\nContent-Type: application/json\r\nContent-Length: " ++ toString (utf8 body).length ++
    "\r\nConnection: close\r\n\r\n" ++ body)⟩

def status (code : ℕ) (reason : String) : Response := json code reason "\x7b\x7d"

/-- A response with an empty object. -/
def IsStatus (r : Response) : Prop := utf8 "\x7b\x7d" <:+ r.bytes

instance (r : Response) : Decidable r.IsStatus := by unfold IsStatus; infer_instance

end Response

def Request.header (request : Request) (name : String) : Option String :=
  (request.headers.find? fun header => eqIgnoreAsciiCase header.1 name).map (·.2)

/-- The text after the first part, if it starts with this. -/
def stripPrefix (text start : String) : Option String :=
  if start.toList <+: text.toList then some (String.ofList (text.toList.drop start.toList.length))
  else none

structure Credentials where
  account : String
  password : String
  deriving DecidableEq

/-! ## Routes -/

/-- The token that is made of random bytes. -/
def tokenOf (raw : Bytes) : String := asciiText (Hex.encode raw)

/-- The answer to a login with a token. -/
def tokenResponse (token : String) : Response :=
  .json 200 "OK" ("\x7b\"token\":\"" ++ token ++ "\"\x7d")

/-- The account that is known under the credentials. -/
def known (R : Registry) (credentials : Credentials) : Bool :=
  R.fixtures.accounts.any fun a => a.id = credentials.account && a.password = credentials.password

/-- Answers a login; the random bytes are used if it succeeds. -/
def login (R : Registry) (credentials : Option Credentials) (raw : Bytes) : Code State Response :=
  match credentials with
  | none => return .status 400 "Bad Request"
  | some credentials =>
    if R.known credentials then do
      Code.modify fun s => { s with tokens := (tokenOf raw, credentials.account) :: s.tokens }
      return tokenResponse (tokenOf raw)
    else return .status 401 "Unauthorized"

/-- The token of an Authorization header. -/
def bearer (authorization : Option String) : Option String :=
  authorization.bind fun value => stripPrefix value "Bearer "

/-- The account of a bearer token. -/
def accountOf (authorization : Option String) : Code State (Option String) :=
  match bearer authorization with
  | none => return none
  | some token => do
    let s ← Code.read
    return s.tokens.lookup token

/-- Records the bytes of a rendered response and returns it. -/
def send (bytes : Bytes) : Code State Response := do
  Code.modify fun s => { s with sent := s.sent ++ [bytes] }
  return ⟨bytes⟩

/-- Answers with the record that is found for the account of the token. -/
def respond {ρ ε : Type} (authorization : Option String) (find : String → Option ρ)
    (render : String → ρ → Except ε Bytes) : Code State Response := do
  match ← accountOf authorization with
  | none => return .status 401 "Unauthorized"
  | some account =>
    match find account with
    | none => return .status 404 "Not Found"
    | some record =>
      match render account record with
      | .ok bytes => send bytes
      | .error _ => return .status 500 "Internal Server Error"

section

variable (R : Registry)

def findIncome (account : String) : Option IncomeRecord :=
  R.fixtures.incomes.find? fun r => r.account = account

def findTenancy (id : String) : Option TenancyNotation :=
  R.fixtures.tenancies.find? fun n => n.id = id

def findTitle (propertyId : String) : Option TitleRecord :=
  R.fixtures.records.find? fun r => r.propertyId = propertyId

def income (layout : RecordLayout) (authorization : Option String) : Code State Response :=
  respond authorization R.findIncome fun account record =>
    (layout.renderResponse account [record.monthlyIncome]).map (·.bytes)

def tenancy (layout : RecordLayout) (id : String) (authorization : Option String) :
    Code State Response :=
  respond authorization (fun _ => R.findTenancy id) fun account notation_ =>
    (layout.renderResponse account notation_.values).map (·.bytes)

def title (propertyId : String) (authorization : Option String) : Code State Response :=
  respond authorization (fun _ => R.findTitle propertyId) fun account record =>
    (R.layout.renderResponse account record).map (·.bytes)

/-- What a target names. -/
inductive Source where
  | income (layout : RecordLayout)
  | tenancy (layout : RecordLayout) (id : String)
  | title (propertyId : String)

/-- The income layout comes first, then the tenancy layout. -/
def source (target : String) : Option Source :=
  match R.phases.income.filter fun income => target = income.path "" with
  | some income => some (.income income)
  | none =>
    match R.phases.tenancy.bind fun tenancy =>
      (stripPrefix target tenancy.pathPrefix).map (Source.tenancy tenancy) with
    | some tenancy => some tenancy
    | none => (stripPrefix target R.layout.pathPrefix).map .title

def route (credentials : Bytes → Option Credentials) (request : Request) (raw : Bytes) :
    Code State Response :=
  let authorization := request.header "authorization"
  if request.method = "POST" ∧ request.target = "/login" then
    R.login (credentials request.body) raw
  else if request.method = "GET" then
    match R.source request.target with
    | some (.income income) => R.income income authorization
    | some (.tenancy tenancy id) => R.tenancy tenancy id authorization
    | some (.title propertyId) => R.title propertyId authorization
    | none => return .status 404 "Not Found"
  else return .status 405 "Method Not Allowed"

/-- A connection: the chunks that are read from it until it is closed, and the random bytes that it
would draw. -/
structure Connection where
  chunks : List Bytes
  raw : Bytes

/-- Serves one connection. -/
def serve (credentials : Bytes → Option Credentials) (overflowChecks : Bool) (c : Connection) :
    Code State (Except HandleError Response) :=
  match handle overflowChecks c.chunks with
  | .error e => return .error e
  | .ok request => do
    let response ← R.route credentials request c.raw
    return .ok response

end

/-! ## What is answered -/

section

variable (R : Registry) (credentials : Bytes → Option Credentials) (overflowChecks : Bool)

/-- The record that a source names, as it is shown to an account. -/
def view (account : String) : Source → Option Bytes
  | .income layout => (R.findIncome account).bind fun record =>
      ((layout.renderResponse account [record.monthlyIncome]).map (·.bytes)).toOption
  | .tenancy layout id => (R.findTenancy id).bind fun n =>
      ((layout.renderResponse account n.values).map (·.bytes)).toOption
  | .title propertyId => (R.findTitle propertyId).bind fun record =>
      ((R.layout.renderResponse account record).map (·.bytes)).toOption

/-- A response with a record, or else that there is none. -/
def found : Option Bytes → Response
  | some bytes => ⟨bytes⟩
  | none => .status 404 "Not Found"

/-- The bytes are the record at a target as it is shown to an account; an income is shown to its own
account only. -/
inductive Shows (account : String) : String → Bytes → Prop where
  | income {layout : RecordLayout} {record : IncomeRecord} {r : RenderedRecord} :
      R.phases.income = some layout → record ∈ R.fixtures.incomes → record.account = account →
      layout.renderResponse account [record.monthlyIncome] = .ok r →
      Shows account (layout.path "") r.bytes
  | tenancy {layout : RecordLayout} {n : TenancyNotation} {r : RenderedRecord} :
      R.phases.tenancy = some layout → n ∈ R.fixtures.tenancies →
      layout.renderResponse account n.values = .ok r → Shows account (layout.path n.id) r.bytes
  | title {record : TitleRecord} {r : Rendered} : record ∈ R.fixtures.records →
      R.layout.renderResponse account record = .ok r →
      Shows account (R.layout.path record.propertyId) r.bytes

/-- A connection that logs in to an account with its password, and the token that it gets. -/
def LogsIn (c : Connection) (token account : String) : Prop :=
  ∃ request password, handle overflowChecks c.chunks = .ok request ∧ request.method = "POST" ∧
    request.target = "/login" ∧ credentials request.body = some ⟨account, password⟩ ∧
    ⟨account, password⟩ ∈ R.fixtures.accounts ∧ token = tokenOf c.raw

/-- How a request is answered while some tokens are issued, of which `old` were there before it. -/
inductive Answers (old tokens : List (String × String)) (raw : Bytes) (request : Request) :
    Response → Prop where
  | malformed : request.method = "POST" → request.target = "/login" →
      credentials request.body = none → Answers old tokens raw request (.status 400 "Bad Request")
  | refused {given : Credentials} : request.method = "POST" → request.target = "/login" →
      credentials request.body = some given → ¬ R.known given →
      Answers old tokens raw request (.status 401 "Unauthorized")
  | issued {given : Credentials} : request.method = "POST" → request.target = "/login" →
      credentials request.body = some given → R.known given →
      (tokenOf raw, given.account) ∈ tokens →
      Answers old tokens raw request (tokenResponse (tokenOf raw))
  | unauthorized : request.method = "GET" →
      (∀ token account, bearer (request.header "authorization") = some token →
        (token, account) ∉ old) → Answers old tokens raw request (.status 401 "Unauthorized")
  | shown {token account : String} {source : Source} : request.method = "GET" →
      bearer (request.header "authorization") = some token → (token, account) ∈ tokens →
      R.source request.target = some source →
      Answers old tokens raw request (found (R.view account source))
  | nothing : request.method = "GET" → R.source request.target = none →
      Answers old tokens raw request (.status 404 "Not Found")
  | notAllowed : ¬(request.method = "POST" ∧ request.target = "/login") →
      request.method ≠ "GET" → Answers old tokens raw request (.status 405 "Method Not Allowed")

end

section

variable {R : Registry} {credentials : Bytes → Option Credentials} {overflowChecks : Bool}

theorem eq_append_of_stripPrefix {text start rest : String}
    (h : stripPrefix text start = some rest) :
    text = start ++ rest := by
  unfold stripPrefix at h
  split_ifs at h with hprefix
  obtain rfl := Option.some.inj h
  obtain ⟨l, hl⟩ := hprefix
  rw [← String.toList_inj, String.toList_append, String.toList_ofList, ← hl, List.drop_left]

theorem findIncome_eq {account : String} {record : IncomeRecord}
    (h : R.findIncome account = some record) :
    record ∈ R.fixtures.incomes ∧ record.account = account := by
  unfold findIncome at h
  exact ⟨List.mem_of_find?_eq_some h, by simpa using List.find?_some h⟩

theorem findTenancy_eq {id : String} {n : TenancyNotation} (h : R.findTenancy id = some n) :
    n ∈ R.fixtures.tenancies ∧ n.id = id := by
  unfold findTenancy at h
  exact ⟨List.mem_of_find?_eq_some h, by simpa using List.find?_some h⟩

theorem findTitle_eq {propertyId : String} {record : TitleRecord}
    (h : R.findTitle propertyId = some record) :
    record ∈ R.fixtures.records ∧ record.propertyId = propertyId := by
  unfold findTitle at h
  exact ⟨List.mem_of_find?_eq_some h, by simpa using List.find?_some h⟩

/-- The layouts that a source needs. -/
def Source.Served (R : Registry) (target : String) : Source → Prop
  | .income layout => R.phases.income = some layout ∧ target = layout.path ""
  | .tenancy layout id => R.phases.tenancy = some layout ∧ target = layout.path id
  | .title propertyId => target = R.layout.path propertyId

theorem served_of_source {target : String} {source : Source}
    (h : R.source target = some source) : source.Served R target := by
  unfold Registry.source at h
  split at h
  next income hincome =>
    obtain rfl := Option.some.inj h
    obtain ⟨hlayout, htarget⟩ := Option.filter_eq_some_iff.mp hincome
    exact ⟨hlayout, of_decide_eq_true htarget⟩
  next =>
    split at h
    next tenancy htenancy =>
      obtain rfl := Option.some.inj h
      obtain ⟨layout, hlayout, hstrip⟩ := Option.bind_eq_some_iff.mp htenancy
      obtain ⟨id, hid, rfl⟩ := Option.map_eq_some_iff.mp hstrip
      exact ⟨hlayout, eq_append_of_stripPrefix hid⟩
    next =>
      obtain ⟨propertyId, hid, rfl⟩ := Option.map_eq_some_iff.mp h
      exact eq_append_of_stripPrefix hid

/-- What a view shows is the record at the target. -/
theorem shows_of_view {account target : String} {source : Source} {bytes : Bytes}
    (hsource : R.source target = some source) (h : R.view account source = some bytes) :
    R.Shows account target bytes := by
  have hbytes {ε α : Type} {x : Except ε α} {f : α → Bytes}
      (hx : (x.map f).toOption = some bytes) : ∃ r, x = .ok r ∧ f r = bytes := by
    cases x with
    | error e => cases hx
    | ok r => exact ⟨r, rfl, Option.some.inj hx⟩
  have hserved := served_of_source hsource
  cases source with
  | income layout =>
    obtain ⟨record, hrecord, hshown⟩ := Option.bind_eq_some_iff.mp h
    obtain ⟨hmem, hown⟩ := findIncome_eq hrecord
    obtain ⟨r, hr, rfl⟩ := hbytes hshown
    rw [hserved.2]
    exact .income hserved.1 hmem hown hr
  | tenancy layout id =>
    obtain ⟨n, hn, hshown⟩ := Option.bind_eq_some_iff.mp h
    obtain ⟨hmem, rfl⟩ := findTenancy_eq hn
    obtain ⟨r, hr, rfl⟩ := hbytes hshown
    rw [hserved.2]
    exact .tenancy hserved.1 hmem hr
  | title propertyId =>
    obtain ⟨record, hrecord, hshown⟩ := Option.bind_eq_some_iff.mp h
    obtain ⟨hmem, rfl⟩ := findTitle_eq hrecord
    obtain ⟨r, hr, rfl⟩ := hbytes hshown
    rw [show target = R.layout.path record.propertyId from hserved]
    exact .title hmem hr

theorem known_iff {given : Credentials} :
    R.known given ↔ ⟨given.account, given.password⟩ ∈ R.fixtures.accounts := by
  simp only [known, List.any_eq_true, Bool.and_eq_true, decide_eq_true_eq]
  constructor
  · rintro ⟨a, ha, hid, hpassword⟩
    rwa [← hid, ← hpassword]
  · exact fun h => ⟨_, h, rfl, rfl⟩

theorem Answers.mono {old tokens tokens' : List (String × String)} {raw : Bytes} {request : Request}
    {response : Response} (hsub : tokens ⊆ tokens')
    (h : R.Answers credentials old tokens raw request response) :
    R.Answers credentials old tokens' raw request response := by
  cases h with
  | malformed hm ht hc => exact .malformed hm ht hc
  | refused hm ht hc hk => exact .refused hm ht hc hk
  | issued hm ht hc hk hmem => exact .issued hm ht hc hk (hsub hmem)
  | unauthorized hm hold => exact .unauthorized hm hold
  | shown hm hb hmem hs => exact .shown hm hb (hsub hmem) hs
  | nothing hm hs => exact .nothing hm hs
  | notAllowed hp hm => exact .notAllowed hp hm

end

/-! ## Connections among the others -/

/-- The connections so far, the tokens, and the log. -/
abbrev Seen : Type := World Connection State

section

variable (R : Registry) (credentials : Bytes → Option Credentials) (overflowChecks : Bool)

/-- Every token was issued to a connection that logged in. -/
def Issued (w : Seen) : Prop :=
  ∀ token account, (token, account) ∈ w.shared.tokens →
    ∃ c ∈ w.started, R.LogsIn credentials overflowChecks c token account

/-- Connections come, and tokens stay. -/
def Grows (w w' : Seen) : Prop :=
  w.started <+: w'.started ∧ w.shared.tokens <:+ w'.shared.tokens

/-- What holds of the result of a connection after some time; `n` connections were there before
`old` was looked at. -/
def Result (old : List (String × String)) (n k : ℕ) (c : Connection) (w : Seen)
    (result : Except HandleError Response) : Prop :=
  match handle overflowChecks c.chunks with
  | .error e => result = .error e
  | .ok request => ∃ response, result = .ok response ∧
      R.Answers credentials (if n ≤ k then old else []) w.shared.tokens c.raw request response

end

section

variable {R : Registry} {credentials : Bytes → Option Credentials} {overflowChecks : Bool}
  {w₀ w : Seen}

theorem Grows.refl (w : Seen) : Grows w w := ⟨List.prefix_rfl, List.suffix_rfl⟩

theorem Grows.trans {u v w : Seen} (h : Grows u v) (h' : Grows v w) : Grows u w :=
  ⟨h.1.trans h'.1, h.2.trans h'.2⟩

/-- Who has a token has an account. -/
theorem Issued.exists_account (h : R.Issued credentials overflowChecks w) {token account : String}
    (hmem : (token, account) ∈ w.shared.tokens) : ∃ a ∈ R.fixtures.accounts, a.id = account := by
  obtain ⟨c, -, request, password, -, -, -, -, haccount, -⟩ := h token account hmem
  exact ⟨_, haccount, rfl⟩

/-- What was issued by then, since a moment. -/
abbrev Since (R : Registry) (credentials : Bytes → Option Credentials) (overflowChecks : Bool)
    (w₀ w : Seen) : Prop := R.Issued credentials overflowChecks w ∧ Grows w₀ w

theorem keeps_accountOf (authorization : Option String) :
    (accountOf authorization).Keeps (R.Since credentials overflowChecks w₀) Grows
      (fun w account => match account with
        | none => ∀ token account, bearer authorization = some token →
            (token, account) ∉ w₀.shared.tokens
        | some account => (∃ token, bearer authorization = some token ∧
            (token, account) ∈ w.shared.tokens) ∧ ∃ a ∈ R.fixtures.accounts, a.id = account) w := by
  unfold accountOf
  cases hbearer : bearer authorization with
  | none => exact fun _ _ h => by cases h
  | some token =>
    intro w' hgrows hsince
    refine ⟨hsince, Grows.refl _, ?_⟩
    show match w'.shared.tokens.lookup token with
      | none => _
      | some account => _
    cases hlookup : w'.shared.tokens.lookup token with
    | none =>
      rintro _ account ⟨⟩ hmem
      have hne := List.lookup_eq_none_iff.mp hlookup _ (hsince.2.2.subset hmem)
      simp at hne
    | some account =>
      obtain ⟨l, l', hl, -⟩ := List.lookup_eq_some_iff.mp hlookup
      have hmem : (token, account) ∈ w'.shared.tokens := by
        rw [hl]
        simp
      exact ⟨⟨token, rfl, hmem⟩, hsince.1.exists_account hmem⟩

theorem keeps_send {bytes : Bytes} {post : Seen → Response → Prop}
    (h : ∀ w', Grows w w' → post ⟨w'.started, ⟨w'.shared.tokens, w'.shared.sent ++ [bytes]⟩⟩
      ⟨bytes⟩) :
    (send bytes).Keeps (R.Since credentials overflowChecks w₀) Grows post w := by
  intro w' hgrows hsince
  exact ⟨hsince, Grows.refl _, h w' hgrows⟩

/-- How a request for a record is answered. -/
theorem keeps_respond {ρ ε : Type} {authorization : Option String} {find : String → Option ρ}
    {render : String → ρ → Except ε Bytes}
    (hrender : ∀ a ∈ R.fixtures.accounts, ∀ record, find a.id = some record →
      ∃ bytes, render a.id record = .ok bytes) :
    (respond authorization find render).Keeps (R.Since credentials overflowChecks w₀) Grows
      (fun w response =>
        (response = .status 401 "Unauthorized" ∧ ∀ token account,
            bearer authorization = some token → (token, account) ∉ w₀.shared.tokens) ∨
          ∃ token account, bearer authorization = some token ∧
            (token, account) ∈ w.shared.tokens ∧ response =
              found ((find account).bind fun record => (render account record).toOption)) w := by
  unfold respond
  rw [Code.keeps_bind]
  refine (keeps_accountOf authorization).imp fun w account haccount => ?_
  cases account with
  | none => exact .inl ⟨rfl, haccount⟩
  | some account =>
    obtain ⟨⟨token, hbearer, hmem⟩, a, ha, rfl⟩ := haccount
    cases hfind : find a.id with
    | none =>
      simp only [hfind]
      refine Or.inr ⟨token, a.id, hbearer, hmem, ?_⟩
      rw [hfind]
      rfl
    | some record =>
      obtain ⟨bytes, hbytes⟩ := hrender a ha record hfind
      simp only [hfind, hbytes]
      refine keeps_send fun w' hgrows =>
        Or.inr ⟨token, a.id, hbearer, hgrows.2.subset hmem, ?_⟩
      rw [hfind, Option.bind_some, hbytes]
      rfl

theorem keeps_login {given : Option Credentials} {raw : Bytes} {post : Seen → Response → Prop}
    (hmalformed : given = none → post w (.status 400 "Bad Request"))
    (hrefused : ∀ creds, given = some creds → ¬ R.known creds →
      post w (.status 401 "Unauthorized"))
    (hissued : ∀ creds, given = some creds → R.known creds → ∀ w', Grows w w' →
      post ⟨w'.started, ⟨(tokenOf raw, creds.account) :: w'.shared.tokens, w'.shared.sent⟩⟩
        (tokenResponse (tokenOf raw)))
    (hlogs : ∀ creds, given = some creds → R.known creds → ∃ c ∈ w.started,
      R.LogsIn credentials overflowChecks c (tokenOf raw) creds.account) :
    (R.login given raw).Keeps (R.Since credentials overflowChecks w₀) Grows post w := by
  unfold login
  cases given with
  | none => exact hmalformed rfl
  | some creds =>
    by_cases hknown : R.known creds
    · simp only [hknown, if_true]
      intro w' hgrows hsince
      have htokens : Grows w'
          ⟨w'.started, ⟨(tokenOf raw, creds.account) :: w'.shared.tokens, w'.shared.sent⟩⟩ :=
        ⟨List.prefix_rfl, List.suffix_cons _ _⟩
      refine ⟨⟨fun token account hmem => ?_, hsince.2.trans htokens⟩, htokens,
        hissued creds rfl hknown w' hgrows⟩
      rcases List.mem_cons.mp hmem with heq | hmem
      · obtain ⟨rfl, rfl⟩ := Prod.mk.inj heq
        obtain ⟨c, hc, hlogin⟩ := hlogs creds rfl hknown
        exact ⟨c, hgrows.1.subset hc, hlogin⟩
      · exact hsince.1 token account hmem
    · simp only [hknown]
      exact hrefused creds rfl hknown

/-- Every route answers as it should. -/
theorem keeps_route {request : Request} {c : Connection}
    (hrequest : handle overflowChecks c.chunks = .ok request) (hc : c ∈ w.started) :
    (R.route credentials request c.raw).Keeps (R.Since credentials overflowChecks w₀) Grows
      (fun w => R.Answers credentials w₀.shared.tokens w.shared.tokens c.raw request) w := by
  unfold route
  by_cases hpost : request.method = "POST" ∧ request.target = "/login"
  · simp only [if_pos hpost]
    refine keeps_login (.malformed hpost.1 hpost.2)
      (fun creds hcreds hknown => .refused hpost.1 hpost.2 hcreds hknown)
      (fun creds hcreds hknown w' hgrows => .issued hpost.1 hpost.2 hcreds hknown
        (List.mem_cons_self ..)) fun creds hcreds hknown => ?_
    exact ⟨c, hc, request, creds.password, hrequest, hpost.1, hpost.2, hcreds, known_iff.mp hknown,
      rfl⟩
  · simp only [if_neg hpost]
    by_cases hget : request.method = "GET"
    · simp only [if_pos hget]
      have hanswers {source : Source} (hsource : R.source request.target = some source) {w : Seen}
          {response : Response} (h : (response = .status 401 "Unauthorized" ∧ ∀ token account,
              bearer (request.header "authorization") = some token →
              (token, account) ∉ w₀.shared.tokens) ∨
            ∃ token account, bearer (request.header "authorization") = some token ∧
              (token, account) ∈ w.shared.tokens ∧
              response = found (R.view account source)) :
          R.Answers credentials w₀.shared.tokens w.shared.tokens c.raw request response := by
        obtain ⟨rfl, hold⟩ | ⟨token, account, hbearer, hmem, rfl⟩ := h
        · exact .unauthorized hget hold
        · exact .shown hget hbearer hmem hsource
      cases hsource : R.source request.target with
      | none => exact .nothing hget hsource
      | some source =>
        cases source with
        | income layout =>
          refine (keeps_respond fun a _ record hrecord => ?_).imp fun w response h =>
            hanswers hsource h
          obtain ⟨hmem, hown⟩ := findIncome_eq hrecord
          obtain ⟨r, hr⟩ := R.renders.income layout (served_of_source hsource).1 record hmem
          exact ⟨r.bytes, by rw [← hown, hr]; rfl⟩
        | tenancy layout id =>
          refine (keeps_respond fun a ha n hn => ?_).imp fun w response h => hanswers hsource h
          obtain ⟨r, hr⟩ := R.renders.tenancy layout (served_of_source hsource).1 n
            (findTenancy_eq hn).1 a ha
          exact ⟨r.bytes, by rw [hr]; rfl⟩
        | title propertyId =>
          refine (keeps_respond fun a ha record hrecord => ?_).imp fun w response h =>
            hanswers hsource h
          obtain ⟨r, hr⟩ := R.renders.title record (findTitle_eq hrecord).1 a ha
          exact ⟨r.bytes, by rw [hr]; rfl⟩
    · simp only [if_neg hget]
      exact .notAllowed hpost hget

theorem Answers.forget {old tokens : List (String × String)} {raw : Bytes} {request : Request}
    {response : Response} (h : R.Answers credentials old tokens raw request response) :
    R.Answers credentials [] tokens raw request response := by
  cases h with
  | malformed hm ht hc => exact .malformed hm ht hc
  | refused hm ht hc hk => exact .refused hm ht hc hk
  | issued hm ht hc hk hmem => exact .issued hm ht hc hk hmem
  | unauthorized hm hold => exact .unauthorized hm fun _ _ _ => List.not_mem_nil
  | shown hm hb hmem hs => exact .shown hm hb hmem hs
  | nothing hm hs => exact .nothing hm hs
  | notAllowed hp hm => exact .notAllowed hp hm

/-- How a request for a record is answered. -/
theorem Answers.of_get {old tokens : List (String × String)} {raw : Bytes} {request : Request}
    {response : Response} (h : R.Answers credentials old tokens raw request response)
    (hget : request.method = "GET") :
    (response = .status 401 "Unauthorized" ∧ ∀ token account,
        bearer (request.header "authorization") = some token → (token, account) ∉ old) ∨
      (∃ token account source, bearer (request.header "authorization") = some token ∧
        (token, account) ∈ tokens ∧ R.source request.target = some source ∧
        response = found (R.view account source)) ∨
      (response = .status 404 "Not Found" ∧ R.source request.target = none) := by
  have hpost : request.method ≠ "POST" := by
    rw [hget]
    decide
  cases h with
  | malformed h => exact absurd h hpost
  | refused h => exact absurd h hpost
  | issued h => exact absurd h hpost
  | unauthorized _ hold => exact .inl ⟨rfl, hold⟩
  | shown _ hbearer hmem hsource =>
    exact .inr (.inl ⟨_, _, _, hbearer, hmem, hsource, rfl⟩)
  | nothing _ hsource => exact .inr (.inr ⟨rfl, hsource⟩)
  | notAllowed _ h => exact absurd hget h

/-- Connections keep the tokens in order and answer as they should. -/
theorem discipline (w₀ : Seen) (n : ℕ) : Discipline (R.Since credentials overflowChecks w₀) Grows
    (R.serve credentials overflowChecks)
    (R.Result credentials overflowChecks w₀.shared.tokens n) where
  refl := Grows.refl
  trans := Grows.trans
  start := by
    intro w c hsince
    have hgrows : Grows w ⟨w.started ++ [c], w.shared⟩ := ⟨List.prefix_append _ _, List.suffix_rfl⟩
    refine ⟨⟨fun token account hmem => ?_, hsince.2.trans hgrows⟩, hgrows⟩
    obtain ⟨login, hlogin, h⟩ := hsince.1 token account hmem
    exact ⟨login, List.mem_append_left _ hlogin, h⟩
  stable := by
    intro k c w w' result hgrows h
    unfold Result at h ⊢
    split at h
    · exact h
    · obtain ⟨response, hresult, hanswers⟩ := h
      exact ⟨response, hresult, hanswers.mono hgrows.2.subset⟩
  keeps := by
    intro w c hsince
    unfold serve Result
    cases hrequest : handle overflowChecks c.chunks with
    | error e => exact rfl
    | ok request =>
      simp only [Code.keeps_bind]
      refine (keeps_route hrequest (by simp)).imp fun w response h => ⟨response, rfl, ?_⟩
      split_ifs
      · exact h
      · exact h.forget

end

/-! ## The log -/

/-- The record that a connection is shown with its result. -/
def shown (overflowChecks : Bool) (c : Connection) (result : Except HandleError Response) :
    Option Bytes :=
  match handle overflowChecks c.chunks, result with
  | .ok request, .ok response =>
    if request.method = "GET" ∧ ¬response.IsStatus then some response.bytes else none
  | _, _ => none

section

theorem isStatus_status (code : ℕ) (reason : String) : (Response.status code reason).IsStatus := by
  unfold Response.IsStatus Response.status Response.json
  rw [utf8_append]
  exact List.suffix_append _ _

/-- A response that ends with two other bytes. -/
theorem not_isStatus_append (bytes : Bytes) {last : Bytes} (hlen : last.length = 2)
    (hne : utf8 "\x7b\x7d" ≠ last) : ¬(⟨bytes ++ last⟩ : Response).IsStatus := by
  rintro ⟨l, hl⟩
  exact hne (List.append_inj' hl hlen.symm).2

theorem digits_ne : ∀ code ∈ [400, 401, 404, 405],
    (utf8 (toString 500)).length = (utf8 (toString code)).length ∧
      utf8 (toString 500) ≠ utf8 (toString code) := by
  decide

/-- The codes that the registry answers with differ from that of an internal error. -/
theorem internalError_ne {code : ℕ} (hcode : code ∈ [400, 401, 404, 405])
    {reason reason' : String} :
    Response.status 500 reason ≠ Response.status code reason' := by
  obtain ⟨hlen, hne⟩ := digits_ne code hcode
  intro h
  have hbytes := congrArg Response.bytes h
  simp only [Response.status, Response.json, utf8_append, List.append_assoc] at hbytes
  exact hne (List.append_inj (List.append_cancel_left hbytes) hlen).1

theorem not_isStatus_token (token : String) : ¬(tokenResponse token).IsStatus := by
  unfold tokenResponse Response.json
  rw [utf8_append, utf8_append (_ ++ token), ← List.append_assoc]
  exact not_isStatus_append _ rfl (by decide)

theorem not_isStatus_title {layout : Layout} {account : String} {record : TitleRecord}
    {r : Rendered} (h : layout.renderResponse account record = .ok r) :
    ¬(⟨r.bytes⟩ : Response).IsStatus := by
  simp only [Layout.renderResponse, bind_eq_ok, Except.ok.injEq] at h
  obtain ⟨-, -, account, -, property, -, ⟨slots, body⟩, -, encumbrance, -, value, -, date, -,
    rfl⟩ := h
  dsimp only [Writer.lit]
  rw [← List.append_assoc]
  exact not_isStatus_append _ rfl (by decide)

theorem not_isStatus_record {layout : RecordLayout} {account : String} {values : List String}
    {r : RenderedRecord} (h : layout.renderResponse account values = .ok r) :
    ¬(⟨r.bytes⟩ : Response).IsStatus := by
  simp only [RecordLayout.renderResponse, bind_eq_ok, Except.ok.injEq] at h
  obtain ⟨-, -, account, -, ⟨⟨keys, fields⟩, body⟩, -, rfl⟩ := h
  dsimp only [Writer.lit]
  rw [← List.append_assoc]
  exact not_isStatus_append _ rfl (by decide)

variable {R : Registry} {credentials : Bytes → Option Credentials} {overflowChecks : Bool}

theorem silent_accountOf (authorization : Option String) :
    (accountOf authorization).Silent State.sent := by
  unfold accountOf
  cases bearer authorization with
  | none => exact trivial
  | some token => exact fun s => ⟨rfl, trivial⟩

theorem logs_respond {ρ ε : Type} {authorization : Option String} {find : String → Option ρ}
    {render : String → ρ → Except ε Bytes} {told : Response → Option Bytes}
    (hstatus : ∀ code reason, told (.status code reason) = none)
    (hrecord : ∀ account record bytes, render account record = .ok bytes →
      told ⟨bytes⟩ = some bytes) :
    (respond authorization find render).Logs State.sent told := by
  refine (silent_accountOf authorization).bind fun account => ?_
  cases account with
  | none => exact hstatus _ _
  | some account =>
    cases hfind : find account with
    | none =>
      simp only [hfind]
      exact hstatus _ _
    | some record =>
      cases hrender : render account record with
      | error e =>
        simp only [hfind, hrender]
        exact hstatus _ _
      | ok bytes =>
        simp only [hfind, hrender]
        intro s
        refine .inr ⟨⟨bytes⟩, rfl, ?_⟩
        rw [hrecord account record bytes hrender]
        rfl

theorem logs_login {given : Option Credentials} {raw : Bytes} {told : Response → Option Bytes}
    (htold : ∀ response, told response = none) :
    (R.login given raw).Logs State.sent told := by
  unfold login
  cases given with
  | none => exact htold _
  | some creds =>
    by_cases hknown : R.known creds
    · simp only [hknown, if_true]
      exact fun s => .inl ⟨rfl, htold _⟩
    · simp only [hknown]
      exact htold _

theorem ok_of_map {ε α : Type} {x : Except ε α} {f : α → Bytes} {bytes : Bytes}
    (h : x.map f = .ok bytes) : ∃ r, x = .ok r ∧ f r = bytes := by
  cases x with
  | error e => cases h
  | ok r => exact ⟨r, rfl, Except.ok.inj h⟩

/-- The log gets what the connections are shown. -/
theorem logs_serve (c : Connection) :
    (R.serve credentials overflowChecks c).Logs State.sent (shown overflowChecks c) := by
  unfold serve
  cases hrequest : handle overflowChecks c.chunks with
  | error e =>
    show shown overflowChecks c (.error e) = none
    unfold shown
    rw [hrequest]
  | ok request =>
    refine Code.Logs.map ?_
    have hshown (response : Response) : (shown overflowChecks c ∘ Except.ok) response =
        if request.method = "GET" ∧ ¬response.IsStatus then some response.bytes else none := by
      simp only [Function.comp, shown, hrequest]
    have hstatus (code : ℕ) (reason : String) :
        (shown overflowChecks c ∘ Except.ok) (.status code reason) = none := by
      rw [hshown, if_neg fun h => h.2 (isStatus_status code reason)]
    unfold route
    by_cases hpost : request.method = "POST" ∧ request.target = "/login"
    · simp only [if_pos hpost]
      refine logs_login fun response => ?_
      rw [hshown, hpost.1, if_neg fun h => absurd h.1 (by decide)]
    · simp only [if_neg hpost]
      by_cases hget : request.method = "GET"
      · have hrecord {bytes : Bytes} (h : ¬(⟨bytes⟩ : Response).IsStatus) :
            (shown overflowChecks c ∘ Except.ok) ⟨bytes⟩ = some bytes := by
          rw [hshown, if_pos ⟨hget, h⟩]
        simp only [if_pos hget]
        cases R.source request.target with
        | none => exact hstatus _ _
        | some source =>
          cases source with
          | income layout =>
            refine logs_respond hstatus fun account record bytes hbytes => ?_
            obtain ⟨r, hr, rfl⟩ := ok_of_map hbytes
            exact hrecord (not_isStatus_record hr)
          | tenancy layout id =>
            refine logs_respond hstatus fun account record bytes hbytes => ?_
            obtain ⟨r, hr, rfl⟩ := ok_of_map hbytes
            exact hrecord (not_isStatus_record hr)
          | title propertyId =>
            refine logs_respond hstatus fun account record bytes hbytes => ?_
            obtain ⟨r, hr, rfl⟩ := ok_of_map hbytes
            exact hrecord (not_isStatus_title hr)
      · simp only [if_neg hget]
        exact hstatus _ _

end

/-! ## Whole runs -/

section

variable {R : Registry} {credentials : Bytes → Option Credentials} {overflowChecks : Bool}
  {p q : Pool Connection State (Except HandleError Response)}

/-- The registry has not served anything. -/
abbrev idle : Pool Connection State (Except HandleError Response) := ⟨State.initial, []⟩

theorem safe_of_runs (h : Threads.Runs (R.serve credentials overflowChecks) idle p) :
    Safe (R.Since credentials overflowChecks ⟨[], State.initial⟩) Grows
      (R.Result credentials overflowChecks [] 0) p :=
  (discipline ⟨[], State.initial⟩ 0).safe
    ⟨fun _ _ hmem => absurd hmem List.not_mem_nil, Grows.refl _⟩ h

theorem not_isStatus_of_shows {account target : String} {bytes : Bytes}
    (h : R.Shows account target bytes) : ¬(⟨bytes⟩ : Response).IsStatus := by
  cases h with
  | income _ _ _ hr => exact not_isStatus_record hr
  | tenancy _ _ hr => exact not_isStatus_record hr
  | title _ hr => exact not_isStatus_title hr

/-- What a connection ends with. -/
theorem ended (h : Threads.Runs (R.serve credentials overflowChecks) idle p) {k : ℕ}
    {c : Connection}
    {response : Response} (hk : p.Ended k c (.ok response)) : ∃ request,
      handle overflowChecks c.chunks = .ok request ∧
      R.Answers credentials [] p.shared.tokens c.raw request response := by
  have hresult := (safe_of_runs h).ended hk
  unfold Result at hresult
  cases hrequest : handle overflowChecks c.chunks with
  | error e =>
    rw [hrequest] at hresult
    cases hresult
  | ok request =>
    rw [hrequest] at hresult
    obtain ⟨_, heq, hanswers⟩ := hresult
    obtain rfl := Except.ok.inj heq
    rw [ite_self] at hanswers
    exact ⟨request, rfl, hanswers⟩

/-- The bytes are the record that a request asks for, as it is shown to the account that its token
was issued to, by a login with the password of this account. -/
def Entitled (R : Registry) (credentials : Bytes → Option Credentials) (overflowChecks : Bool)
    (started : List Connection) (request : Request) (bytes : Bytes) : Prop :=
  ∃ token account, bearer (request.header "authorization") = some token ∧
    (∃ login ∈ started, R.LogsIn credentials overflowChecks login token account) ∧
    R.Shows account request.target bytes

theorem entitled_of_shown (h : Threads.Runs (R.serve credentials overflowChecks) idle p) {k : ℕ}
    {c : Connection} {result : Except HandleError Response} {bytes : Bytes}
    (hk : p.Ended k c result) (hshown : shown overflowChecks c result = some bytes) :
    ∃ request, handle overflowChecks c.chunks = .ok request ∧
      R.Entitled credentials overflowChecks (p.threads.map Thread.input) request bytes := by
  cases result with
  | error e =>
    cases hrequest : handle overflowChecks c.chunks <;> simp [shown, hrequest] at hshown
  | ok response =>
    obtain ⟨request, hrequest, hanswers⟩ := ended h hk
    simp only [shown, hrequest] at hshown
    split_ifs at hshown with hrecord
    obtain ⟨hget, hstatus⟩ := hrecord
    obtain rfl := Option.some.inj hshown
    refine ⟨request, hrequest, ?_⟩
    obtain ⟨rfl, -⟩ | ⟨token, account, source, hbearer, hmem, hsource, rfl⟩ | ⟨rfl, -⟩ :=
      hanswers.of_get hget
    · exact absurd (isStatus_status _ _) hstatus
    · cases hview : R.view account source with
      | none =>
        rw [hview] at hstatus
        exact absurd (isStatus_status _ _) hstatus
      | some bytes =>
        exact ⟨token, account, hbearer, (safe_of_runs h).inv.1 token account hmem,
          shows_of_view hsource hview⟩
    · exact absurd (isStatus_status _ _) hstatus

/-- The registry in every run of connections that come and go in any order. It never fails
internally; whoever is shown a record asked for it with a token that a login with the password of
an account got, and is shown it for this account; and the log holds exactly the records that were
shown. -/
theorem served (R : Registry) (credentials : Bytes → Option Credentials) (overflowChecks : Bool)
    {p : Pool Connection State (Except HandleError Response)}
    (h : Threads.Runs (R.serve credentials overflowChecks) idle p) :
    (∀ k c, ¬p.Ended k c (.ok (.status 500 "Internal Server Error"))) ∧
    (∀ k c result bytes, p.Ended k c result → shown overflowChecks c result = some bytes →
      ∃ request, handle overflowChecks c.chunks = .ok request ∧
        R.Entitled credentials overflowChecks (p.threads.map Thread.input) request bytes) ∧
    p.shared.sent.Perm (p.told (shown overflowChecks)) := by
  refine ⟨fun k c hk => ?_, fun k c result bytes hk hshown => entitled_of_shown h hk hshown,
    Threads.Runs.logs logs_serve h⟩
  obtain ⟨request, -, hanswers⟩ := ended h hk
  generalize hresponse : Response.status 500 "Internal Server Error" = response at hanswers
  have hstatus : response.IsStatus := hresponse ▸ isStatus_status _ _
  have hother {code : ℕ} {reason : String} (hcode : code ∈ [400, 401, 404, 405]) :
      response ≠ .status code reason := hresponse ▸ internalError_ne hcode
  cases hanswers with
  | malformed => exact hother (by decide) rfl
  | refused => exact hother (by decide) rfl
  | issued => exact not_isStatus_token _ hstatus
  | unauthorized => exact hother (by decide) rfl
  | nothing => exact hother (by decide) rfl
  | notAllowed => exact hother (by decide) rfl
  | @shown token account source _ hbearer hmem hsource =>
    cases hview : R.view account source with
    | none =>
      rw [hview] at hresponse
      exact absurd hresponse (internalError_ne (by decide))
    | some bytes =>
      rw [hview] at hstatus
      exact not_isStatus_of_shows (shows_of_view hsource hview) hstatus

/-! ## Tokens keep working -/

theorem safe_since (h : Threads.Runs (R.serve credentials overflowChecks) idle p)
    (hq : Threads.Runs (R.serve credentials overflowChecks) p q) :
    Safe (R.Since credentials overflowChecks p.world) Grows
      (R.Result credentials overflowChecks p.shared.tokens p.threads.length) q := by
  have hp := safe_of_runs h
  have hinv : (fun w => R.Since credentials overflowChecks ⟨[], State.initial⟩ w ∧
      Grows p.world w) = R.Since credentials overflowChecks p.world := by
    funext w
    exact propext ⟨fun hw => ⟨hw.1.1, hw.2⟩, fun hw => ⟨⟨hw.1, List.nil_prefix, List.nil_suffix⟩,
      hw.2⟩⟩
  refine ((discipline p.world p.threads.length).runs hq
    ⟨⟨hp.inv.1, Grows.refl _⟩, fun {k t} hk => ?_⟩).1
  have htrans : ∀ u v w : Seen, Grows u v → Grows v w → Grows u w := fun _ _ _ => Grows.trans
  have hkeeps := Code.Keeps.since htrans p.world (hp.keeps hk)
  rw [hinv] at hkeeps
  refine hkeeps.imp fun w result hresult => ?_
  -- nothing is asked of the connections that are there already
  have hlt : ¬p.threads.length ≤ k := fun hle => by
    rw [List.getElem?_eq_none hle] at hk
    cases hk
  simpa only [Result, if_neg hlt, ite_self] using hresult

/-- The token of a login that has ended is issued to its account. -/
theorem mem_tokens_of_logsIn (hp : Threads.Runs (R.serve credentials overflowChecks) idle p)
    {j : ℕ} {login : Connection} {token account : String} {response : Response}
    (hlogin : p.Ended j login (.ok response))
    (htoken : R.LogsIn credentials overflowChecks login token account) :
    (token, account) ∈ p.shared.tokens := by
  obtain ⟨request, password, hrequest, hpost, htarget, hcreds, hmember, rfl⟩ := htoken
  obtain ⟨request', hrequest', hanswers⟩ := ended hp hlogin
  obtain rfl := Except.ok.inj (hrequest.symm.trans hrequest')
  have hnoget : request.method ≠ "GET" := by
    rw [hpost]
    decide
  cases hanswers with
  | malformed _ _ hnone =>
    rw [hcreds] at hnone
    cases hnone
  | refused _ _ hsome hrefused =>
    rw [hcreds] at hsome
    obtain rfl := Option.some.inj hsome
    exact absurd (known_iff.mpr hmember) hrefused
  | issued _ _ hsome _ hmem =>
    rw [hcreds] at hsome
    obtain rfl := Option.some.inj hsome
    exact hmem
  | unauthorized hget => exact absurd hget hnoget
  | shown hget => exact absurd hget hnoget
  | nothing hget => exact absurd hget hnoget
  | notAllowed hother => exact absurd ⟨hpost, htarget⟩ hother

/-- Once a login has ended, every later request with its token is answered with the record that it
asks for, for the account of the login, whatever other connections do; unless a login to another
account draws the same token. -/
theorem keeps_serving (R : Registry) (credentials : Bytes → Option Credentials)
    (overflowChecks : Bool) {p q : Pool Connection State (Except HandleError Response)}
    (hp : Threads.Runs (R.serve credentials overflowChecks) idle p)
    (hq : Threads.Runs (R.serve credentials overflowChecks) p q) {j : ℕ} {login : Connection}
    {token account : String} {response : Response} (hlogin : p.Ended j login (.ok response))
    (htoken : R.LogsIn credentials overflowChecks login token account)
    (hdraws : ∀ c ∈ q.threads.map Thread.input, ∀ other,
      R.LogsIn credentials overflowChecks c token other → other = account)
    {k : ℕ} {c : Connection} {request : Request} {answer : Response} (hk : p.threads.length ≤ k)
    (hc : q.Ended k c (.ok answer)) (hrequest : handle overflowChecks c.chunks = .ok request)
    (hget : request.method = "GET")
    (hbearer : bearer (request.header "authorization") = some token) :
    answer = found ((R.source request.target).bind (R.view account)) := by
  have hmem := mem_tokens_of_logsIn hp hlogin htoken
  have hsafe := safe_since hp hq
  have hresult := hsafe.ended hc
  unfold Result at hresult
  rw [hrequest, if_pos hk] at hresult
  obtain ⟨_, heq, hanswers⟩ := hresult
  obtain rfl := Except.ok.inj heq
  obtain ⟨-, hnew⟩ | ⟨token', account', source, hbearer', hmem', hsource, rfl⟩ | ⟨rfl, hsource⟩ :=
    hanswers.of_get hget
  · exact absurd hmem (hnew token account hbearer)
  · obtain rfl := Option.some.inj (hbearer.symm.trans hbearer')
    obtain ⟨c', hc', hlogs⟩ := hsafe.inv.1 token account' hmem'
    obtain rfl := hdraws c' hc' account' hlogs
    rw [hsource, Option.bind_some]
  · rw [hsource]
    rfl

end

/-! ## A connection alone -/

section

variable {R : Registry} {credentials : Bytes → Option Credentials} {overflowChecks : Bool}
  {c : Connection} {request : Request} {s : State}

/-- A login that is served alone gets a token. -/
theorem run_login (hrequest : handle overflowChecks c.chunks = .ok request)
    (hpost : request.method = "POST" ∧ request.target = "/login") {given : Credentials}
    (hcreds : credentials request.body = some given) (hknown : R.known given = true) :
    (R.serve credentials overflowChecks c).run s = (.ok (tokenResponse (tokenOf c.raw)),
      ⟨(tokenOf c.raw, given.account) :: s.tokens, s.sent⟩) := by
  simp only [serve, hrequest, route, if_pos hpost, hcreds, login, hknown, if_true]
  rfl

theorem run_respond {ρ ε : Type} {authorization : Option String} {find : String → Option ρ}
    {render : String → ρ → Except ε Bytes} {token account : String} {bytes : Bytes}
    (hbearer : bearer authorization = some token) (htoken : s.tokens.lookup token = some account)
    (hfound : ((find account).bind fun record => (render account record).toOption) = some bytes) :
    (respond authorization find render).run s = (⟨bytes⟩, ⟨s.tokens, s.sent ++ [bytes]⟩) := by
  obtain ⟨record, hrecord, hbytes⟩ := Option.bind_eq_some_iff.mp hfound
  have haccount : (accountOf authorization).run s = (some account, s) := by
    simp [accountOf, hbearer, Code.read, Threads.Code.run, htoken]
  cases hrender : render account record with
  | error e =>
    rw [hrender] at hbytes
    cases hbytes
  | ok shown =>
    rw [hrender] at hbytes
    obtain rfl := Option.some.inj hbytes
    simp only [respond, Code.run_bind, haccount, hrecord, hrender]
    rfl

/-- A request with a token that is served alone is shown the record. -/
theorem run_shown (hrequest : handle overflowChecks c.chunks = .ok request)
    (hget : request.method = "GET") {token account : String} {source : Source} {bytes : Bytes}
    (hbearer : bearer (request.header "authorization") = some token)
    (htoken : s.tokens.lookup token = some account)
    (hsource : R.source request.target = some source)
    (hview : R.view account source = some bytes) :
    (R.serve credentials overflowChecks c).run s =
      (.ok ⟨bytes⟩, ⟨s.tokens, s.sent ++ [bytes]⟩) := by
  have hpost : ¬(request.method = "POST" ∧ request.target = "/login") := by
    rw [hget]
    exact fun h => absurd h.1 (by decide)
  have hroute {answer : Code State Response} (hanswer : answer.run s =
      (⟨bytes⟩, ⟨s.tokens, s.sent ++ [bytes]⟩)) :
      (do return .ok (← answer) : Code State (Except HandleError Response)).run s =
        (.ok ⟨bytes⟩, ⟨s.tokens, s.sent ++ [bytes]⟩) := by
    rw [Code.run_bind, hanswer]
    rfl
  simp only [serve, hrequest, route, if_neg hpost, if_pos hget, hsource]
  refine hroute ?_
  cases source with
  | income layout =>
    refine run_respond hbearer htoken ?_
    exact hview
  | tenancy layout id =>
    refine run_respond hbearer htoken ?_
    exact hview
  | title propertyId =>
    refine run_respond hbearer htoken ?_
    exact hview

end

end Registry

/-! ## A session -/

namespace Vectors

open Registry

def tenantAccount : String := "ACC-000000000003"

/-- The records of `mock-registry/fixtures/records.json`. -/
def fixtures : Fixtures where
  accounts := [⟨account, "owner-one"⟩, ⟨"ACC-000000000002", "owner-two"⟩, ⟨tenantAccount, "tenant"⟩]
  records := [titleRecord, ⟨"TR-34-KADIKOY-004567", ["ACC-000000000002"], "Y", "000000030750000",
    "2025-11-03"⟩]
  incomes := [⟨"ACC-000000000002", "02900000000000000000"⟩,
    ⟨tenantAccount, "03500000000000000000"⟩]
  tenancies := [⟨"N-0001", "TR-06-CANKAYA-000123", tenantAccount, "2026-10-21"⟩,
    ⟨"N-0002", "TR-06-CANKAYA-000123", tenantAccount, "2025-01-15"⟩,
    ⟨"N-0003", "TR-34-KADIKOY-004567", tenantAccount, "2026-10-21"⟩,
    ⟨"N-0004", "TR-06-CANKAYA-000123", "ACC-000000000002", "2026-10-21"⟩]

theorem fixtures_render : Renders titleLayout ⟨some incomeLayout, some tenancyLayout⟩ fixtures := by
  have hok : (checkRecords titleLayout ⟨some incomeLayout, some tenancyLayout⟩
      fixtures).toOption = some () := by decide +kernel
  refine checkRecords_eq_ok.mp ?_
  cases hchecked : checkRecords titleLayout ⟨some incomeLayout, some tenancyLayout⟩ fixtures with
  | error e =>
    rw [hchecked] at hok
    cases hok
  | ok u => rfl

/-- The registry of the committed layouts and fixtures. -/
def landRegistry : Registry := ⟨titleLayout, _, fixtures, fixtures_render⟩

def ownerBody : String := "\x7b\"account\":\"ACC-000000000001\",\"password\":\"owner-one\"\x7d"

def tenantBody : String := "\x7b\"account\":\"ACC-000000000003\",\"password\":\"tenant\"\x7d"

def loginCredentials (body : Bytes) : Option Credentials :=
  if body = utf8 ownerBody then some ⟨account, "owner-one"⟩
  else if body = utf8 tenantBody then some ⟨tenantAccount, "tenant"⟩
  else none

def loginConnection : Connection :=
  ⟨[utf8 "POST /login HTTP/1.1\r\nContent-Length: 53\r\n\r\n", utf8 ownerBody],
    List.replicate 32 171⟩

def loginToken : String := "abababababababababababababababababababababababababababababababab"

def titleConnection : Connection :=
  ⟨[utf8 ("GET /title/TR-06-CANKAYA-000123 HTTP/1.1\r\nauthorization: Bearer " ++ loginToken ++
      "\r\n\r\n")], []⟩

/-- What the registry reads from chunks. -/
structure Reads (chunks : List Bytes) where
  request : Registry.Request
  handle_eq : handle true chunks = .ok request

def loginReads : Reads loginConnection.chunks :=
  ⟨⟨"POST", "/login", [("Content-Length", "53")], utf8 ownerBody⟩, by decide +kernel⟩

def titleReads : Reads titleConnection.chunks :=
  ⟨⟨"GET", "/title/TR-06-CANKAYA-000123", [("authorization", "Bearer " ++ loginToken)], []⟩,
    by decide +kernel⟩

theorem tokenOf_login : tokenOf loginConnection.raw = loginToken := by decide +kernel

theorem credentials_login :
    loginCredentials loginReads.request.body = some ⟨account, "owner-one"⟩ := by
  decide +kernel

/-- The registry after the login. -/
def loggedIn : Pool Connection Registry.State (Except HandleError Response) :=
  ⟨⟨[(loginToken, account)], []⟩, [⟨loginConnection, .done (.ok (tokenResponse loginToken))⟩]⟩

theorem runs_loggedIn : Threads.Runs (landRegistry.serve loginCredentials true) idle loggedIn := by
  have hrun := run_login (R := landRegistry) (s := Registry.State.initial) loginReads.handle_eq
    ⟨rfl, rfl⟩ credentials_login (by decide +kernel)
  rw [tokenOf_login] at hrun
  exact Threads.Runs.next .refl hrun

theorem bearer_title : bearer (titleReads.request.header "authorization") = some loginToken := by
  decide +kernel

theorem source_title : landRegistry.source titleReads.request.target =
    some (.title titleRecord.propertyId) := by
  have hincome : landRegistry.phases.income.filter
      (fun income => titleReads.request.target = income.path "") = none := by
    have hne : ¬titleReads.request.target = incomeLayout.path "" := by decide +kernel
    simp [landRegistry, hne]
  have htenancy : landRegistry.phases.tenancy.bind (fun tenancy =>
      (stripPrefix titleReads.request.target tenancy.pathPrefix).map (Source.tenancy tenancy)) =
        none := by
    have hstrip : stripPrefix titleReads.request.target tenancyLayout.pathPrefix = none := by
      decide +kernel
    rw [landRegistry, Option.bind_some, hstrip]
    rfl
  have hstrip : stripPrefix titleReads.request.target titleLayout.pathPrefix =
      some titleRecord.propertyId := by decide +kernel
  rw [Registry.source, hincome, htenancy]
  exact congrArg (Option.map Source.title) hstrip

/-- The owner is shown the title. -/
theorem exists_view_title : ∃ r, titleLayout.renderResponse account titleRecord = .ok r ∧
    landRegistry.view account (.title titleRecord.propertyId) = some r.bytes := by
  obtain ⟨r, hr⟩ := landRegistry.renders.title titleRecord List.mem_cons_self
    ⟨account, "owner-one"⟩ List.mem_cons_self
  have hfind : landRegistry.findTitle titleRecord.propertyId = some titleRecord := by
    simp [findTitle, landRegistry, fixtures]
  refine ⟨r, hr, ?_⟩
  rw [view, hfind, Option.bind_some, hr]
  rfl

/-- The registry after a request for the title. -/
theorem exists_runs_title : ∃ q bytes,
    Threads.Runs (landRegistry.serve loginCredentials true) loggedIn q ∧
    landRegistry.view account (.title titleRecord.propertyId) = some bytes ∧
    q.Ended 1 titleConnection (.ok ⟨bytes⟩) ∧
    q.threads.map Thread.input = [loginConnection, titleConnection] := by
  obtain ⟨r, -, hview⟩ := exists_view_title
  exact ⟨_, r.bytes, Threads.Runs.next .refl (run_shown titleReads.handle_eq rfl bearer_title
    (by simp [loggedIn]) source_title hview), hview, rfl, rfl⟩

end Vectors

open Registry Vectors in
/-- The title is shown for the account that has logged in. -/
theorem served_title : ∃ (q : Pool Connection Registry.State (Except HandleError Response)) (bytes :
      Bytes), landRegistry.view account (.title titleRecord.propertyId) =
      some bytes ∧
    landRegistry.Entitled loginCredentials true [loginConnection, titleConnection]
      titleReads.request bytes ∧ q.Ended 1 titleConnection (.ok ⟨bytes⟩) ∧
    q.shared.sent.Perm (q.told (shown true)) := by
  obtain ⟨q, bytes, hruns, hview, hended, hstarted⟩ := exists_runs_title
  obtain ⟨-, hshown, hlog⟩ :=
    served landRegistry loginCredentials true (runs_loggedIn.trans hruns)
  have hstatus : ¬(⟨bytes⟩ : Response).IsStatus :=
    not_isStatus_of_shows (shows_of_view source_title hview)
  obtain ⟨request, hrequest, hentitled⟩ := hshown 1 _ _ bytes hended (by
    simp only [shown, titleReads.handle_eq]
    rw [if_pos ⟨rfl, hstatus⟩])
  obtain rfl := Except.ok.inj (titleReads.handle_eq.symm.trans hrequest)
  rw [hstarted] at hentitled
  exact ⟨q, bytes, hview, hentitled, hended, hlog⟩

open Registry Vectors in
/-- The token of the login gets the title. -/
theorem keeps_serving_title : ∃ (q : Pool Connection Registry.State (Except HandleError Response))
      (answer : Response), q.Ended 1 titleConnection (.ok answer) ∧
    answer = found (landRegistry.view account (.title titleRecord.propertyId)) := by
  obtain ⟨q, bytes, hruns, hview, hended, hstarted⟩ := exists_runs_title
  have hmember : (⟨account, "owner-one"⟩ : Account) ∈ landRegistry.fixtures.accounts :=
    List.mem_cons_self
  have hlogin : landRegistry.LogsIn loginCredentials true loginConnection loginToken account :=
    ⟨loginReads.request, "owner-one", loginReads.handle_eq, rfl, rfl, credentials_login, hmember,
      tokenOf_login.symm⟩
  refine ⟨q, ⟨bytes⟩, hended, ?_⟩
  have hserving := keeps_serving landRegistry loginCredentials true runs_loggedIn hruns
    (j := 0) rfl hlogin (fun c hc other hother => ?_) le_rfl hended titleReads.handle_eq rfl
    bearer_title
  · rw [source_title] at hserving
    exact hserving
  · obtain ⟨request, password, hrequest, hpost, -, hcredentials, -⟩ := hother
    rw [hstarted] at hc
    rcases List.mem_cons.mp hc with rfl | hc
    · obtain rfl := Except.ok.inj (loginReads.handle_eq.symm.trans hrequest)
      rw [credentials_login] at hcredentials
      exact (Credentials.mk.inj (Option.some.inj hcredentials)).1.symm
    · obtain rfl := List.mem_singleton.mp hc
      obtain rfl := Except.ok.inj (titleReads.handle_eq.symm.trans hrequest)
      exact absurd hpost (by decide)

end Pprev
