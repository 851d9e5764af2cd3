import Mathlib
import AccountVault.Proofs.Http.BasePaths
import AccountVault.Proofs.Refinement.Simulation

/-!
# Requests and direct operations

`Request.Asks` says in terms of the method, the path and the body which account operation a request
asks for. Where every call returns, the request leaves the same state behind as the operation that
is called directly, and the response tells the reply: its status is the code that its body names. A
request to create or update an account whose body does not hold an input is refused before anything
is called. A body counts as JSON as soon as it begins with a JSON value, so text after that value
does not get it refused.
-/

namespace AccountVault

open Program

structure Faults.Returns (faults : Faults) : Prop where
  head : faults.head ≠ some .hang
  get : faults.get ≠ some .hang
  put : faults.put ≠ some .hang

namespace Scripted

variable {faults : Faults}

theorem head_returns (returns : faults.Returns) (location : Location) (state : Scripted) :
    ∃ answer next, (backend faults).head location state = (some answer, next) := by
  simp only [backend, head]
  split
  · exact ⟨_, _, rfl⟩
  · rename_i hangs
    exact absurd hangs returns.head
  · exact ⟨_, _, rfl⟩

theorem get_returns (returns : faults.Returns) (location : Location) (state : Scripted) :
    ∃ answer next, (backend faults).get location state = (some answer, next) := by
  simp only [backend, get]
  split
  · exact ⟨_, _, rfl⟩
  · rename_i hangs
    exact absurd hangs returns.get
  · exact ⟨_, _, rfl⟩
  · split <;> exact ⟨_, _, rfl⟩
  · exact ⟨_, _, rfl⟩

theorem put_returns (returns : faults.Returns) (location : Location) (body : Bytes)
    (ifMatch : Option String) (state : Scripted) :
    ∃ answer next, (backend faults).put location body ifMatch state = (some answer, next) := by
  simp only [backend, put]
  split
  · exact ⟨_, _, rfl⟩
  · rename_i hangs
    exact absurd hangs returns.put
  · exact ⟨_, _, rfl⟩
  · exact ⟨_, _, rfl⟩

end Scripted

theorem Program.ends_of_returns {α : Type} (p : Program α) {faults : Faults}
    (returns : faults.Returns) (state : Scripted) :
    ∃ value last, p.Ends (Scripted.backend faults) state value last := by
  induction p generalizing state with
  | done a => exact ⟨a, state, ends_done a state⟩
  | head location next ih =>
    obtain ⟨answer, middle, called⟩ := Scripted.head_returns returns location state
    obtain ⟨value, last, ends⟩ := ih answer middle
    exact ⟨value, last, ends_head called ends⟩
  | get location next ih =>
    obtain ⟨answer, middle, called⟩ := Scripted.get_returns returns location state
    obtain ⟨value, last, ends⟩ := ih answer middle
    exact ⟨value, last, ends_get called ends⟩
  | put location body ifMatch next ih =>
    obtain ⟨answer, middle, called⟩ := Scripted.put_returns returns location body ifMatch state
    obtain ⟨value, last, ends⟩ := ih answer middle
    exact ⟨value, last, ends_put called ends⟩
  | draw count next ih =>
    obtain ⟨value, last, ends⟩ := ih (Scripted.draw count state).1 (Scripted.draw count state).2
    exact ⟨value, last, ends_draw ends⟩
  | log event next ih =>
    obtain ⟨value, last, ends⟩ := ih state
    exact ⟨value, last, ends_log event ends⟩

theorem Program.Ends.admitted {σ α : Type} {backend : Backend σ} {p : Program α} {state last : σ}
    {value : α} {allowed : List Exchange → Exchange → Prop} {result : List Exchange → α → Prop}
    (ends : p.Ends backend state value last) (meets : p.Meets allowed result []) :
    result (p.exchanges backend state) value := by
  obtain ⟨events, run⟩ := ends
  rcases meets.value_cases backend state with ⟨a, ended, admitted⟩ | ⟨cut, -⟩
  · rw [run] at ended
    obtain rfl := Option.some.inj ended
    exact admitted
  · rw [run] at cut
    cases cut

namespace Http

variable {base : String} {site : Site} {request : Request} {operation : Operation}

namespace Request

/-- The path of the request is that of the account of an id: the base path and one more segment,
which no other route takes and which names the id. -/
def ForAccount (base : String) (request : Request) (id : String) : Prop :=
  ∃ segment, IsSegment segment ∧ segment ≠ "swagger" ∧ base ++ "/" ++ segment ≠ "/health" ∧
    Target.path request.target = base ++ "/" ++ segment ∧ Percent.decodeText? segment = some id

/-- The request is announced as JSON, is not too large and begins with the value. -/
structure Brings (request : Request) (v : Json.Value) : Prop where
  announced : request.announcesJson = true
  short : request.body.length ≤ bodyLimit
  read : Json.Value.readFirst? request.body = some v

inductive Asks (base : String) (request : Request) : Operation → Prop
  | get {id : String} (method : request.method = "GET") (account : request.ForAccount base id) :
    Asks base request (.get id)
  | delete {id : String} (method : request.method = "DELETE")
      (account : request.ForAccount base id) : Asks base request (.delete id)
  | create {id : String} {v : Json.Value} {input : AccountInput} (method : request.method = "POST")
      (account : request.ForAccount base id) (body : request.Brings v)
      (read : AccountInput.ofValue v = .ok input) : Asks base request (.create id input)
  | update {id : String} {v : Json.Value} {input : AccountInput} (method : request.method = "PUT")
      (account : request.ForAccount base id) (body : request.Brings v)
      (read : AccountInput.ofValue v = .ok input) : Asks base request (.update id input)
  | list (method : request.method = "GET")
      (path : Endpoint.list.Covers base (Target.path request.target)) : Asks base request .list

theorem jsonBody_eq_ok_iff {v : Json.Value} : request.jsonBody = .ok v ↔ request.Brings v := by
  unfold jsonBody
  constructor
  · intro h
    split_ifs at h with unannounced long
    split at h
    · rename_i read
      obtain rfl := Except.ok.inj h
      exact ⟨by simpa using unannounced, by omega, read⟩
    · cases h
  · rintro ⟨announced, short, read⟩
    simp [announced, Nat.not_lt.2 short, read]

theorem brings_of_read? {v : Json.Value} (announced : request.announcesJson = true)
    (short : request.body.length ≤ bodyLimit) (read : Json.Value.read? request.body = some v) :
    request.Brings v := by
  refine ⟨announced, short, ?_⟩
  unfold Json.Value.read? at read
  cases whole : Json.readWhole Json.Value.readFirst request.body with
  | error fault => simp [whole, Except.toOption] at read
  | ok value =>
    rw [whole] at read
    obtain rfl := Option.some.inj read
    obtain ⟨rest, first⟩ := Json.read_of_readWhole whole
    rw [Json.Value.readFirst?, first]
    rfl

end Request

theorem Site.router_of_build (plain : Plain base.toList) {service : Service}
    {docs : Option ApiDocument} (built : Site.build service docs base = .ok site) :
    site.router = Router.below base ∧ base ≠ "/health" := by
  unfold Site.build at built
  split at built
  · rename_i router routes
    obtain rfl := Except.ok.inj built
    exact ⟨Router.eq_below_of_build plain routes, Router.ne_health_of_build routes⟩
  · cases built

theorem Site.find?_of_forAccount (router : site.router = Router.below base)
    (free : base ≠ "/health") {id : String} (account : request.ForAccount base id) :
    ∃ found, site.router.find? (Target.path request.target) = some found ∧
      found.route.endpoint = .account ∧ onlyParameter found.captures = .ok id := by
  obtain ⟨segment, single, other, unchecked, path, decoded⟩ := account
  obtain ⟨route, found, endpoint⟩ := Router.find?_of_leads free (.account single other unchecked)
  refine ⟨_, by rw [router, path, found], endpoint, ?_⟩
  rw [onlyParameter_single, decoded]

theorem Site.operation?_of_asks (router : site.router = Router.below base)
    (free : base ≠ "/health") (asks : request.Asks base operation) :
    site.operation? request = some operation := by
  have onAccount : ∀ id, request.ForAccount base id →
      site.operation? request = request.onAccount? id := by
    intro id account
    obtain ⟨found, h, endpoint, only⟩ := find?_of_forAccount router free account
    simp only [operation?, h, endpoint, only]
  cases asks with
  | get method account => simp [onAccount _ account, Request.onAccount?, method]
  | delete method account => simp [onAccount _ account, Request.onAccount?, method]
  | create method account body read =>
    have input := Request.input?_eq_some_iff.2 ⟨_, Request.jsonBody_eq_ok_iff.2 body, read⟩
    simp [onAccount _ account, Request.onAccount?, method, input]
  | update method account body read =>
    have input := Request.input?_eq_some_iff.2 ⟨_, Request.jsonBody_eq_ok_iff.2 body, read⟩
    simp [onAccount _ account, Request.onAccount?, method, input]
  | list method path =>
    obtain ⟨captures, leads⟩ := Endpoint.covers_iff.1 path
    obtain ⟨route, found, endpoint⟩ := Router.find?_of_leads free leads
    simp [operation?, router, found, endpoint, method]

section

variable {σ : Type} {backend : Backend σ} {state last : σ}

theorem ends_reject (kind : Failure.Kind) (message : String) :
    Ends backend (reject kind message) state (Response.error kind.status message) state := by
  cases kind <;> exact ends_log _ (ends_done _ _)

theorem ends_conclude (reply : Reply) :
    Ends backend (conclude reply) state (concluded reply) state := by
  cases reply with
  | account answer => exact ends_log _ (ends_done _ _)
  | failed failure => exact ends_reject _ _
  | _ => exact ends_done _ _

theorem ends_readInput (missing : request.input? = none) :
    Ends backend (readInput request).run state (.error .invalidInput) state := by
  unfold Request.input? at missing
  unfold readInput
  cases body : request.jsonBody with
  | error fault => exact ends_log _ (ends_done _ _)
  | ok v =>
    rw [body] at missing
    dsimp only at missing
    have refused : AccountInput.ofValue v = .error .invalidInput := by
      rw [AccountInput.ofValue, missing]
    change Ends backend (done (AccountInput.ofValue v)) state _ state
    rw [refused]
    exact ends_done _ _

theorem ends_respond_of_error {α : Type} {attempt : Attempt α} {succeed : α → Program Response}
    {failure : Failure} (h : Ends backend attempt.run state (.error failure) last) :
    Ends backend (respond attempt succeed) state
      (Response.error failure.kind.status failure.message)
      last :=
  Ends.bind h (ends_reject _ _)

theorem Site.ends_handle_of_refused (router : site.router = Router.below base)
    (free : base ≠ "/health") {id : String} (account : request.ForAccount base id)
    (writing : request.method = "POST" ∨ request.method = "PUT") (missing : request.input? = none) :
    Ends backend (site.handle request) state
      (Response.error 400 "Invalid request type or schema") state := by
  obtain ⟨found, h, endpoint, only⟩ := find?_of_forAccount router free account
  have refused : ∀ next : AccountInput → Attempt AccountAnswer,
      Ends backend (readInput request >>= next).run state (.error .invalidInput) state :=
    fun next => Ends.bind (ends_readInput missing) (ends_done _ _)
  simp only [handle, h, handleFound, endpoint]
  rcases writing with post | put
  · simp only [handleAccount, post, createAccount, withParameter_ok only]
    exact ends_respond_of_error (refused _)
  · simp only [handleAccount, put, updateAccount, withParameter_ok only]
    exact ends_respond_of_error (refused _)

end

/-- The response tells a caller the reply of an account operation. -/
def Response.Tells (response : Response) : Reply → Prop
  | .account answer => response.status = answer.statusCode ∧ response.body = answer.write
  | .failed failure => response.status = failure.kind.status ∧
      response.body = ErrorAnswer.write ⟨failure.message, failure.kind.status⟩
  | _ => False

theorem tells_concluded {past : List Exchange} {reply : Reply}
    (reports : operation.Reports past reply)
    (request : Request) : ((concluded reply).coded request).Tells reply := by
  rcases reports.shape with ⟨answer, rfl, -⟩ | ⟨failure, rfl⟩
  · exact ⟨Response.status_coded _ _, Response.body_coded _ _⟩
  · exact ⟨Response.status_coded _ _, Response.body_coded _ _⟩

end Http

namespace Session

variable {session : Session} {faults : Faults} {request : Http.Request} {state last : Scripted}

theorem step_request_of_ends {response : Http.Response}
    (ends : Ends (Scripted.backend faults) (session.site.handle request)
      { state with calls := [] } response last) :
    (session.step faults (.request request) state).result = .response (response.coded request) ∧
      (session.step faults (.request request) state).state = last := by
  obtain ⟨events, run⟩ := ends
  simp only [step, exchange, run, Http.Site.answer, Option.getD_some, and_self]

theorem step_operation_of_ends {operation : Operation} {reply : Reply}
    (ends : Ends (Scripted.backend faults) (operation.run session.site.service)
      { state with calls := [] } reply last) :
    (session.step faults (.operation operation) state).result = .reply reply ∧
      (session.step faults (.operation operation) state).state = last := by
  obtain ⟨events, run⟩ := ends
  simp only [step, perform, run, and_self]

theorem step_request_eq {operation : Operation}
    (asks : session.site.operation? request = some operation) (returns : faults.Returns)
    (state : Scripted) :
    let sent := session.step faults (.request request) state
    let direct := session.step faults (.operation operation) state
    sent.state = direct.state ∧ ∃ reply response, direct.result = .reply reply ∧
      sent.result = .response response ∧ response.Tells reply := by
  intro sent direct
  obtain ⟨reply, last, ends⟩ := (operation.run session.site.service).ends_of_returns returns
    { state with calls := [] }
  have handled : Ends (Scripted.backend faults) (session.site.handle request)
      { state with calls := [] } (Http.concluded reply) last := by
    rw [Http.Site.handle_of_operation? asks]
    exact Ends.bind ends (Http.ends_conclude reply)
  obtain ⟨result, state'⟩ := step_request_of_ends handled
  obtain ⟨direct', state''⟩ := step_operation_of_ends ends
  refine ⟨state'.trans state''.symm, reply, _, direct', result, ?_⟩
  exact Http.tells_concluded (ends.admitted
    (Operation.meets_reports (Http.Site.onAccounts_of_operation? asks))) request

end Session

open Http

/-- Below a plain base path, a request for an account or for the list does to the store, the record
of calls and the supply of vectors what the operation does that it asks for, and its response tells
the reply. One to create or update an account that does not bring an input is refused and does
nothing. A body that is JSON is always taken for the value that it is. -/
theorem requests_agree_with_operations {base : String} (plain : Plain base.toList)
    {service : Service} {docs : Option ApiDocument} {site : Site}
    (built : Site.build service docs base = .ok site) {faults : Faults} (returns : faults.Returns)
    (request : Request) (state : Scripted) :
    let session : Session := ⟨site⟩
    let sent := session.step faults (.request request) state
    (∀ operation, request.Asks base operation →
      let direct := session.step faults (.operation operation) state
      sent.state = direct.state ∧ ∃ reply response, direct.result = .reply reply ∧
        sent.result = .response response ∧ response.Tells reply) ∧
    (∀ id, request.ForAccount base id → request.method = "POST" ∨ request.method = "PUT" →
      (∀ v input, request.Brings v → AccountInput.ofValue v ≠ .ok input) →
      sent.state = { state with calls := [] } ∧ ∃ response, sent.result = .response response ∧
        response.status = 400 ∧
        response.body = ErrorAnswer.write ⟨"Invalid request type or schema", 400⟩) ∧
    ∀ v, request.announcesJson = true → request.body.length ≤ Request.bodyLimit →
      Json.Value.read? request.body = some v → request.Brings v := by
  intro session sent
  obtain ⟨below, free⟩ := Site.router_of_build plain built
  refine ⟨fun operation asks => ?_, fun id account writing refused => ?_,
    fun v announced short read => Request.brings_of_read? announced short read⟩
  · exact Session.step_request_eq (Site.operation?_of_asks below free asks) returns state
  · have missing : request.input? = none := by
      rw [Option.eq_none_iff_forall_ne_some]
      intro input found
      obtain ⟨v, body, read⟩ := Request.input?_eq_some_iff.1 found
      exact refused v input (Request.jsonBody_eq_ok_iff.1 body) read
    obtain ⟨result, last⟩ := @Session.step_request_of_ends session faults request state _ _
      (Site.ends_handle_of_refused below free account writing missing)
    exact ⟨last, _, result, Response.status_coded _ _, Response.body_coded _ _⟩

theorem requests_agree_with_operations_escaped :
    ∃ site, Site.build ⟨⟨"bucket", "key"⟩, none⟩ none "/accounts" = .ok site ∧
      let session : Session := ⟨site⟩
      let faults : Faults := { get := some .untagged }
      let get : Session.Action := .request ⟨"GET", "/accounts/%61?x=1", [], []⟩
      let put : Session.Action := .request ⟨"PUT", "/accounts/a", [], []⟩
      (session.step faults get resting.state).state =
          (session.step faults (.operation (.get "a")) resting.state).state ∧
        (session.step faults put resting.state).state = resting.state := by
  have plain : Plain "/accounts".toList := by simp [Plain]
  have routes := Router.build_eq_below (.inr (by decide +kernel)) plain (by simp)
  obtain ⟨site, built⟩ : ∃ site,
      Site.build ⟨⟨"bucket", "key"⟩, none⟩ none "/accounts" = .ok site := by
    simp [Site.build, routes]
  refine ⟨site, built, ?_⟩
  intro session faults get put
  have returns : faults.Returns := ⟨by simp [faults], by simp [faults], by simp [faults]⟩
  constructor
  · obtain ⟨agrees, -⟩ := requests_agree_with_operations plain built returns
      ⟨"GET", "/accounts/%61?x=1", [], []⟩ resting.state
    exact (agrees (.get "a") (.get rfl ⟨"%61", by decide +kernel⟩)).1
  · obtain ⟨-, refuses, -⟩ := requests_agree_with_operations plain built returns
      ⟨"PUT", "/accounts/a", [], []⟩ resting.state
    refine (refuses "a" ⟨"a", by decide +kernel⟩ (.inr rfl) ?_).1
    intro v input brings
    exact absurd brings.announced (by decide +kernel)

/-- A body with text after its JSON value is not JSON, and yet an account is created from it. -/
theorem trailing_text_accepted :
    let body := Utf8.encode "\x7b\"accountType\":1,\"apiKey\":\"k\",\"apiPassword\":\"p\"\x7dx"
    let request : Request := ⟨"POST", "/c", [("content-type", "application/json")], body⟩
    let session : Session := ⟨⟨⟨⟨"bucket", "key"⟩, some ⟨List.replicate 32 0, rfl⟩⟩, none, "",
      Router.below ""⟩⟩
    let report := session.step {} (.request request) resting.state
    Json.Value.read? body = none ∧ request.ForAccount "" "c" ∧
      (∃ response, report.result = .response response ∧ response.status = 201) ∧
      report.state.calls = [.head session.location, .get session.location,
        .put session.location (some (MemoryStore.tag 1))] := by
  intro body request session report
  refine ⟨?_, ⟨"c", ?_⟩, ⟨_, rfl, ?_⟩, ?_⟩
  · exact Option.isNone_iff_eq_none.1 (by decide +kernel)
  · decide +kernel
  · decide +kernel
  · decide +kernel

end AccountVault
