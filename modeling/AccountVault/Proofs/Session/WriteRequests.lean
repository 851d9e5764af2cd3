import Mathlib
import AccountVault.Proofs.Http.Routes
import AccountVault.Proofs.Session.Failures
import AccountVault.Proofs.Session.Records

/-!
# Which requests write

A write is attempted and a vector is drawn only for a request that names an account by a text and
asks to delete it or brings an input for it; to delete an account no vector is drawn. So a run of
other requests, whatever its faults, leaves the store as other writers made it and the supply of
vectors as it was.
-/

namespace AccountVault

open Program

namespace Http

variable {site : Site} {request : Request} {operation : Operation} {id : String}

/-- The request names an account by a text, and asks to delete it or brings an input for it. -/
structure Request.MayWrite (site : Site) (request : Request) : Prop where
  named : ∃ found capture id, site.router.find? (Target.path request.target) = some found ∧
    found.route.endpoint = .account ∧ found.captures = [capture] ∧
    Percent.decodeText? capture.value = some id
  asked : request.method = "DELETE" ∨ (request.method = "POST" ∨ request.method = "PUT") ∧
    ∃ v input, request.jsonBody = .ok v ∧ AccountInput.ofValue v = .ok input

theorem eq_singleton_of_onlyParameter {captures : List Capture}
    (h : onlyParameter captures = .ok id) :
    ∃ capture, captures = [capture] ∧ Percent.decodeText? capture.value = some id := by
  unfold onlyParameter at h
  split at h
  · cases h
  · rename_i decodable
    have texts : ∀ capture ∈ captures, ∃ text, Percent.decodeText? capture.value = some text := by
      simpa [undecodable?, Option.ne_none_iff_exists'] using decodable
    match captures with
    | [] => cases h
    | [capture] =>
      obtain ⟨text, decoded⟩ := texts capture (by simp)
      simp only [List.filterMap_cons, decoded, List.filterMap_nil, Except.ok.injEq] at h
      exact ⟨capture, rfl, decoded.trans (congrArg some h)⟩
    | first :: second :: rest =>
      obtain ⟨text, decoded⟩ := texts first (by simp)
      obtain ⟨other, decoded'⟩ := texts second (by simp)
      simp only [List.filterMap_cons, decoded, decoded', reduceCtorEq] at h

theorem asked_of_onAccount? (h : request.onAccount? id = some operation)
    (changes : operation.Changes) :
    request.method = "DELETE" ∨ (request.method = "POST" ∨ request.method = "PUT") ∧
      ∃ v input, request.jsonBody = .ok v ∧ AccountInput.ofValue v = .ok input := by
  unfold Request.onAccount? at h
  split_ifs at h with read post put delete
  · cases h
    exact changes.elim
  · obtain ⟨input, found, rfl⟩ := Option.map_eq_some_iff.1 h
    obtain ⟨v, body, read⟩ := Request.input?_eq_some_iff.1 found
    exact .inr ⟨.inl post, v, input, body, read⟩
  · obtain ⟨input, found, rfl⟩ := Option.map_eq_some_iff.1 h
    obtain ⟨v, body, read⟩ := Request.input?_eq_some_iff.1 found
    exact .inr ⟨.inr put, v, input, body, read⟩
  · exact .inl delete

theorem Site.of_operation? (h : site.operation? request = some operation) :
    operation = .list ∧ (request.method = "GET" ∨ request.method = "HEAD") ∨
      ∃ found id, site.router.find? (Target.path request.target) = some found ∧
        found.route.endpoint = .account ∧ onlyParameter found.captures = .ok id ∧
        request.onAccount? id = some operation := by
  unfold operation? at h
  split at h
  · cases h
  · rename_i found hf
    split at h
    · rename_i endpoint
      split at h
      · rename_i id hc
        exact .inr ⟨found, id, hf, endpoint, hc, h⟩
      · cases h
    · split_ifs at h with read
      exact .inl ⟨(Option.some.inj h).symm, by simpa using read⟩
    · cases h

theorem Site.mayWrite_of_operation? (h : site.operation? request = some operation)
    (changes : operation.Changes) : request.MayWrite site := by
  rcases of_operation? h with ⟨rfl, -⟩ | ⟨found, id, hf, account, only, asks⟩
  · exact changes.elim
  · obtain ⟨capture, single, text⟩ := eq_singleton_of_onlyParameter only
    exact ⟨⟨found, capture, id, hf, account, single, text⟩, asked_of_onAccount? asks changes⟩

theorem Site.eq_delete_of_operation? (h : site.operation? request = some operation)
    (delete : request.method = "DELETE") : ∃ id, operation = .delete id := by
  rcases of_operation? h with ⟨-, read | read⟩ | ⟨found, id, -, -, -, asks⟩
  · simp [delete] at read
  · simp [delete] at read
  · have asked : Operation.delete id = operation := by
      simpa [Request.onAccount?, delete] using asks
    exact ⟨id, asked.symm⟩

end Http

theorem Operation.Turn.changes_of_put {service : Service} {operation : Operation}
    {past : List Exchange} {location : Location} {body : Bytes} {ifMatch : Option String}
    {answer : Except StoreError (Option String)}
    (h : operation.Turn service past (.put location body ifMatch answer)) : operation.Changes := by
  obtain ⟨object, document, changed, drawn, -, -, change, -⟩ := h.of_put
  exact change.changes

theorem Operation.Turn.needsVector_of_draw {service : Service} {operation : Operation}
    {past : List Exchange} {count : Nat} {answer : Except IvError Bytes}
    (h : operation.Turn service past (.draw count answer)) :
    ∃ document, operation.NeedsVector document := by
  generalize hx : Exchange.draw count answer = x at h
  cases h with
  | draw answer parsed needed configured => exact ⟨_, needed⟩
  | _ => cases hx

theorem Operation.NeedsVector.changes {operation : Operation} {document : Document}
    (h : operation.NeedsVector document) : operation.Changes := by
  cases operation with
  | create id input => trivial
  | update id input => trivial
  | _ => exact h.elim

namespace Session

variable {session : Session} {faults : Faults} {request : Http.Request} {state : Scripted}

def Turns (site : Http.Site) (request : Http.Request) (past : List Exchange) (x : Exchange) :
    Prop :=
  ∃ operation, site.operation? request = some operation ∧ operation.Turn site.service past x

theorem records_step (session : Session) (faults : Faults) (request : Http.Request)
    (state : Scripted) :
    Scripted.Records (Turns session.site request) { state with calls := [] }
      (session.step faults (.request request) state).state := by
  have meets : Meets (Turns session.site request) (fun _ _ => True)
      (session.site.handle request) [] := by
    apply meets_handle
    intro operation asks
    refine (Operation.meets_run (Http.Site.onAccounts_of_operation? asks)).mono ?_ ?_
    · intro past x turn
      exact ⟨operation, asks, turn⟩
    · intro past reply _
      trivial
  exact meets.records faults _

theorem mayWrite_of_put {location : Location} {ifMatch : Option String}
    (put : .put location ifMatch ∈ (session.step faults (.request request) state).state.calls) :
    request.MayWrite session.site := by
  obtain ⟨made, calls, made'⟩ := (session.records_step faults request state).calls
  rw [calls, List.nil_append] at put
  obtain ⟨past, x, ⟨operation, asks, turn⟩, placed⟩ := made' _ put
  cases x with
  | put place body tag answer => exact Http.Site.mayWrite_of_operation? asks turn.changes_of_put
  | _ => cases placed

theorem drawn_step (spare : ∀ operation document, session.site.operation? request = some operation →
      ¬operation.NeedsVector document) :
    let last := (session.step faults (.request request) state).state
    last.drawn = state.drawn ∧ last.prepared = state.prepared := by
  obtain ⟨drew, drawn, prepared, drew'⟩ := (session.records_step faults request state).draws
  have none : drew = [] := by
    apply List.eq_nil_iff_forall_not_mem.2
    intro count mem
    obtain ⟨past, answer, operation, asks, turn⟩ := drew' count mem
    obtain ⟨document, needed⟩ := turn.needsVector_of_draw
    exact spare operation document asks needed
  subst none
  exact ⟨by simpa using drawn, by simpa using prepared⟩

theorem drawn_step_of_not_mayWrite (h : ¬request.MayWrite session.site) (faults : Faults)
    (state : Scripted) :
    let last := (session.step faults (.request request) state).state
    last.drawn = state.drawn ∧ last.prepared = state.prepared := by
  apply drawn_step
  intro operation document asks needed
  exact h (Http.Site.mayWrite_of_operation? asks needed.changes)

theorem store_step_of_not_mayWrite (h : ¬request.MayWrite session.site) (faults : Faults)
    (state : Scripted) :
    (session.step faults (.request request) state).state.store =
      session.aside faults (.request request) state := by
  have onAccounts : (Action.request request).OnAccounts := trivial
  refine store_step_of_not_stores onAccounts ?_
  by_contra stores
  rw [Bool.not_eq_false] at stores
  obtain ⟨operation, object, document, changed, drawn, tag, asks, -, -, change⟩ :=
    exchanges_of_stores onAccounts stores
  exact h (Http.Site.mayWrite_of_operation? asks change.changes)

theorem isSome_objects_of_racedIn? {action : Action} {body : Bytes} (h : action.OnAccounts)
    (raced : Occurrence.racedIn? ⟨faults, action, session.exchanges faults action state⟩ =
      some body) :
    (state.store.objects session.location).isSome = true := by
  have fetches : (session.exchanges faults action state).any Exchange.fetches = true := by
    unfold Occurrence.racedIn? at raced
    split at raced
    · simp only [Option.ite_none_right_eq_some] at raced
      exact raced.1
    · cases raced
  obtain ⟨object, rest, split, -⟩ := exchanges_of_fetches h fetches
  have fetched : session.exchanges faults action state =
      [.head session.location (.ok ())] ++ .get session.location (.ok object) :: rest := by
    simp [split, Service.fetched, location]
  have found := body?_of_exchanges fetched
  change (state.store.objects session.location).map _ = _ at found
  obtain ⟨stored, present, -⟩ := Option.map_eq_some_iff.1 found
  simp [present]

/-- Between the two states other writers have put the bodies in the place of a document, one after
another, and nothing else has happened to the store or to the supply of vectors. -/
structure OnlyReplaced (session : Session) (bodies : List Bytes) (state last : Scripted) :
    Prop where
  store : last.store =
    bodies.foldl (fun store body => store.insert session.location body) state.store
  present : (last.store.objects session.location).isSome =
    (state.store.objects session.location).isSome
  drawn : last.drawn = state.drawn
  prepared : last.prepared = state.prepared

theorem OnlyReplaced.trans {bodies more : List Bytes} {middle last : Scripted}
    (first : session.OnlyReplaced bodies state middle)
    (second : session.OnlyReplaced more middle last) :
    session.OnlyReplaced (bodies ++ more) state last where
  store := by rw [second.store, first.store, List.foldl_append]
  present := second.present.trans first.present
  drawn := second.drawn.trans first.drawn
  prepared := second.prepared.trans first.prepared

def replacements (session : Session) (steps : List (Faults × Action)) (state : Scripted) :
    List Bytes :=
  (session.history steps state).filterMap Occurrence.racedIn?

theorem onlyReplaced_step (h : ¬request.MayWrite session.site) (faults : Faults)
    (state : Scripted) :
    session.OnlyReplaced (session.replacements [(faults, .request request)] state) state
      (session.step faults (.request request) state).state := by
  have onAccounts : (Action.request request).OnAccounts := trivial
  obtain ⟨drawn, prepared⟩ := drawn_step_of_not_mayWrite h faults state
  have store := store_step_of_not_mayWrite h faults state
  unfold aside at store
  unfold replacements history history
  cases raced : Occurrence.racedIn?
      ⟨faults, .request request, session.exchanges faults (.request request) state⟩ with
  | none =>
    rw [raced] at store
    refine ⟨by simp [raced, store], by rw [store], drawn, prepared⟩
  | some body =>
    rw [raced] at store
    refine ⟨by simp [raced, store], ?_, drawn, prepared⟩
    rw [store, isSome_objects_of_racedIn? onAccounts raced, MemoryStore.objects_insert_self]
    rfl

theorem replacements_cons (step : Faults × Action) (steps : List (Faults × Action)) :
    session.replacements (step :: steps) state =
      session.replacements [step] state ++
        session.replacements steps (session.step step.1 step.2 state).state := by
  simp only [replacements, history, List.filterMap_cons, List.filterMap_nil]
  split <;> rfl

def sending (requests : List (Faults × Http.Request)) : List (Faults × Action) :=
  requests.map fun sent => (sent.1, .request sent.2)

theorem onlyReplaced_after {requests : List (Faults × Http.Request)}
    (h : ∀ sent ∈ requests, ¬sent.2.MayWrite session.site) (state : Scripted) :
    session.OnlyReplaced (session.replacements (sending requests) state) state
      (session.after (sending requests) state) := by
  induction requests generalizing state with
  | nil => exact ⟨rfl, rfl, rfl, rfl⟩
  | cons sent requests ih =>
    have first := onlyReplaced_step (h sent (by simp)) sent.1 state
    have rest := ih (fun later mem => h later (List.mem_cons_of_mem _ mem))
      (session.step sent.1 (.request sent.2) state).state
    have both := first.trans rest
    rwa [← replacements_cons (sent.1, .request sent.2)] at both

end Session

/-- A request makes a write call or draws a vector only if it names an account by a text and asks to
delete it, for which no vector is drawn, or brings an input for it. A run of other requests changes
nothing: the store is what other writers made of it, a document is there afterwards if there was one
before, and no vector is used up. -/
theorem only_write_requests_write (session : Session) :
    (∀ (faults : Faults) (request : Http.Request) (state : Scripted),
      let last := (session.step faults (.request request) state).state
      ((∃ location ifMatch, .put location ifMatch ∈ last.calls) → request.MayWrite session.site) ∧
      (last.drawn ≠ state.drawn → request.MayWrite session.site) ∧
      (request.method = "DELETE" → last.drawn = state.drawn)) ∧
    ∀ (requests : List (Faults × Http.Request)) (state : Scripted),
      (∀ sent ∈ requests, ¬sent.2.MayWrite session.site) →
        session.OnlyReplaced (session.replacements (Session.sending requests) state) state
          (session.after (Session.sending requests) state) := by
  refine ⟨fun faults request state => ⟨?_, ?_, ?_⟩, fun requests state idle => ?_⟩
  · rintro ⟨location, ifMatch, put⟩
    exact Session.mayWrite_of_put put
  · intro drew
    by_contra idle
    exact drew (Session.drawn_step_of_not_mayWrite idle faults state).1
  · intro delete
    refine (Session.drawn_step ?_).1
    intro operation document asks needed
    obtain ⟨id, rfl⟩ := Http.Site.eq_delete_of_operation? asks delete
    exact needed
  · exact Session.onlyReplaced_after idle state

def idling : List (Faults × Http.Request) :=
  [({ get := some (.race (Utf8.encode "x")) }, ⟨"GET", "/a", [], []⟩),
    ({}, ⟨"PUT", "/a", [("content-type", "text/plain")],
      Utf8.encode "\x7b\"accountType\":1,\"apiKey\":\"k\",\"apiPassword\":\"p\"\x7d"⟩),
    ({}, ⟨"PATCH", "/a", [], []⟩)]

theorem only_write_requests_write_idling :
    let session : Session := ⟨⟨⟨⟨"bucket", "key"⟩, some ⟨List.replicate 32 0, rfl⟩⟩, none, "",
      Http.Router.below ""⟩⟩
    let last := session.after (Session.sending idling) resting.state
    last.store.objects session.location = some (Utf8.encode "x", MemoryStore.tag 2) ∧
      last.drawn = [] ∧ (⟨"DELETE", "/b", [], []⟩ : Http.Request).MayWrite session.site := by
  intro session last
  have plain : ∀ sent ∈ idling, sent.2.method ≠ "DELETE" ∧ sent.2.announcesJson = false := by
    decide +kernel
  have idle : ∀ sent ∈ idling, ¬sent.2.MayWrite session.site := by
    intro sent mem may
    obtain ⟨keeps, unannounced⟩ := plain sent mem
    rcases may.asked with delete | ⟨-, v, input, body, -⟩
    · exact keeps delete
    · simp [Http.Request.jsonBody, unannounced] at body
  obtain ⟨writing, idling_only⟩ := only_write_requests_write session
  have left := idling_only idling resting.state idle
  have raced : session.replacements (Session.sending idling) resting.state = [Utf8.encode "x"] := by
    decide +kernel
  rw [raced] at left
  refine ⟨?_, left.drawn,
    (writing {} _ resting.state).1 ⟨⟨"bucket", "key"⟩, some (MemoryStore.tag 1), ?_⟩⟩
  · rw [left.store]
    decide +kernel
  · decide +kernel

end AccountVault
