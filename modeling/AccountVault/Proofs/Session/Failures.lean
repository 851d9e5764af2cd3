import Mathlib
import AccountVault.Proofs.Security.AtRest

/-!
# What a failed step leaves behind

A step of a session writes at most once, at its end, and only at the location of the service. If it
fails without having written, the store is what the step found there, apart from what another writer
put in its place meanwhile. The one failure that comes after a write is that of a write which was
carried out but not confirmed: it has a message of its own, and the bytes that were meant to be
written are stored.
-/

namespace AccountVault

open Program

namespace Http

def concluded : Reply → Response
  | .account answer => Response.json answer.statusCode [] answer.write
  | .failed failure => Response.error failure.kind.status failure.message
  | _ => Response.invalidRequest

theorem meets_conclude {allowed : List Exchange → Exchange → Prop}
    {result : List Exchange → Response → Prop} {reply : Reply} {past : List Exchange}
    (h : result past (concluded reply)) : Meets allowed result (conclude reply) past := by
  cases reply with
  | failed failure =>
    simp only [conclude, concluded, reject] at h ⊢
    cases hk : failure.kind <;> rw [hk] at h <;> exact h
  | _ => exact h

theorem Response.status_coded (response : Response) (request : Request) :
    (response.coded request).status = response.status := by
  unfold coded
  dsimp only
  split_ifs
  · rfl
  · split <;> rfl

end Http

theorem Operation.Rewrites.changes {service : Service} {operation : Operation}
    {drawn : List Exchange} {document changed : Document}
    (h : operation.Rewrites service drawn document changed) : operation.Changes := by
  cases h <;> trivial

theorem Operation.Turn.of_get {service : Service} {operation : Operation} {past : List Exchange}
    {location : Location} {answer : Except StoreError StoredObject}
    (h : operation.Turn service past (.get location answer)) :
    past = [.head service.location (.ok ())] ∧ location = service.location := by
  generalize hx : Exchange.get location answer = x at h
  cases h with
  | fetch answer =>
    injection hx with same
    exact ⟨rfl, same⟩
  | _ => cases hx

theorem Exchange.effect_of_quiet {x : Exchange} (fetches : x.fetches = false)
    (stores : x.stores = false) (faults : Faults) (store : MemoryStore) :
    x.effect faults store = store := by
  match x, fetches, stores with
  | .head _ _, _, _ => rfl
  | .draw _ _, _, _ => rfl
  | .get _ (.error _), _, _ => rfl
  | .put _ _ _ (.error _), _, _ => rfl

theorem foldl_effect_of_quiet {list : List Exchange} (fetches : ∀ x ∈ list, x.fetches = false)
    (stores : ∀ x ∈ list, x.stores = false) (faults : Faults) (store : MemoryStore) :
    list.foldl (Exchange.effect faults) store = store := by
  induction list with
  | nil => rfl
  | cons x list ih =>
    rw [List.foldl_cons, Exchange.effect_of_quiet (fetches x (by simp)) (stores x (by simp))]
    exact ih (fun y hy => fetches y (List.mem_cons_of_mem _ hy))
      fun y hy => stores y (List.mem_cons_of_mem _ hy)

theorem Exchange.At.objects_effect {location place : Location} {x : Exchange}
    (hx : x.At location) (other : place ≠ location) (faults : Faults) (store : MemoryStore) :
    (x.effect faults store).objects place = store.objects place := by
  match x, hx with
  | .get _ (.ok _), hx =>
    obtain rfl := hx
    unfold effect
    dsimp only
    split
    · exact MemoryStore.objects_insert_of_ne other
    · rfl
  | .put _ _ _ (.ok _), hx =>
    obtain rfl := hx
    exact MemoryStore.objects_insert_of_ne other
  | .get _ (.error _), _ => rfl
  | .put _ _ _ (.error _), _ => rfl
  | .head _ _, _ => rfl
  | .draw _ _, _ => rfl

theorem objects_foldl_effect {location place : Location} {list : List Exchange}
    (h : ∀ x ∈ list, x.At location) (other : place ≠ location) (faults : Faults)
    (store : MemoryStore) :
    (list.foldl (Exchange.effect faults) store).objects place = store.objects place := by
  induction list generalizing store with
  | nil => rfl
  | cons x list ih =>
    rw [List.foldl_cons, ih fun y hy => h y (List.mem_cons_of_mem _ hy)]
    exact (h x (by simp)).objects_effect other faults store

def Exchange.leaves : Exchange → Bool
  | put _ _ _ (.ok none) => true
  | _ => false

theorem unconfirmed_iff {past : List Exchange} :
    past.any Exchange.leaves = true ↔ Unconfirmed past := by
  rw [List.any_eq_true]
  constructor
  · rintro ⟨x, hx, leaves⟩
    match x, leaves with
    | .put location body ifMatch (.ok none), _ => exact ⟨location, body, ifMatch, hx⟩
  · rintro ⟨location, body, ifMatch, hx⟩
    exact ⟨_, hx, rfl⟩

instance (past : List Exchange) : Decidable (Unconfirmed past) := decidable_of_iff _ unconfirmed_iff

namespace Session

variable {session : Session} {faults : Faults} {action : Action} {state : Scripted}

def aside (session : Session) (faults : Faults) (action : Action) (state : Scripted) :
    MemoryStore :=
  match Occurrence.racedIn? ⟨faults, action, session.exchanges faults action state⟩ with
  | some body => state.store.insert session.location body
  | none => state.store

theorem exchanges_of_fetches (h : action.OnAccounts)
    (fetches : (session.exchanges faults action state).any Exchange.fetches = true) :
    ∃ object rest, session.exchanges faults action state =
        session.site.service.fetched object ++ rest ∧ ∀ x ∈ rest, x.fetches = false := by
  have follows := session.exchanges_follow h faults state
  obtain ⟨y, hy, fetched⟩ := List.any_eq_true.1 fetches
  obtain ⟨before, rest, split⟩ := List.append_of_mem hy
  match y, fetched with
  | .get place (.ok object), _ =>
    rw [split] at follows
    obtain ⟨operation, -, turn⟩ := follows.of_append
    obtain ⟨rfl, rfl⟩ := turn.of_get
    refine ⟨object, rest, split, fun x hx => ?_⟩
    by_contra again
    obtain ⟨middle, last, rfl⟩ := List.append_of_mem hx
    match x, again with
    | .get place answer, _ =>
      -- A second fetch would have the first one before it.
      rw [← List.cons_append, ← List.append_assoc] at follows
      obtain ⟨operation, -, next⟩ := follows.of_append
      cases next.of_get.1
    | .head _ _, again => exact again rfl
    | .put _ _ _ _, again => exact again rfl
    | .draw _ _, again => exact again rfl

theorem store_step_of_not_stores (h : action.OnAccounts)
    (quiet : (session.exchanges faults action state).any Exchange.stores = false) :
    (session.step faults action state).state.store = session.aside faults action state := by
  have stores : ∀ x ∈ session.exchanges faults action state, x.stores = false := by
    simpa using quiet
  rw [store_step h, aside, Occurrence.racedIn?]
  cases fetches : (session.exchanges faults action state).any Exchange.fetches with
  | false =>
    rw [foldl_effect_of_quiet (by simpa using fetches) stores]
    cases faults.get with
    | none => rfl
    | some fault => cases fault <;> rfl
  | true =>
    obtain ⟨object, rest, split, once⟩ := exchanges_of_fetches h fetches
    have silent : ∀ x ∈ rest, x.stores = false := by
      intro x hx
      exact stores x (by simp [split, hx])
    rw [split, List.foldl_append, foldl_effect_of_quiet once silent]
    cases hf : faults.get with
    | none => simp [Service.fetched, Exchange.effect, hf]
    | some fault => cases fault <;> simp [Service.fetched, Exchange.effect, hf, location]

def Action.rendered : Action → Reply → Result
  | request r, reply => .response ((Http.concluded reply).coded r)
  | _, reply => .reply reply

def Result.Failed : Result → Prop
  | reply (.failed _) | cutOff => True
  | response r => 400 ≤ r.status
  | _ => False

instance (result : Result) : Decidable result.Failed :=
  match result with
  | .reply (.failed _) | .cutOff => .isTrue trivial
  | .response r => inferInstanceAs (Decidable (400 ≤ r.status))
  | .stored _ => .isFalse id
  | .reply .unreadable | .reply (.account _) | .reply (.truth _) | .reply (.document _)
  | .reply (.snapshot _) | .reply .finished | .reply (.sealed _) | .reply (.notSealed _)
  | .reply (.text _) => .isFalse id

theorem Action.failed_rendered {reply : Reply} :
    (action.rendered reply).Failed → ∀ answer, reply = .account answer →
      400 ≤ answer.statusCode := by
  rintro failed answer rfl
  cases action with
  | request r =>
    have status : 400 ≤ ((Http.concluded (.account answer)).coded r).status := failed
    rwa [Http.Response.status_coded] at status
  | _ => exact failed.elim

theorem result_cases (h : action.OnAccounts) (faults : Faults) (state : Scripted) :
    (∃ operation reply, action.asks? session.site = some operation ∧
        operation.Reports (session.exchanges faults action state) reply ∧
        (session.step faults action state).result = action.rendered reply) ∨
      (∀ x ∈ session.exchanges faults action state, ¬x.IsPut) ∧
        ((action.asks? session.site).isSome →
          (session.step faults action state).result.Failed) := by
  cases action with
  | operation operation =>
    rcases (Operation.meets_reports h).value_cases (Scripted.backend faults)
      { state with calls := [] } with ⟨reply, ended, reports⟩ | ⟨hung, x, turn⟩
    · left
      refine ⟨operation, reply, rfl, reports, ?_⟩
      simp only [step, perform, ended, Action.rendered]
    · refine .inr ⟨turn.not_isPut, fun _ => ?_⟩
      simp only [step, perform, hung]
      trivial
  | request request =>
    cases found : session.site.operation? request with
    | none =>
      right
      have none := (Http.Site.silent_handle found).exchanges_eq (Scripted.backend faults)
        { state with calls := [] }
      simp [exchanges, none, Action.asks?, found]
    | some operation =>
      have meets : (session.site.handle request).Meets (operation.Turn session.site.service)
          (fun past response => ∃ reply, operation.Reports past reply ∧
            response = Http.concluded reply) [] := by
        rw [Http.Site.handle_of_operation? found, meets_bind]
        refine (Operation.meets_reports (Http.Site.onAccounts_of_operation? found)).mono
          (fun _ _ turn => turn) fun past reply reports => ?_
        exact Http.meets_conclude ⟨reply, reports, rfl⟩
      rcases meets.value_cases (Scripted.backend faults) { state with calls := [] } with
        ⟨_, ended, reply, reports, rfl⟩ | ⟨hung, x, turn⟩
      · left
        refine ⟨operation, reply, found, reports, ?_⟩
        simp only [step, exchange, ended, Action.rendered, Http.Site.answer, Option.getD_some]
      · refine .inr ⟨turn.not_isPut, fun _ => ?_⟩
        simp only [step, exchange, hung, Http.Site.answer, Option.getD_none, Result.Failed,
          Http.Response.status_coded]
        decide
  | _ => exact absurd h id

theorem not_stores_of_failed (h : action.OnAccounts)
    (failed : (session.step faults action state).result.Failed)
    (confirmed : ¬Unconfirmed (session.exchanges faults action state)) :
    (session.exchanges faults action state).any Exchange.stores = false := by
  by_contra stores
  rw [Bool.not_eq_false] at stores
  obtain ⟨operation, object, document, changed, drawn, tag, asks, split, -, change⟩ :=
    exchanges_of_stores h stores
  have last : .put session.location changed.write object.etag (.ok tag) ∈
      session.exchanges faults action state := by
    rw [split]
    simp
  rcases result_cases h faults state with ⟨operation', reply, asks', reports, result⟩ | ⟨quiet, -⟩
  · obtain rfl := Option.some.inj (asks.symm.trans asks')
    cases tag with
    | none => exact confirmed ⟨_, _, _, last⟩
    | some tag =>
      obtain ⟨answer, rfl⟩ := (reports.concludes change.changes).2 ⟨_, _, _, tag, last⟩
      rw [result] at failed
      have status := Action.failed_rendered failed answer rfl
      rcases reports.shape with ⟨_, ⟨⟩, plain⟩ | ⟨_, ⟨⟩⟩
      omega
  · exact quiet _ last trivial

theorem result_of_unconfirmed (h : action.OnAccounts)
    (unconfirmed : Unconfirmed (session.exchanges faults action state)) :
    (session.step faults action state).result = action.rendered (.failed .unconfirmedWrite) := by
  rcases result_cases h faults state with ⟨operation, reply, -, reports, result⟩ | ⟨quiet, -⟩
  · rw [result, reports.unconfirmed unconfirmed]
  · exact absurd unconfirmed (not_unconfirmed quiet)

/-- The body that an operation means to store in the place of another, with what it has drawn. -/
def Intends (session : Session) (operation : Operation) (exchanged : List Exchange)
    (before after : Bytes) : Prop :=
  ∃ document drawn changed, Document.parse before = .ok document ∧
    (∀ x ∈ drawn, x ∈ exchanged) ∧
    operation.Rewrites session.site.service drawn document changed ∧ after = changed.write

theorem bodies_of_stores (h : action.OnAccounts)
    (stores : (session.exchanges faults action state).any Exchange.stores = true) :
    ∃ operation before after, action.asks? session.site = some operation ∧
      state.store.body? session.location = some before ∧
      session.Intends operation (session.exchanges faults action state) before after ∧
      (session.step faults action state).state.store.body? session.location = some after := by
  obtain ⟨operation, object, document, changed, drawn, tag, asks, split, parsed, change⟩ :=
    exchanges_of_stores h stores
  have drew : ∀ x ∈ drawn, x ∈ session.exchanges faults action state := by
    intro x hx
    simp [split, hx]
  refine ⟨operation, object.body, changed.write, asks, ?_, ⟨_, _, _, parsed, drew, change, rfl⟩, ?_⟩
  · have fetched : session.exchanges faults action state =
        [.head session.location (.ok ())] ++ .get session.location (.ok object) :: (drawn ++
          [.put session.location changed.write object.etag (.ok tag)]) := by
      simp [split, Service.fetched, location]
    exact body?_of_exchanges fetched
  · rw [store_step h, split, List.foldl_append]
    simp [Exchange.effect, MemoryStore.body?]

end Session

/-- A failed step leaves the object of the service as it was, bytes and tag, but for the replacement
by another writer, unless a write was carried out without a confirmation: that is told as a failure
of its own, and the bytes that were meant to be written are stored. Whatever comes of a step, other
objects are left alone. -/
theorem failed_step_leaves_store (session : Session) (faults : Faults) {action : Session.Action}
    (onAccounts : action.OnAccounts) (state : Scripted) :
    let report := session.step faults action state
    let exchanges := session.exchanges faults action state
    (∀ place, place ≠ session.location →
      report.state.store.objects place = state.store.objects place) ∧
    (report.result.Failed → ¬Unconfirmed exchanges →
      report.state.store.objects session.location =
        (session.aside faults action state).objects session.location) ∧
    (Unconfirmed exchanges →
      (∃ failure : Failure, failure.kind = .badRequest ∧
        failure.message = "Failed to upload data to AWS S3" ∧
        report.result = action.rendered (.failed failure)) ∧
      ∃ operation before after, action.asks? session.site = some operation ∧
        state.store.body? session.location = some before ∧
        session.Intends operation exchanges before after ∧
        report.state.store.body? session.location = some after) := by
  refine ⟨fun place other => ?_, fun failed confirmed => ?_, fun unconfirmed => ⟨?_, ?_⟩⟩
  · rw [Session.store_step onAccounts]
    exact objects_foldl_effect (Session.exchanges_at onAccounts faults state) other faults _
  · rw [Session.store_step_of_not_stores onAccounts
      (Session.not_stores_of_failed onAccounts failed confirmed)]
  · exact ⟨.unconfirmedWrite, rfl, rfl, Session.result_of_unconfirmed onAccounts unconfirmed⟩
  · obtain ⟨_, _, _, put⟩ := unconfirmed
    exact Session.bodies_of_stores onAccounts (List.any_eq_true.2 ⟨_, put, rfl⟩)

theorem failed_step_leaves_store_delete :
    let session : Session := ⟨⟨⟨⟨"bucket", "key"⟩, none⟩, none, "", ⟨[]⟩⟩⟩
    let raced : Faults := { get := some (.race (Utf8.encode "x")) }
    let unconfirmed : Faults := { put := some .unconfirmed }
    let delete : Session.Action := .operation (.delete "b")
    (session.step raced delete resting.state).state.store.objects session.location =
        some (Utf8.encode "x", MemoryStore.tag 2) ∧
      ∃ failure : Failure, failure.kind = .badRequest ∧
        (session.step unconfirmed delete resting.state).result =
          delete.rendered (.failed failure) := by
  intro session raced unconfirmed delete
  have onAccounts : delete.OnAccounts := trivial
  obtain ⟨-, kept, -⟩ := failed_step_leaves_store session raced onAccounts resting.state
  obtain ⟨-, -, told⟩ := failed_step_leaves_store session unconfirmed onAccounts resting.state
  constructor
  · exact (kept (by decide +kernel) (by decide +kernel)).trans (by decide +kernel)
  · obtain ⟨⟨failure, kind, -, result⟩, -⟩ := told (by decide +kernel)
    exact ⟨failure, kind, result⟩

end AccountVault
