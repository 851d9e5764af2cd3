import Mathlib
import AccountVault.Session
import AccountVault.Proofs.Account.Conduct
import AccountVault.Proofs.Http.Requests
import AccountVault.Proofs.Store.Versions

/-!
# Runs of a session

A step of a session is a list of exchanges, and what it does to the store is what these exchanges
do: a write that went through replaces an object, and so does another writer that was let in by a
fetch. All of it happens at the location of the service, so the tag that is found there is always
the newest tag of the store.
-/

namespace AccountVault

open Program

def Exchange.effect (faults : Faults) (store : MemoryStore) : Exchange → MemoryStore
  | get location (.ok _) =>
    match faults.get with
    | some (.race body) => store.insert location body
    | _ => store
  | put location body _ (.ok _) => store.insert location body
  | _ => store

namespace Scripted

variable {faults : Faults} {location : Location} {state : Scripted}

theorem store_head {answer : Option (Except StoreError Unit)} {next : Scripted}
    (h : (backend faults).head location state = (answer, next)) :
    next.store = answer.elim state.store fun answer =>
      (Exchange.head location answer).effect faults state.store := by
  simp only [backend, head] at h
  split at h <;> cases h <;> rfl

theorem store_get {answer : Option (Except StoreError StoredObject)} {next : Scripted}
    (h : (backend faults).get location state = (answer, next)) :
    next.store = answer.elim state.store fun answer =>
      (Exchange.get location answer).effect faults state.store := by
  simp only [backend, get, record] at h
  unfold Exchange.effect
  cases hg : state.store.get location with
  | ok object =>
    rw [hg] at h
    split at h <;> cases h <;> simp_all [Except.map]
  | error e =>
    rw [hg] at h
    split at h <;> cases h <;> rfl

theorem body?_of_get {object : StoredObject} {next : Scripted}
    (h : (backend faults).get location state = (some (.ok object), next)) :
    state.store.body? location = some object.body := by
  simp only [backend, get, record, MemoryStore.get] at h
  unfold MemoryStore.body?
  cases hs : state.store.objects location with
  | none =>
    simp only [hs] at h
    split at h <;> cases h
  | some found =>
    simp only [hs] at h
    split at h <;> cases h <;> rfl

theorem store_put {body : Bytes} {ifMatch : Option String}
    {answer : Option (Except StoreError (Option String))} {next : Scripted}
    (h : (backend faults).put location body ifMatch state = (answer, next)) :
    next.store = answer.elim state.store fun answer =>
      (Exchange.put location body ifMatch answer).effect faults state.store := by
  simp only [backend, put, MemoryStore.put, record] at h
  cases hp : state.store.permits location ifMatch with
  | ok _ =>
    rw [hp] at h
    split at h <;> cases h <;> rfl
  | error e =>
    rw [hp] at h
    split at h <;> cases h <;> rfl

theorem store_draw (count : Nat) (state : Scripted) : (state.draw count).2.store = state.store := by
  unfold draw
  cases state.prepared <;> rfl

end Scripted

theorem Program.store_run {α : Type} (p : Program α) (faults : Faults) (state : Scripted) :
    (p.run (Scripted.backend faults) state).state.store =
      (p.exchanges (Scripted.backend faults) state).foldl (Exchange.effect faults) state.store := by
  induction p generalizing state with
  | done a => rfl
  | head location next ih =>
    simp only [run, exchanges]
    rcases h : (Scripted.backend faults).head location state with ⟨_ | answer, middle⟩
    · exact Scripted.store_head h
    · rw [ih answer middle, Scripted.store_head h]
      rfl
  | get location next ih =>
    simp only [run, exchanges]
    rcases h : (Scripted.backend faults).get location state with ⟨_ | answer, middle⟩
    · exact Scripted.store_get h
    · rw [ih answer middle, Scripted.store_get h]
      rfl
  | put location body ifMatch next ih =>
    simp only [run, exchanges]
    rcases h : (Scripted.backend faults).put location body ifMatch state with ⟨_ | answer, middle⟩
    · exact Scripted.store_put h
    · rw [ih answer middle, Scripted.store_put h]
      rfl
  | draw count next ih =>
    simp only [run, exchanges]
    rw [ih, List.foldl_cons]
    exact congrArg (fun store => List.foldl (Exchange.effect faults) store _)
      (Scripted.store_draw count state)
  | log event next ih => exact ih state

theorem Program.body?_of_exchanges {α : Type} {p : Program α} {faults : Faults} {state : Scripted}
    {before rest : List Exchange} {location : Location} {object : StoredObject}
    (h : p.exchanges (Scripted.backend faults) state =
      before ++ .get location (.ok object) :: rest) :
    (before.foldl (Exchange.effect faults) state.store).body? location = some object.body := by
  induction p generalizing state before with
  | done a => simp [exchanges] at h
  | head place next ih =>
    simp only [exchanges] at h
    rcases hb : (Scripted.backend faults).head place state with ⟨_ | answer, middle⟩
    · simp [hb] at h
    · simp only [hb] at h
      cases before with
      | nil => cases h
      | cons x before =>
        obtain ⟨rfl, tail⟩ := List.cons.inj h
        have found := ih answer tail
        rwa [Scripted.store_head hb] at found
  | get place next ih =>
    simp only [exchanges] at h
    rcases hb : (Scripted.backend faults).get place state with ⟨_ | answer, middle⟩
    · simp [hb] at h
    · simp only [hb] at h
      cases before with
      | nil =>
        injection h with same
        cases same
        exact Scripted.body?_of_get hb
      | cons x before =>
        obtain ⟨rfl, tail⟩ := List.cons.inj h
        have found := ih answer tail
        rwa [Scripted.store_get hb] at found
  | put place body ifMatch next ih =>
    simp only [exchanges] at h
    rcases hb : (Scripted.backend faults).put place body ifMatch state with ⟨_ | answer, middle⟩
    · simp [hb] at h
    · simp only [hb] at h
      cases before with
      | nil => cases h
      | cons x before =>
        obtain ⟨rfl, tail⟩ := List.cons.inj h
        have found := ih answer tail
        rwa [Scripted.store_put hb] at found
  | draw count next ih =>
    simp only [exchanges] at h
    cases before with
    | nil => cases h
    | cons x before =>
      obtain ⟨rfl, tail⟩ := List.cons.inj h
      have found := ih _ tail
      change (before.foldl _ (Scripted.draw count state).2.store).body? location = _ at found
      rwa [Scripted.store_draw] at found
  | log event next ih => exact ih h

namespace Session

/-- The exchanges of a step; those that go past the service are not among them. -/
def exchanges (session : Session) (faults : Faults) (action : Action) (state : Scripted) :
    List Exchange :=
  match action with
  | .operation operation =>
    (operation.run session.site.service).exchanges (Scripted.backend faults)
      { state with calls := [] }
  | .request request =>
    (session.site.handle request).exchanges (Scripted.backend faults) { state with calls := [] }
  | _ => []

theorem body?_of_exchanges {session : Session} {faults : Faults} {action : Action}
    {state : Scripted} {before rest : List Exchange} {location : Location} {object : StoredObject}
    (h : session.exchanges faults action state = before ++ .get location (.ok object) :: rest) :
    (before.foldl (Exchange.effect faults) state.store).body? location = some object.body := by
  unfold exchanges at h
  split at h
  · have found := Program.body?_of_exchanges h
    exact found
  · have found := Program.body?_of_exchanges h
    exact found
  · simp at h

def after (session : Session) : List (Faults × Action) → Scripted → Scripted
  | [], state => state
  | (faults, action) :: rest, state =>
    session.after rest (session.step faults action state).state

end Session

def Exchange.At (location : Location) : Exchange → Prop
  | head place _ | get place _ | put place _ _ _ => place = location
  | draw _ _ => True

/-- The tag at the location, if there is one, is the newest tag of the store. -/
def MemoryStore.Current (location : Location) (store : MemoryStore) : Prop :=
  ∀ body etag, store.objects location = some (body, etag) → etag = tag store.version

theorem MemoryStore.current_insert (store : MemoryStore) (location : Location) (body : Bytes) :
    (store.insert location body).Current location := by
  intro body' etag found
  rw [objects_insert_self] at found
  exact (Prod.mk.inj (Option.some.inj found)).2.symm

theorem Exchange.At.current {location : Location} {x : Exchange} (hx : x.At location)
    {store : MemoryStore} (h : store.Current location) (faults : Faults) :
    (x.effect faults store).Current location := by
  match x, hx with
  | .get _ (.ok _), hx =>
    obtain rfl := hx
    unfold effect
    dsimp only
    split
    · exact MemoryStore.current_insert _ _ _
    · exact h
  | .put _ body _ (.ok _), hx =>
    obtain rfl := hx
    exact MemoryStore.current_insert _ _ _
  | .get _ (.error _), _ => exact h
  | .put _ _ _ (.error _), _ => exact h
  | .head _ _, _ => exact h
  | .draw _ _, _ => exact h

theorem Program.Meets.current {α : Type} {p : Program α} {location : Location}
    (h : p.Meets (fun _ x => x.At location) (fun _ _ => True) []) (faults : Faults)
    {state : Scripted} (hc : state.store.Current location) :
    (p.run (Scripted.backend faults) state).state.store.Current location := by
  have at_location : ∀ x ∈ p.exchanges (Scripted.backend faults) state, x.At location := by
    intro x hx
    obtain ⟨before, rest, split⟩ := List.append_of_mem hx
    have follows := h.follows (Scripted.backend faults) state
    rw [split] at follows
    exact follows.of_append
  -- Every write is at the location and gives it the newest tag.
  rw [store_run]
  generalize p.exchanges (Scripted.backend faults) state = list at at_location
  generalize state.store = store at hc
  induction list generalizing store with
  | nil => exact hc
  | cons x list ih =>
    exact ih (fun y hy => at_location y (List.mem_cons_of_mem _ hy)) _
      ((at_location x (by simp)).current hc faults)

theorem Operation.Turn.at_location {service : Service} {operation : Operation}
    {past : List Exchange} {x : Exchange} (h : operation.Turn service past x) :
    x.At service.location := by
  cases h with
  | probe answer => exact rfl
  | fetch answer => exact rfl
  | draw answer parsed needed configured => trivial
  | store answer parsed change => exact rfl

theorem Operation.meets_at (service : Service) (operation : Operation) :
    Meets (fun _ x => x.At service.location) (fun _ _ => True) (operation.run service) [] := by
  have account (h : operation.OnAccounts) :
      Meets (fun _ x => x.At service.location) (fun _ _ => True) (operation.run service) [] :=
    (meets_run h).mono (fun _ _ turn => turn.at_location) fun _ _ _ => trivial
  have snapshot : Meets (fun _ x => x.At service.location) (fun _ _ => True)
      (DocumentStore.snapshot service.location).run [] :=
    DocumentStore.meets_snapshot (fun _ => rfl) (fun _ => rfl) (fun _ _ _ => trivial)
      fun _ _ _ => trivial
  cases operation with
  | create id input => exact account trivial
  | update id input => exact account trivial
  | get id => exact account trivial
  | delete id => exact account trivial
  | list => exact account trivial
  | ready => trivial
  | probe =>
    intro answer
    refine ⟨rfl, ?_⟩
    cases answer <;> trivial
  | download =>
    refine Reply.meets_ofAttempt _ _ ((meets_attempt_bind _ _ _).2 ?_)
    refine snapshot.mono (fun _ _ hx => hx) fun past outcome _ => ?_
    cases outcome <;> trivial
  | snapshot => exact Reply.meets_ofAttempt _ _ snapshot
  | upload document ifMatch =>
    exact Reply.meets_ofAttempt _ _ (DocumentStore.meets_upload (fun _ => rfl) (fun _ => trivial)
      fun _ _ _ _ => trivial)
  | encrypt plaintext =>
    simp only [run, Service.encrypt]
    cases service.key with
    | none => trivial
    | some key =>
      intro answer
      refine ⟨trivial, ?_⟩
      cases answer with
      | error e => trivial
      | ok iv =>
        simp only
        cases Sealed.encrypt key iv (Utf8.encode plaintext) <;> trivial
  | describe => trivial

theorem Http.Site.onAccounts_of_operation? {site : Site} {request : Request} {operation : Operation}
    (h : site.operation? request = some operation) : operation.OnAccounts := by
  rcases operation?_cases h with rfl | ⟨id, rfl | rfl | ⟨input, -, rfl | rfl⟩⟩ <;> trivial

namespace Session

theorem meets_handle {allowed : List Exchange → Exchange → Prop} {site : Http.Site}
    {request : Http.Request} (h : ∀ operation, site.operation? request = some operation →
      Meets allowed (fun _ _ => True) (operation.run site.service) []) :
    Meets allowed (fun _ _ => True) (site.handle request) [] := by
  cases found : site.operation? request with
  | none => exact (Http.Site.silent_handle found).meets fun _ => trivial
  | some operation =>
    rw [Http.Site.handle_of_operation? found, meets_bind]
    refine (h operation found).mono (fun _ _ hx => hx) fun past reply _ => ?_
    exact (Http.silent_conclude reply).meets fun _ => trivial

variable {session : Session}

theorem current_step {state : Scripted} (h : state.store.Current session.location)
    (faults : Faults) (action : Action) :
    (session.step faults action state).state.store.Current session.location := by
  cases action with
  | operation operation =>
    exact (operation.meets_at session.site.service).current faults h
  | request request =>
    exact (meets_handle fun operation _ => operation.meets_at session.site.service).current faults h
  | seed body => exact MemoryStore.current_insert _ _ _
  | seedDocument document => exact MemoryStore.current_insert _ _ _
  | readDocument location => exact h

theorem current_after {state : Scripted} (h : state.store.Current session.location)
    (steps : List (Faults × Action)) :
    (session.after steps state).store.Current session.location := by
  induction steps generalizing state with
  | nil => exact h
  | cons step steps ih => exact ih (current_step h step.1 step.2)

/-- The session can be in the state: some steps lead there from a start at its location. -/
def Reaches (session : Session) (state : Scripted) : Prop :=
  ∃ (setup : Setup) (steps : List (Faults × Action)), setup.location = session.location ∧
    session.after steps setup.state = state

theorem Reaches.current {state : Scripted} (h : session.Reaches state) :
    state.store.Current session.location := by
  obtain ⟨setup, steps, place, rfl⟩ := h
  refine current_after ?_ steps
  rw [← place]
  unfold Setup.state
  cases setup.body with
  | none =>
    intro body etag found
    cases found
  | some body => exact MemoryStore.current_insert _ _ _

theorem version_eq_of_etag {s t : Scripted} (hs : session.Reaches s) (ht : session.Reaches t)
    {body body' : Bytes} {etag : String}
    (found : s.store.objects session.location = some (body, etag))
    (found' : t.store.objects session.location = some (body', etag)) :
    s.store.version = t.store.version :=
  MemoryStore.tag_injective ((hs.current _ _ found).symm.trans (ht.current _ _ found'))

end Session

end AccountVault
