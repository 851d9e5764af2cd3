import Mathlib
import AccountVault.Proofs.Account.Entries
import AccountVault.Proofs.Session.Runs

/-!
# Passwords at rest

Whatever the account operations are asked for, in whatever order and with whatever faults, a
password in a document that the service has stored has one of two origins. Either it was there
before, in the document the run started from or in one that another writer put in its place, under
the same id; or it was sealed, under the configured key and a vector that was drawn for the purpose,
for a request to create or update the account of that id.
-/

namespace AccountVault

open Program

def Exchange.stores : Exchange → Bool
  | put _ _ _ (.ok _) => true
  | _ => false

def Exchange.fetches : Exchange → Bool
  | get _ (.ok _) => true
  | _ => false

namespace Session

def Action.asks? (site : Http.Site) : Action → Option Operation
  | operation o => some o
  | request r => site.operation? r
  | _ => none

/-- The five account operations, directly or over HTTP, where requests for other things may come in
between. -/
def Action.OnAccounts : Action → Prop
  | operation o => o.OnAccounts
  | request _ => True
  | _ => False

structure Occurrence where
  faults : Faults
  action : Action
  exchanges : List Exchange

def history (session : Session) : List (Faults × Action) → Scripted → List Occurrence
  | [], _ => []
  | (faults, action) :: rest, state =>
    ⟨faults, action, session.exchanges faults action state⟩ ::
      session.history rest (session.step faults action state).state

inductive Writer where
  | outside
  | service
  deriving DecidableEq

namespace Occurrence

def racedIn? (x : Occurrence) : Option Bytes :=
  match x.faults.get with
  | some (.race body) => if x.exchanges.any Exchange.fetches then some body else none
  | _ => none

def writer? (x : Occurrence) : Option Writer :=
  if x.exchanges.any Exchange.stores then some .service
  else x.racedIn?.map fun _ => .outside

def Asks (site : Http.Site) (x : Occurrence) (id : String) (input : AccountInput) : Prop :=
  x.action.asks? site = some (.create id input) ∨ x.action.asks? site = some (.update id input)

end Occurrence

def lastWriter (past : List Occurrence) : Writer :=
  past.foldl (fun writer x => x.writer?.getD writer) .outside

/-- The password that a document from outside held for the id. -/
def Inherited (start : Document) (past : List Occurrence) (id : String)
    (password : Option String) : Prop :=
  ∃ d : Document, (d = start ∨ ∃ x ∈ past, ∃ body, x.racedIn? = some body ∧
      Document.parse body = .ok d) ∧
    ∃ a, d.get? id = some a ∧ a.apiPassword = password

/-- A password that was sealed for a request for the id, under a vector drawn for that request. -/
def SealedFor (site : Http.Site) (past : List Occurrence) (id : String)
    (password : Option String) : Prop :=
  ∃ key, site.service.key = some key ∧ ∃ x ∈ past, ∃ input iv sealed, x.Asks site id input ∧
    .draw Cipher.ivLength (.ok iv) ∈ x.exchanges ∧ iv.length = Cipher.ivLength ∧
    Sealed.encrypt key iv (Utf8.encode input.apiPassword) = .ok sealed ∧
    password = some sealed.text

def Accounted (site : Http.Site) (start : Document) (past : List Occurrence) (d : Document) :
    Prop :=
  ∀ id a, d.get? id = some a →
    Inherited start past id a.apiPassword ∨ SealedFor site past id a.apiPassword

/-- What holds between the steps of a run: the stored bytes, as far as they are a document, have
passwords of known origin, and bytes that the service has written are such a document. -/
structure AtRest (session : Session) (start : Document) (past : List Occurrence)
    (state : Scripted) : Prop where
  read : ∀ body d, state.store.body? session.location = some body →
    Document.parse body = .ok d → Accounted session.site start past d
  written : lastWriter past = .service → ∃ d : Document,
    state.store.body? session.location = some d.write ∧ Accounted session.site start past d

variable {session : Session} {start : Document} {past : List Occurrence} {x : Occurrence}
  {id : String} {password : Option String}

theorem Inherited.append (h : Inherited start past id password) :
    Inherited start (past ++ [x]) id password := by
  obtain ⟨d, origin, held⟩ := h
  refine ⟨d, ?_, held⟩
  rcases origin with rfl | ⟨y, hy, raced⟩
  · exact .inl rfl
  · exact .inr ⟨y, by simp [hy], raced⟩

theorem SealedFor.append {site : Http.Site} (h : SealedFor site past id password) :
    SealedFor site (past ++ [x]) id password := by
  obtain ⟨key, hk, y, hy, rest⟩ := h
  exact ⟨key, hk, y, by simp [hy], rest⟩

theorem Accounted.append {site : Http.Site} {d : Document} (h : Accounted site start past d) :
    Accounted site start (past ++ [x]) d := by
  intro id a found
  exact (h id a found).imp Inherited.append SealedFor.append

theorem Accounted.of_parse_write {site : Http.Site} {d e : Document}
    (h : Accounted site start past d) (parsed : Document.parse d.write = .ok e) :
    Accounted site start past e := by
  intro id a found
  obtain ⟨b, held, password⟩ := Document.exists_of_parse_write parsed found
  exact password ▸ h id b held

theorem lastWriter_append : lastWriter (past ++ [x]) = x.writer?.getD (lastWriter past) := by
  simp [lastWriter]

theorem exchanges_follow (session : Session) {action : Action} (h : action.OnAccounts)
    (faults : Faults) (state : Scripted) :
    Follows (fun before y => ∃ operation, action.asks? session.site = some operation ∧
        operation.Turn session.site.service before y) []
      (session.exchanges faults action state) := by
  cases action with
  | operation operation =>
    refine Meets.follows ((Operation.meets_run h).mono (fun before y turn => ?_)
      fun _ _ _ => trivial) _ _
    exact ⟨operation, rfl, turn⟩
  | request request =>
    refine Meets.follows (meets_handle fun operation found => ?_) _ _
    have onAccounts := Http.Site.onAccounts_of_operation? found
    refine (Operation.meets_run onAccounts).mono (fun before y turn => ?_) fun _ _ _ => trivial
    exact ⟨operation, found, turn⟩
  | _ => exact absurd h id

theorem exchanges_at {action : Action} (h : action.OnAccounts) (faults : Faults)
    (state : Scripted) :
    ∀ y ∈ session.exchanges faults action state, y.At session.location := by
  intro y hy
  obtain ⟨before, rest, split⟩ := List.append_of_mem hy
  have follows := session.exchanges_follow h faults state
  rw [split] at follows
  obtain ⟨operation, -, turn⟩ := follows.of_append
  exact turn.at_location

theorem store_step {action : Action} (h : action.OnAccounts) (faults : Faults) (state : Scripted) :
    (session.step faults action state).state.store =
      (session.exchanges faults action state).foldl (Exchange.effect faults) state.store := by
  cases action with
  | operation operation => exact store_run _ _ _
  | request request => exact store_run _ _ _
  | _ => exact absurd h id

theorem body?_foldl {location : Location} {list : List Exchange}
    (place : ∀ y ∈ list, y.At location) (quiet : list.any Exchange.stores = false)
    (faults : Faults) (action : Action) (store : MemoryStore) :
    (list.foldl (Exchange.effect faults) store).body? location =
      (Occurrence.racedIn? ⟨faults, action, list⟩).or (store.body? location) := by
  induction list generalizing store with
  | nil =>
    unfold Occurrence.racedIn?
    split <;> simp
  | cons y list ih =>
    rw [List.any_cons, Bool.or_eq_false_iff] at quiet
    have here := place y (by simp)
    rw [List.foldl_cons, ih (fun z hz => place z (List.mem_cons_of_mem _ hz)) quiet.2]
    unfold Occurrence.racedIn?
    simp only [List.any_cons]
    match y, quiet.1, here with
    | .put _ _ _ (.ok _), stores, _ => cases stores
    | .put _ _ _ (.error _), _, _ => rfl
    | .head _ _, _, _ => rfl
    | .draw _ _, _, _ => rfl
    | .get _ (.error _), _, _ => rfl
    | .get _ (.ok _), _, rfl =>
      unfold Exchange.effect
      dsimp only
      cases faults.get with
      | none => rfl
      | some fault =>
        cases fault with
        | race body =>
          have inserted : (store.insert location body).body? location = some body := by
            simp [MemoryStore.body?]
          simp only [inserted]
          cases list.any Exchange.fetches <;> rfl
        | _ => rfl

theorem exchanges_of_stores {action : Action} (h : action.OnAccounts) {faults : Faults}
    {state : Scripted}
    (stores : (session.exchanges faults action state).any Exchange.stores = true) :
    ∃ operation object document changed drawn tag,
      action.asks? session.site = some operation ∧
      session.exchanges faults action state = session.site.service.fetched object ++ drawn ++
        [.put session.location changed.write object.etag (.ok tag)] ∧
      Document.parse object.body = .ok document ∧
      operation.Rewrites session.site.service drawn document changed := by
  have follows := session.exchanges_follow h faults state
  obtain ⟨y, hy, stored⟩ := List.any_eq_true.1 stores
  obtain ⟨before, rest, split⟩ := List.append_of_mem hy
  rw [split] at follows
  match y, stored with
  | .put place body ifMatch (.ok tag), _ =>
    obtain ⟨operation, asks, turn⟩ := follows.of_append
    obtain ⟨object, document, changed, drawn, rfl, parsed, change, rfl, rfl, rfl⟩ := turn.of_put
    cases rest with
    | nil => exact ⟨operation, object, document, changed, drawn, tag, asks, split, parsed, change⟩
    | cons z rest =>
      -- Nothing may follow a write.
      rw [← List.singleton_append, ← List.append_assoc] at follows
      obtain ⟨_, -, next⟩ := follows.of_append
      exact absurd trivial (next.not_isPut
        (.put session.location changed.write object.etag (.ok tag)) (by simp [Session.location]))

theorem length_of_encrypt {key : DataKey} {iv plaintext : Bytes} {sealed : Sealed}
    (h : Sealed.encrypt key iv plaintext = .ok sealed) : iv.length = Cipher.ivLength := by
  unfold Sealed.encrypt at h
  split at h
  · split_ifs at h with whole
    exact whole
  · cases h

theorem Accounted.rewrites {action : Action} {faults : Faults} {exchanged drawn : List Exchange}
    {operation : Operation} {document changed : Document}
    (h : Accounted session.site start past document)
    (asks : action.asks? session.site = some operation) (drew : ∀ y ∈ drawn, y ∈ exchanged)
    (change : operation.Rewrites session.site.service drawn document changed) :
    Accounted session.site start (past ++ [⟨faults, action, exchanged⟩]) changed := by
  have keep : ∀ {id : String} {input : AccountInput} {iv : Bytes} {account : Account},
      Occurrence.Asks session.site ⟨faults, action, exchanged⟩ id input →
      .draw Cipher.ivLength (.ok iv) ∈ exchanged → session.site.service.Seals iv input account →
      Accounted session.site start (past ++ [⟨faults, action, exchanged⟩])
        (document.insert id account) := by
    rintro id input iv account asked vector ⟨key, sealed, hk, encrypted, rfl⟩ id' a found
    rw [Document.get?_insert] at found
    split_ifs at found with same
    · subst same
      obtain rfl := Option.some.inj found
      exact .inr ⟨key, hk, _, by simp, input, iv, sealed, asked, vector,
        length_of_encrypt encrypted, encrypted, rfl⟩
    · exact h.append id' a found
  cases change with
  | create absent stored => exact keep (.inl asks) (drew _ (by simp)) stored
  | update present stored => exact keep (.inr asks) (drew _ (by simp)) stored
  | delete present =>
    intro id' a found
    rw [Document.get?_erase] at found
    split_ifs at found
    exact h.append id' a found

theorem AtRest.step_of_stores {state : Scripted} (h : session.AtRest start past state)
    {action : Action} (onAccounts : action.OnAccounts) {faults : Faults}
    (stores : (session.exchanges faults action state).any Exchange.stores = true) :
    session.AtRest start (past ++ [⟨faults, action, session.exchanges faults action state⟩])
      (session.step faults action state).state := by
  obtain ⟨operation, object, document, changed, drawn, tag, asks, exchanged, parsed, change⟩ :=
    exchanges_of_stores onAccounts stores
  have fetched : state.store.body? session.location = some object.body := by
    have split : session.exchanges faults action state =
        [.head session.location (.ok ())] ++ .get session.location (.ok object) :: (drawn ++
          [.put session.location changed.write object.etag (.ok tag)]) := by
      simp [exchanged, Service.fetched, location]
    exact body?_of_exchanges split
  have accounted : Accounted session.site start
      (past ++ [⟨faults, action, session.exchanges faults action state⟩]) changed := by
    refine (h.read _ _ fetched parsed).rewrites asks (fun y hy => ?_) change
    rw [exchanged]
    simp [hy]
  have body : (session.step faults action state).state.store.body? session.location =
      some changed.write := by
    rw [store_step onAccounts, exchanged, List.foldl_append]
    simp [Exchange.effect, MemoryStore.body?]
  refine ⟨?_, fun _ => ⟨changed, body, accounted⟩⟩
  intro body' d found read
  obtain rfl := Option.some.inj (body.symm.trans found)
  exact accounted.of_parse_write read

theorem AtRest.step_of_not_stores {state : Scripted} (h : session.AtRest start past state)
    {action : Action} (onAccounts : action.OnAccounts) {faults : Faults}
    (quiet : (session.exchanges faults action state).any Exchange.stores = false) :
    session.AtRest start (past ++ [⟨faults, action, session.exchanges faults action state⟩])
      (session.step faults action state).state := by
  have body := body?_foldl (exchanges_at onAccounts faults state) quiet faults action state.store
  rw [← store_step onAccounts] at body
  cases raced : Occurrence.racedIn? ⟨faults, action, session.exchanges faults action state⟩ with
  | none =>
    rw [raced, Option.none_or] at body
    refine ⟨fun body' d found read => ?_, fun service => ?_⟩
    · rw [body] at found
      exact (h.read body' d found read).append
    · rw [lastWriter_append, Occurrence.writer?, quiet, raced] at service
      obtain ⟨d, found, accounted⟩ := h.written service
      exact ⟨d, body.trans found, accounted.append⟩
  | some other =>
    rw [raced, Option.some_or] at body
    refine ⟨fun body' d found read id a held => ?_, fun service => ?_⟩
    · obtain rfl := Option.some.inj (body.symm.trans found)
      exact .inl ⟨d, .inr ⟨_, by simp, other, raced, read⟩, a, held, rfl⟩
    · rw [lastWriter_append, Occurrence.writer?, quiet, raced] at service
      cases service

theorem AtRest.step {state : Scripted} (h : session.AtRest start past state) {action : Action}
    (onAccounts : action.OnAccounts) (faults : Faults) :
    session.AtRest start (past ++ [⟨faults, action, session.exchanges faults action state⟩])
      (session.step faults action state).state := by
  cases stores : (session.exchanges faults action state).any Exchange.stores with
  | true => exact h.step_of_stores onAccounts stores
  | false => exact h.step_of_not_stores onAccounts stores

theorem AtRest.run {state : Scripted} (h : session.AtRest start past state)
    {steps : List (Faults × Action)} (onAccounts : ∀ step ∈ steps, step.2.OnAccounts) :
    session.AtRest start (past ++ session.history steps state) (session.after steps state) := by
  induction steps generalizing past state with
  | nil => simpa [history, after] using h
  | cons step steps ih =>
    have next := ih (h.step (onAccounts step (by simp)) step.1)
      fun x hx => onAccounts x (List.mem_cons_of_mem _ hx)
    rw [List.append_assoc] at next
    exact next

theorem atRest_start {state : Scripted} {body : Bytes}
    (stored : state.store.body? session.location = some body)
    (holds : body = start.write ∨ Document.parse body = .ok start) :
    session.AtRest start [] state := by
  have accounted : Accounted session.site start [] start :=
    fun id a found => .inl ⟨start, .inl rfl, a, found, rfl⟩
  refine ⟨fun body' d found read => ?_, fun service => by cases service⟩
  obtain rfl := Option.some.inj (stored.symm.trans found)
  rcases holds with rfl | parsed
  · exact accounted.of_parse_write read
  · obtain rfl := Except.ok.inj (parsed.symm.trans read)
    exact accounted

end Session

/-- Encryption at rest: bytes that the service has stored are a document all of whose passwords were
held for their ids by a document from outside, or were sealed for a request for their ids. Without a
key only the former happens. -/
theorem encrypted_at_rest (session : Session) {start : Document} {state : Scripted} {body : Bytes}
    (stored : state.store.body? session.location = some body)
    (holds : body = start.write ∨ Document.parse body = .ok start)
    {steps : List (Faults × Session.Action)} (onAccounts : ∀ step ∈ steps, step.2.OnAccounts)
    (service : Session.lastWriter (session.history steps state) = .service) :
    let past := session.history steps state
    ∃ d : Document, (session.after steps state).store.body? session.location = some d.write ∧
      ∀ id a, d.get? id = some a →
        (Session.Inherited start past id a.apiPassword ∨
          Session.SealedFor session.site past id a.apiPassword) ∧
        (session.site.service.key = none → Session.Inherited start past id a.apiPassword) := by
  intro past
  obtain ⟨d, found, accounted⟩ :=
    ((Session.atRest_start stored holds).run onAccounts).written service
  refine ⟨d, found, fun id a held => ⟨accounted id a held, fun none => ?_⟩⟩
  rcases accounted id a held with inherited | ⟨key, configured, -⟩
  · exact inherited
  · rw [none] at configured
    cases configured

def resting : Session.Setup where
  base := ""
  location := ⟨"bucket", "key"⟩
  key := none
  docs := none
  body := some ((Document.single "a" ⟨.integer 1, "k", some "p"⟩).insert "b"
    ⟨.integer 2, "l", none⟩).write
  prepared := []

def revised : List (Faults × Session.Action) :=
  [({ put := some .unconfirmed }, .operation (.delete "b")),
    ({}, .operation (.update "a" ⟨.integer 3, "m", "q"⟩))]

theorem encrypted_at_rest_revised :
    let session : Session :=
      ⟨⟨⟨⟨"bucket", "key"⟩, some ⟨List.replicate 32 0, rfl⟩⟩, none, "", ⟨[]⟩⟩⟩
    ∃ d : Document, (session.after revised resting.state).store.body? session.location =
        some d.write ∧
      ∀ id a, d.get? id = some a →
        Session.Inherited ((Document.single "a" ⟨.integer 1, "k", some "p"⟩).insert "b"
            ⟨.integer 2, "l", none⟩) (session.history revised resting.state) id a.apiPassword ∨
          Session.SealedFor session.site (session.history revised resting.state) id
            a.apiPassword := by
  intro session
  have onAccounts : ∀ step ∈ revised, step.2.OnAccounts := by
    simp [revised, Session.Action.OnAccounts, Operation.OnAccounts]
  have stored : resting.state.store.body? session.location = resting.body := rfl
  obtain ⟨d, found, accounted⟩ := encrypted_at_rest session stored (.inl rfl) onAccounts
    (by decide +kernel)
  exact ⟨d, found, fun id a held => (accounted id a held).1⟩

end AccountVault
