import Mathlib
import AccountVault.Session
import AccountVault.Proofs.Account.Conduct
import AccountVault.Proofs.Refinement.MapMachine
import AccountVault.Proofs.Session.Runs

/-!
# The service refines the machine on a map

Over a store that holds a document, with a key, with vectors of sixteen bytes and without faults,
the service does what the machine does: step by step it answers the same, and the document it stores
is the map of the machine. The store and the machine are tied together by the text of the document,
so each step reads back what the step before has written.
-/

namespace AccountVault

namespace Program

variable {σ α β : Type} {backend : Backend σ}

def andThen (outcome : Outcome σ α) (next : α → σ → Outcome σ β) : Outcome σ β :=
  match outcome.value with
  | some a =>
    let rest := next a outcome.state
    { rest with events := outcome.events ++ rest.events }
  | none => ⟨none, outcome.state, outcome.events⟩

theorem run_bind (p : Program α) (f : α → Program β) (state : σ) :
    (p.bind f).run backend state =
      andThen (p.run backend state) fun a => (f a).run backend := by
  induction p generalizing state with
  | done a => rfl
  | head location next ih =>
    simp only [bind, run]
    split <;> simp [ih, andThen]
  | get location next ih =>
    simp only [bind, run]
    split <;> simp [ih, andThen]
  | put location body ifMatch next ih =>
    simp only [bind, run]
    split <;> simp [ih, andThen]
  | draw count next ih => simp only [bind, run, ih]
  | log event next ih =>
    simp only [bind, run, ih, andThen]
    split <;> simp

def Ends (backend : Backend σ) (p : Program α) (state : σ) (value : α) (last : σ) : Prop :=
  ∃ events, p.run backend state = ⟨some value, last, events⟩

theorem ends_done (value : α) (state : σ) : Ends backend (done value) state value state :=
  ⟨[], rfl⟩

theorem ends_log {p : Program α} {state last : σ} {value : α} (event : Event)
    (h : p.Ends backend state value last) : (log event p).Ends backend state value last := by
  obtain ⟨events, hr⟩ := h
  exact ⟨event :: events, by rw [run, hr]⟩

theorem ends_head {location : Location} {next : Except StoreError Unit → Program α}
    {state middle last : σ} {answer : Except StoreError Unit} {value : α}
    (h : backend.head location state = (some answer, middle))
    (hn : (next answer).Ends backend middle value last) :
    (head location next).Ends backend state value last := by
  obtain ⟨events, hr⟩ := hn
  exact ⟨events, by rw [run, h, ← hr]⟩

theorem ends_get {location : Location} {next : Except StoreError StoredObject → Program α}
    {state middle last : σ} {answer : Except StoreError StoredObject} {value : α}
    (h : backend.get location state = (some answer, middle))
    (hn : (next answer).Ends backend middle value last) :
    (get location next).Ends backend state value last := by
  obtain ⟨events, hr⟩ := hn
  exact ⟨events, by rw [run, h, ← hr]⟩

theorem ends_put {location : Location} {body : Bytes} {ifMatch : Option String}
    {next : Except StoreError (Option String) → Program α} {state middle last : σ}
    {answer : Except StoreError (Option String)} {value : α}
    (h : backend.put location body ifMatch state = (some answer, middle))
    (hn : (next answer).Ends backend middle value last) :
    (put location body ifMatch next).Ends backend state value last := by
  obtain ⟨events, hr⟩ := hn
  exact ⟨events, by rw [run, h, ← hr]⟩

theorem ends_draw {count : Nat} {next : Except IvError Bytes → Program α} {state last : σ}
    {value : α}
    (hn : (next (backend.draw count state).1).Ends backend
      (backend.draw count state).2 value last) :
    (draw count next).Ends backend state value last := hn

theorem Ends.bind {p : Program α} {f : α → Program β} {state middle last : σ} {a : α} {b : β}
    (h : p.Ends backend state a middle) (hf : (f a).Ends backend middle b last) :
    (p.bind f).Ends backend state b last := by
  obtain ⟨events, hr⟩ := h
  obtain ⟨further, hg⟩ := hf
  exact ⟨events ++ further, by rw [run_bind, hr, andThen]; simp only [hg]⟩

theorem Ends.attempt_bind {x : Attempt α} {f : α → Attempt β} {state middle last : σ} {a : α}
    {outcome : Except Failure β} (h : Ends backend x.run state (.ok a) middle)
    (hf : Ends backend (f a).run middle outcome last) :
    Ends backend (x >>= f).run state outcome last :=
  Ends.bind h hf

end Program

open Program

def Reply.verdict? : Reply → Option Verdict
  | .failed failure => some (.refused failure.kind failure.message)
  | .account ⟨some d, statusCode, some message⟩ => some (.answered statusCode d.toMap message)
  | _ => none

namespace Scripted

def supply (state : Scripted) (k : Nat) : Except IvError Bytes :=
  match state.prepared[k]? with
  | some item => item.answer Cipher.ivLength
  | none => .ok (counted (state.drawn.length + k) Cipher.ivLength)

theorem draw_eq (state : Scripted) : (state.draw Cipher.ivLength).1 = state.supply 0 := by
  unfold draw supply
  cases state.prepared <;> rfl

theorem supply_draw (state : Scripted) (k : Nat) :
    (state.draw Cipher.ivLength).2.supply k = state.supply (k + 1) := by
  have count : state.drawn.length + 1 + k = state.drawn.length + (k + 1) := by omega
  unfold draw supply
  cases state.prepared with
  | nil => simp [count]
  | cons item prepared => simp [count]

variable {state : Scripted} {location : Location} {d : Document} {etag : String}

def afterRead (state : Scripted) (location : Location) : Scripted :=
  (state.record (.head location)).record (.get location)

theorem ends_snapshot (stored : state.store.objects location = some (d.write, etag))
    (inRange : d.InRange) :
    Ends (backend {}) (DocumentStore.snapshot location).run state (.ok ⟨d, some etag⟩)
      (state.afterRead location) := by
  have found : (backend {}).head location state =
      (some (.ok ()), state.record (.head location)) := by
    simp [backend, head, record, MemoryStore.head, stored]
  have read : (backend {}).get location (state.record (.head location)) =
      (some (.ok ⟨d.write, some etag⟩), state.afterRead location) := by
    simp [backend, get, afterRead, record, MemoryStore.get, stored]
  have parsed := Document.parse_write inRange
  refine ends_head found (ends_get read ?_)
  change Ends _ (DocumentStore.interpret location ⟨d.write, some etag⟩).run _ _ _
  rw [DocumentStore.run_interpret]
  simp only [Document.not_isBlankBody_of_parse parsed, parsed]
  exact ends_log _ (ends_done _ _)

theorem ends_upload (stored : state.store.objects location = some (d.write, etag))
    (changed : Document) :
    Ends (backend {}) (DocumentStore.upload location changed (some etag)).run state (.ok ())
      { state.record (.put location (some etag)) with
        store := state.store.insert location changed.write } := by
  have written : (backend {}).put location changed.write (some etag) state =
      (some (.ok (some (MemoryStore.tag (state.store.version + 1)))),
        { state.record (.put location (some etag)) with
          store := state.store.insert location changed.write }) := by
    simp [backend, put, record, MemoryStore.put, MemoryStore.permits, stored]
  exact ends_put written (ends_log _ (ends_done _ _))

theorem ends_sealInput {service : Service} {key : DataKey} (hk : service.key = some key)
    {iv : Bytes} (supplied : state.supply 0 = .ok iv) (whole : iv.length = Cipher.ivLength)
    (input : AccountInput) :
    Ends (backend {}) (service.sealInput input).run state (.ok (MapMachine.entry key iv input))
      (state.draw Cipher.ivLength).2 := by
  have drawn : ((backend {}).draw Cipher.ivLength state).1 = .ok iv :=
    (draw_eq state).trans supplied
  unfold Service.sealInput Service.encrypt
  rw [hk]
  refine ends_draw ?_
  rw [drawn]
  simp only [Cipher.encrypt_eq_chained whole]
  exact ends_done _ _

/-- The store holds the map of the machine as a document; the vectors to come are the machine's. -/
structure Ties (location : Location) (state : Scripted) (machine : MapMachine) : Prop where
  stored : ∃ d : Document, d.InRange ∧ d.toMap = machine.accounts ∧
    ∃ etag, state.store.objects location = some (d.write, etag)
  supplied : ∀ k, state.supply k = .ok (machine.vectors k)
  whole : ∀ k, (machine.vectors k).length = Cipher.ivLength

variable {machine : MapMachine} {service : Service} {key : DataKey}

theorem Ties.read (h : state.Ties location machine) :
    ∃ (d : Document) (etag : String), d.InRange ∧ d.toMap = machine.accounts ∧
      (state.afterRead location).store.objects location = some (d.write, etag) ∧
      Ends (backend {}) (DocumentStore.snapshot location).run state (.ok ⟨d, some etag⟩)
        (state.afterRead location) ∧
      (state.afterRead location).Ties location machine := by
  obtain ⟨d, inRange, same, etag, stored⟩ := h.stored
  exact ⟨d, etag, inRange, same, stored, ends_snapshot stored inRange,
    ⟨h.stored, h.supplied, h.whole⟩⟩

theorem Ties.write (h : state.Ties location machine) {changed : Document} (call : Call)
    (inRange : changed.InRange) :
    Ties location { state.record call with store := state.store.insert location changed.write }
      { machine with accounts := changed.toMap } where
  stored := ⟨changed, inRange, rfl, _, MemoryStore.objects_insert_self _ _ _⟩
  supplied := h.supplied
  whole := h.whole

theorem ends_keep (h : state.Ties location machine) (hl : service.location = location)
    (hk : service.key = some key) (inRange : d.InRange) (same : d.toMap = machine.accounts)
    (stored : state.store.objects location = some (d.write, etag)) {input : AccountInput}
    (hi : input.accountType.InRange) (id message : String) (answer : Account → AccountAnswer) :
    ∃ last, Ends (backend {}) (do
        let account ← service.sealInput input
        DocumentStore.upload service.location (d.insert id account) (some etag)
        Service.note message id
        return answer account : Attempt AccountAnswer).run state
        (.ok (answer (MapMachine.entry key (machine.vectors 0) input))) last ∧
      last.Ties location (machine.keep id (MapMachine.entry key (machine.vectors 0) input)) := by
  subst hl
  -- The draw takes the first of the machine's vectors and leaves the store as it is.
  have drawn : Ties service.location (state.draw Cipher.ivLength).2
      { machine with vectors := fun k => machine.vectors (k + 1) } := by
    refine ⟨?_, fun k => ?_, fun k => h.whole (k + 1)⟩
    · obtain ⟨d, hd⟩ := h.stored
      refine ⟨d, ?_⟩
      unfold draw
      cases state.prepared <;> exact hd
    · rw [supply_draw]
      exact h.supplied (k + 1)
  have stored' : (state.draw Cipher.ivLength).2.store.objects service.location =
      some (d.write, etag) := by
    unfold draw
    cases state.prepared <;> exact stored
  refine ⟨_, Ends.attempt_bind (ends_sealInput hk (h.supplied 0) (h.whole 0) input)
    (Ends.attempt_bind (ends_upload stored' _) (ends_log _ (ends_done _ _))), ?_⟩
  have written := inRange.insert id (a := MapMachine.entry key (machine.vectors 0) input) hi
  have kept := drawn.write (.put service.location (some etag)) written
  rw [Document.toMap_insert, same] at kept
  exact kept

def Follows (service : Service) (state : Scripted) (operation : Operation)
    (next : Verdict × MapMachine) : Prop :=
  ∃ reply last, Ends (backend {}) (operation.run service) state reply last ∧
    reply.verdict? = some next.1 ∧ last.Ties service.location next.2

theorem follows_of_outcome {next : Verdict × MapMachine} {operation : Operation}
    {attempt : Attempt AccountAnswer} {last : Scripted} (outcome : Except Failure AccountAnswer)
    (hrun : operation.run service = Reply.ofAttempt .account attempt)
    (h : Ends (backend {}) attempt.run state outcome last)
    (verdict : (Reply.ofOutcome .account outcome).verdict? = some next.1)
    (tied : last.Ties service.location next.2) : Follows service state operation next := by
  refine ⟨_, last, ?_, verdict, tied⟩
  rw [hrun]
  refine Ends.bind h ?_
  cases outcome with
  | ok answer => exact ends_done _ _
  | error failure => exact ends_done _ _

variable (hk : service.key = some key) (h : state.Ties service.location machine)
include hk h

theorem follows_create (id : String) {input : AccountInput} (hi : input.accountType.InRange) :
    Follows service state (.create id input) (machine.step key (.create id input)) := by
  obtain ⟨d, etag, inRange, same, stored, read, tied⟩ := h.read
  have mem : id ∈ machine.accounts ↔ d.contains id = true := same ▸ Document.mem_toMap
  rw [MapMachine.step]
  by_cases present : d.contains id = true
  · rw [if_pos (mem.2 present)]
    refine follows_of_outcome (.error (.idTaken id)) rfl (Ends.attempt_bind read ?_) rfl tied
    simp only [present, if_true]
    exact ends_done _ _
  · rw [if_neg (mt mem.1 present)]
    obtain ⟨last, kept, tied⟩ := ends_keep tied rfl hk inRange same stored hi id "account created"
      fun account => Service.answer 201 (.single id account) "Account Created"
    refine follows_of_outcome (.ok (Service.answer 201
      (.single id (MapMachine.entry key (machine.vectors 0) input)) "Account Created")) rfl
      (Ends.attempt_bind read ?_) rfl tied
    simp only [present]
    exact kept

theorem follows_update (id : String) {input : AccountInput} (hi : input.accountType.InRange) :
    Follows service state (.update id input) (machine.step key (.update id input)) := by
  obtain ⟨d, etag, inRange, same, stored, read, tied⟩ := h.read
  have mem : id ∈ machine.accounts ↔ d.contains id = true := same ▸ Document.mem_toMap
  rw [MapMachine.step]
  by_cases present : d.contains id = true
  · rw [if_pos (mem.2 present)]
    obtain ⟨last, kept, tied⟩ := ends_keep tied rfl hk inRange same stored hi id "account updated"
      fun account => Service.answer 200 (.single id account)
        ("Updated account " ++ id ++ " with new data.")
    refine follows_of_outcome (.ok (Service.answer 200
      (.single id (MapMachine.entry key (machine.vectors 0) input))
      ("Updated account " ++ id ++ " with new data."))) rfl (Ends.attempt_bind read ?_) rfl tied
    simp only [present]
    exact kept
  · rw [if_neg (mt mem.1 present)]
    refine follows_of_outcome (.error (.unknownId id)) rfl (Ends.attempt_bind read ?_) rfl tied
    simp only [present]
    exact ends_done _ _

omit hk in
theorem follows_delete (id : String) :
    Follows service state (.delete id) (machine.step key (.delete id)) := by
  obtain ⟨d, etag, inRange, same, stored, read, tied⟩ := h.read
  have found : machine.accounts[id]? = d.get? id := same ▸ d.getElem?_toMap id
  rw [MapMachine.step, found]
  cases entry : d.get? id with
  | none =>
    refine follows_of_outcome (.error (.unknownId id)) rfl (Ends.attempt_bind read ?_) rfl tied
    simp only [entry]
    exact ends_done _ _
  | some account =>
    have written := ends_upload stored (d.erase id)
    have tied := tied.write (.put service.location (some etag)) (inRange.erase id)
    rw [Document.toMap_erase, same] at tied
    refine follows_of_outcome
      (.ok (Service.answer 200 (.single id account.redacted) "Account Deleted")) rfl
      (Ends.attempt_bind read ?_) rfl tied
    simp only [entry]
    exact Ends.attempt_bind written (ends_log _ (ends_done _ _))

omit hk in
theorem follows_get (id : String) :
    Follows service state (.get id) (machine.step key (.get id)) := by
  obtain ⟨d, etag, inRange, same, stored, read, tied⟩ := h.read
  have found : machine.accounts[id]? = d.get? id := same ▸ d.getElem?_toMap id
  have shown := d.get?_redacted id
  rw [MapMachine.step, found]
  have download := Ends.attempt_bind (f := fun s => pure s.document.redacted) read (ends_done _ _)
  cases entry : d.get? id with
  | none =>
    rw [entry] at shown
    refine follows_of_outcome (.error (.unknownId id)) rfl (Ends.attempt_bind download ?_) rfl tied
    simp only [shown]
    exact ends_done _ _
  | some account =>
    rw [entry] at shown
    refine follows_of_outcome
      (.ok (Service.answer 200 (.single id account.redacted) "Account Details")) rfl
      (Ends.attempt_bind download ?_) rfl tied
    simp only [shown]
    exact ends_done _ _

omit hk in
theorem follows_list : Follows service state .list (machine.step key .list) := by
  obtain ⟨d, etag, inRange, same, stored, read, tied⟩ := h.read
  have empty : machine.accounts.isEmpty = d.redacted.isEmpty := by
    rw [← same, Document.isEmpty_toMap]
    simp [Document.isEmpty, Document.redacted]
  have download := Ends.attempt_bind (f := fun s => pure s.document.redacted) read (ends_done _ _)
  rw [MapMachine.step, empty]
  by_cases none : d.redacted.isEmpty = true
  · rw [if_pos none]
    refine follows_of_outcome (.error .noAccounts) rfl (Ends.attempt_bind download ?_) rfl tied
    simp only [none]
    exact ends_done _ _
  · rw [if_neg none, ← same, ← Document.toMap_redacted]
    refine follows_of_outcome (.ok (Service.answer 200 d.redacted "Accounts List")) rfl
      (Ends.attempt_bind download ?_) rfl tied
    simp only [none]
    exact ends_done _ _

theorem follows_step {call : AccountCall} (hc : call.InRange) :
    Follows service state call.operation (machine.step key call) := by
  cases call with
  | create id input => exact follows_create hk h id hc
  | update id input => exact follows_update hk h id hc
  | delete id => exact follows_delete h id
  | get id => exact follows_get h id
  | list => exact follows_list h

end Scripted

namespace Session

def Result.verdict? : Result → Option Verdict
  | .reply r => r.verdict?
  | _ => none

end Session

def AccountCall.faultless (call : AccountCall) : Faults × Session.Action :=
  ({}, .operation call.operation)

namespace Session

variable {session : Session} {key : DataKey} {state : Scripted} {machine : MapMachine}

theorem step_ties (hk : session.site.service.key = some key)
    (h : state.Ties session.location machine) {call : AccountCall} (hc : call.InRange) :
    (session.step {} (.operation call.operation) state).result.verdict? =
        some (machine.step key call).1 ∧
      (session.step {} (.operation call.operation) state).state.Ties session.location
        (machine.step key call).2 := by
  have fresh : Scripted.Ties session.site.service.location { state with calls := [] } machine :=
    ⟨h.stored, h.supplied, h.whole⟩
  obtain ⟨reply, last, ⟨events, ended⟩, verdict, tied⟩ := Scripted.follows_step hk fresh hc
  simp only [step, perform, ended]
  exact ⟨verdict, tied⟩

theorem run_ties (hk : session.site.service.key = some key)
    (h : state.Ties session.location machine) {calls : List AccountCall}
    (hc : ∀ call ∈ calls, call.InRange) :
    (session.run (calls.map AccountCall.faultless) state).map (·.result.verdict?) =
        (machine.run key calls).1.map some ∧
      (session.after (calls.map AccountCall.faultless) state).Ties session.location
        (machine.run key calls).2 := by
  induction calls generalizing state machine with
  | nil => exact ⟨rfl, h⟩
  | cons call calls ih =>
    obtain ⟨verdict, tied⟩ := step_ties hk h (hc call (by simp))
    obtain ⟨verdicts, last⟩ := ih tied fun c hm => hc c (List.mem_cons_of_mem _ hm)
    refine ⟨?_, last⟩
    simp only [List.map_cons, run, AccountCall.faultless, MapMachine.run]
    exact congrArg₂ List.cons verdict verdicts

end Session

/-- The service refines the machine on a map: every verdict is the machine's, and in the end the
store holds the text of a document that is the machine's map. -/
theorem session_refines_map (session : Session) {key : DataKey}
    (hk : session.site.service.key = some key) {d : Document} (inRange : d.InRange)
    {state : Scripted} (stored : state.store.body? session.location = some d.write)
    {vectors : Nat → Bytes} (supplied : ∀ k, state.supply k = .ok (vectors k))
    (whole : ∀ k, (vectors k).length = Cipher.ivLength) {calls : List AccountCall}
    (hc : ∀ call ∈ calls, call.InRange) :
    let steps := calls.map AccountCall.faultless
    let final := MapMachine.run key ⟨d.toMap, vectors⟩ calls
    (session.run steps state).map (·.result.verdict?) = final.1.map some ∧
      ∃ last : Document, last.toMap = final.2.accounts ∧
        (session.after steps state).store.body? session.location = some last.write ∧
        (session.after steps state).store.document? session.location = some (.ok last) := by
  have start : state.Ties session.location ⟨d.toMap, vectors⟩ := by
    obtain ⟨⟨body, etag⟩, found, rfl⟩ := Option.map_eq_some_iff.1 stored
    exact ⟨⟨d, inRange, rfl, etag, found⟩, supplied, whole⟩
  obtain ⟨verdicts, tied⟩ := Session.run_ties hk start hc
  obtain ⟨last, hr, same, etag, found⟩ := tied.stored
  have body : (session.after (calls.map AccountCall.faultless) state).store.body?
      session.location = some last.write := by
    rw [MemoryStore.body?, found]
    rfl
  refine ⟨verdicts, last, same, body, ?_⟩
  rw [MemoryStore.document?, body, Option.map_some, Document.parse_write hr]

def vault : Session :=
  ⟨⟨⟨⟨"bucket", "key"⟩, some ⟨List.replicate 32 0, rfl⟩⟩, none, "/accounts", ⟨[]⟩⟩⟩

def oneAccount : Document := .single "a" ⟨.integer 1, "k", some "p"⟩

def visit : List AccountCall :=
  [.create "b" ⟨.integer (-2), "l", "q"⟩, .update "a" ⟨.integer 3, "m", "r"⟩, .delete "a", .get "b",
    .list]

theorem session_refines_map_visit :
    let state : Scripted := { store := MemoryStore.empty.insert vault.location oneAccount.write }
    let final := MapMachine.run ⟨List.replicate 32 0, rfl⟩
      ⟨oneAccount.toMap, fun k => Scripted.counted k Cipher.ivLength⟩ visit
    (vault.run (visit.map AccountCall.faultless) state).map (·.result.verdict?) =
      final.1.map some := by
  intro state final
  have inRange : oneAccount.InRange := by
    intro x hx
    obtain rfl := List.mem_singleton.1 hx
    exact ⟨by decide, by decide⟩
  have supplied : ∀ k, state.supply k = .ok (Scripted.counted k Cipher.ivLength) := by
    intro k
    simp [Scripted.supply, state]
  have stored : state.store.body? vault.location = some oneAccount.write := by
    simp [MemoryStore.body?, state]
  refine (session_refines_map vault rfl inRange stored supplied ?_ ?_).1
  · intro k
    simp [Scripted.counted]
  · intro call hm
    simp only [visit, List.mem_cons, List.not_mem_nil, or_false] at hm
    rcases hm with rfl | rfl | rfl | rfl | rfl
    · exact ⟨by decide, by decide⟩
    · exact ⟨by decide, by decide⟩
    · trivial
    · trivial
    · trivial

end AccountVault
