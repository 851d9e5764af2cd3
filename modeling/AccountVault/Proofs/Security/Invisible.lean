import Mathlib
import AccountVault.Session
import AccountVault.Proofs.Http.Requests
import AccountVault.Proofs.Security.Alongside
import AccountVault.Proofs.Session.Runs
import AccountVault.Proofs.Store.Versions

/-!
# Stored passwords are invisible

Two sessions whose stored documents differ in passwords only give the same answers, make the same
calls, see the same tags and log the same events, step after step, and their documents go on
differing in passwords only. Every operation of the service is matched with itself over the two
documents: what it reads from them it redacts, and what it writes to them is the same change.
-/

namespace AccountVault

open Program

namespace Document

/-- The same ids, and under each the same type and the same key. -/
def Alike (d e : Document) : Prop :=
  ∀ id, (d.get? id).map (fun a => (a.accountType, a.apiKey)) =
    (e.get? id).map fun a => (a.accountType, a.apiKey)

/-- The same document, or documents that differ in passwords only and are read back as they are. -/
def Close (d e : Document) : Prop := d = e ∨ d.Alike e ∧ d.InRange ∧ e.InRange

variable {d e : Document}

theorem Alike.redacted (h : d.Alike e) : d.redacted = e.redacted :=
  redacted_eq h fun a b same => by simp_all [Account.redacted]

namespace Close

theorem alike (h : d.Close e) : d.Alike e := by
  rcases h with rfl | h
  · exact fun _ => rfl
  · exact h.1

theorem redacted (h : d.Close e) : d.redacted = e.redacted := h.alike.redacted

theorem insert (h : d.Close e) (id : String) {a : Account} (ha : a.accountType.InRange) :
    (d.insert id a).Close (e.insert id a) := by
  rcases h with rfl | ⟨alike, hd, he⟩
  · exact .inl rfl
  · exact .inr ⟨map_get?_insert alike id rfl, hd.insert id ha, he.insert id ha⟩

theorem erase (h : d.Close e) (id : String) : (d.erase id).Close (e.erase id) := by
  rcases h with rfl | ⟨alike, hd, he⟩
  · exact .inl rfl
  · exact .inr ⟨map_get?_erase alike id, hd.erase id, he.erase id⟩

end Close

end Document

/-- The same bytes, or the texts of two documents that differ in passwords only. -/
def AlikeBodies (body body' : Bytes) : Prop :=
  body = body' ∨ ∃ d e : Document, Document.parse body = .ok d ∧ Document.parse body' = .ok e ∧
    d.Alike e ∧ d.InRange ∧ e.InRange

theorem Document.Close.write {d e : Document} (h : d.Close e) : AlikeBodies d.write e.write := by
  rcases h with rfl | ⟨alike, hd, he⟩
  · exact .inl rfl
  · exact .inr ⟨d, e, Document.parse_write hd, Document.parse_write he, alike, hd, he⟩

theorem AlikeBodies.reading {body body' : Bytes} (h : AlikeBodies body body') :
    Concur Document.Close (DocumentStore.reading body) (DocumentStore.reading body') := by
  rcases h with rfl | ⟨d, e, hd, he, alike⟩
  · cases DocumentStore.reading body with
    | error failure => exact .error failure
    | ok d => exact .ok (.inl rfl)
  · rw [DocumentStore.reading_of_parse hd, DocumentStore.reading_of_parse he]
    exact .ok (.inr alike)

def Account.Kept (a b : Account) : Prop := a = b ∧ a.accountType.InRange

theorem kindred_close : Kindred Document.Close Account.Kept AlikeBodies where
  read h := h.reading
  write h := h.write
  redacted h := h.redacted
  insert id a _ h kept := by
    obtain ⟨rfl, inRange⟩ := kept
    exact h.insert id inRange
  erase id h := h.erase id

variable {location : Location}

namespace Service

variable {key : Option DataKey}

theorem matches_sealInput {input : AccountInput} (hi : input.accountType.InRange) :
    Matches location AlikeBodies (Concur Account.Kept)
      ((Service.mk location key).sealInput input).run
      ((Service.mk location key).sealInput input).run := by
  unfold sealInput encrypt
  cases key with
  | none => exact .done (.error _)
  | some key =>
    refine .draw fun answer => ?_
    cases answer with
    | error e => exact .done (.error _)
    | ok iv =>
      simp only
      cases Sealed.encrypt key iv (Utf8.encode input.apiPassword) with
      | error e => exact .done (.error _)
      | ok sealed => exact .done (.ok ⟨rfl, hi⟩)

theorem answer_single_eq {a b : Account} (kept : a.Kept b) (statusCode : Nat)
    (id message : String) :
    answer statusCode (.single id a) message = answer statusCode (.single id b) message := by
  rw [kept.1]

end Service

namespace Operation

def Public : Operation → Prop
  | snapshot => False
  | _ => True

theorem matches_ofAttempt {α : Type} {attempt : Attempt α}
    (h : Matches location AlikeBodies (Concur Eq) attempt.run attempt.run) (succeeded : α → Reply) :
    Matches location AlikeBodies Eq (Reply.ofAttempt succeeded attempt)
      (Reply.ofAttempt succeeded attempt) := by
  refine h.bind fun x y same => ?_
  obtain rfl := same.eq
  cases x with
  | ok a => exact .done rfl
  | error failure => exact .done rfl

theorem matches_run {service : Service} {operation : Operation} (h : operation.Public)
    (hi : operation.InRange) :
    Matches service.location AlikeBodies Eq (operation.run service) (operation.run service) := by
  obtain ⟨location, key⟩ := service
  cases operation with
  | create id input =>
    exact matches_ofAttempt (Service.matches_create kindred_close (Service.matches_sealInput hi)
      Service.answer_single_eq id) _
  | update id input =>
    exact matches_ofAttempt (Service.matches_update kindred_close (Service.matches_sealInput hi)
      Service.answer_single_eq id) _
  | get id => exact matches_ofAttempt (Service.matches_get kindred_close id) _
  | delete id => exact matches_ofAttempt (Service.matches_delete kindred_close id) _
  | list => exact matches_ofAttempt (Service.matches_list kindred_close) _
  | ready => exact .done rfl
  | probe =>
    refine .head fun answer => ?_
    cases answer with
    | ok _ => exact .done rfl
    | error e => exact .log (.done rfl)
  | download => exact matches_ofAttempt (DocumentStore.matches_download kindred_close) _
  | snapshot => exact absurd h id
  | upload document ifMatch =>
    exact matches_ofAttempt (DocumentStore.matches_upload kindred_close (.inl rfl) ifMatch) _
  | encrypt plaintext =>
    simp only [run, Service.encrypt]
    cases key with
    | none => exact .done rfl
    | some key =>
      refine .draw fun answer => ?_
      cases answer with
      | error e => exact .done rfl
      | ok iv =>
        simp only
        cases Sealed.encrypt key iv (Utf8.encode plaintext) <;> exact .done rfl
  | describe => exact .done rfl

end Operation

theorem Http.Site.inRange_of_operation? {site : Http.Site} {request : Http.Request}
    {operation : Operation} (h : site.operation? request = some operation)
    (hi : ∀ input, request.input? = some input → input.accountType.InRange) :
    operation.Public ∧ operation.InRange := by
  rcases operation?_cases h with rfl | ⟨id, rfl | rfl | ⟨input, found, rfl | rfl⟩⟩
  · exact ⟨trivial, trivial⟩
  · exact ⟨trivial, trivial⟩
  · exact ⟨trivial, trivial⟩
  · exact ⟨trivial, hi input found⟩
  · exact ⟨trivial, hi input found⟩

theorem Http.Site.matches_handle {site : Http.Site} {request : Http.Request}
    (hi : ∀ input, request.input? = some input → input.accountType.InRange) :
    Matches site.service.location AlikeBodies Eq (site.handle request) (site.handle request) := by
  cases found : site.operation? request with
  | none => exact (silent_handle found).matches_self
  | some operation =>
    obtain ⟨shown, inRange⟩ := inRange_of_operation? found hi
    rw [handle_of_operation? found]
    refine (Operation.matches_run shown inRange).bind ?_
    rintro reply _ rfl
    exact (silent_conclude reply).matches_self

namespace Session

def Action.Public : Action → Prop
  | operation o => o.Public
  | readDocument _ => False
  | _ => True

/-- The account type that comes with an action, also in its body, is a sixty-four bit integer. -/
def Action.InRange : Action → Prop
  | operation o => o.InRange
  | request r => ∀ input, r.input? = some input → input.accountType.InRange
  | _ => True

structure Report.Alike (location : Location) (r r' : Report) : Prop where
  result : r.result = r'.result
  events : r.events = r'.events
  calls : r.state.calls = r'.state.calls
  etag : r.state.store.etag? location = r'.state.store.etag? location
  body : Option.Rel AlikeBodies (r.state.store.body? location) (r'.state.store.body? location)

variable {session : Session} {s t : Scripted}

theorem eq_of_rel {α : Type} {x y : Option α} (h : Option.Rel Eq x y) : x = y := by
  cases h with
  | some h => rw [h]
  | none => rfl

theorem step_paired (h : Abreast session.location AlikeBodies s t) {action : Action}
    (faults : Faults) (shown : action.Public) (inRange : action.InRange) :
    let r := session.step faults action s
    let r' := session.step faults action t
    r.result = r'.result ∧ r.events = r'.events ∧
      Scripted.Paired session.location AlikeBodies r.state r'.state := by
  have refl : ∀ body, AlikeBodies body body := fun _ => .inl rfl
  cases action with
  | operation operation =>
    obtain ⟨value, events, paired⟩ := (Operation.matches_run shown inRange).run refl faults h
    refine ⟨?_, events, paired⟩
    simp only [step, perform]
    rw [eq_of_rel value]
  | request request =>
    obtain ⟨value, events, paired⟩ := (Http.Site.matches_handle inRange).run refl faults h
    refine ⟨?_, events, paired⟩
    simp only [step, exchange]
    rw [eq_of_rel value]
  | seed body => exact ⟨rfl, rfl, h.insert (refl _)⟩
  | seedDocument document => exact ⟨rfl, rfl, h.insert (refl _)⟩
  | readDocument location => exact absurd shown id

theorem alike_of_paired {r r' : Report} (result : r.result = r'.result)
    (events : r.events = r'.events)
    (h : Scripted.Paired session.location AlikeBodies r.state r'.state) :
    r.Alike session.location r' :=
  ⟨result, events, h.calls, h.etag?_eq, h.body?_rel⟩

theorem run_alike (h : Abreast session.location AlikeBodies s t) {steps : List (Faults × Action)}
    (shown : ∀ step ∈ steps, step.2.Public) (inRange : ∀ step ∈ steps, step.2.InRange) :
    List.Forall₂ (Report.Alike session.location) (session.run steps s) (session.run steps t) := by
  induction steps generalizing s t with
  | nil => exact .nil
  | cons step steps ih =>
    obtain ⟨result, events, paired⟩ :=
      step_paired h step.1 (shown step (by simp)) (inRange step (by simp))
    have next : Abreast session.location AlikeBodies (session.step step.1 step.2 s).state
        (session.step step.1 step.2 t).state :=
      ⟨paired.prepared, paired.drawn, rfl, paired.version, paired.object⟩
    exact .cons (alike_of_paired result events paired)
      (ih next (fun x hx => shown x (List.mem_cons_of_mem _ hx))
        fun x hx => inRange x (List.mem_cons_of_mem _ hx))

end Session

/-- Over whole runs of a session, passwords in the stored document cannot be told apart. -/
theorem stored_passwords_invisible (session : Session) {s t : Scripted} (hs : session.Reaches s)
    (ht : session.Reaches t) (prepared : s.prepared = t.prepared)
    (drawn : s.drawn.length = t.drawn.length) {body body' : Bytes} {etag : String} {d e : Document}
    (stored : s.store.objects session.location = some (body, etag))
    (stored' : t.store.objects session.location = some (body', etag))
    (parsed : Document.parse body = .ok d) (parsed' : Document.parse body' = .ok e)
    (alike : d.Alike e) (hd : d.InRange) (he : e.InRange)
    {steps : List (Faults × Session.Action)} (shown : ∀ step ∈ steps, step.2.Public)
    (inRange : ∀ step ∈ steps, step.2.InRange) :
    List.Forall₂ (Session.Report.Alike session.location) (session.run steps s)
      (session.run steps t) := by
  have version : s.store.version = t.store.version :=
    Session.version_eq_of_etag hs ht stored stored'
  refine Session.run_alike ⟨prepared, drawn, rfl, version, ?_⟩ shown inRange
  rw [stored, stored']
  exact .some ⟨.inr ⟨d, e, parsed, parsed', alike, hd, he⟩, rfl⟩

def observed (password : Option String) : Session.Setup where
  base := ""
  location := ⟨"bucket", "key"⟩
  key := none
  docs := none
  body := some (Document.single "a" ⟨.integer 1, "k", password⟩).write
  prepared := []

theorem stored_passwords_invisible_absent :
    let session : Session := ⟨⟨⟨⟨"bucket", "key"⟩, none⟩, none, "", ⟨[]⟩⟩⟩
    let steps : List (Faults × Session.Action) :=
      [({}, .operation .list), ({}, .operation .download), ({ put := some .unconfirmed },
        .operation (.delete "a")), ({}, .operation (.get "a"))]
    List.Forall₂ (Session.Report.Alike session.location)
      (session.run steps (observed (some "p")).state)
        (session.run steps (observed none).state) := by
  intro session steps
  have inRange : ∀ password, (Document.single "a" ⟨.integer 1, "k", password⟩).InRange := by
    intro password x hx
    obtain rfl := List.mem_singleton.1 hx
    exact ⟨by decide, by decide⟩
  have alike : (Document.single "a" ⟨.integer 1, "k", some "p"⟩).Alike
      (.single "a" ⟨.integer 1, "k", none⟩) := by
    intro id
    rw [Document.get?_single, Document.get?_single]
    split_ifs <;> rfl
  refine stored_passwords_invisible session ⟨observed (some "p"), [], rfl, rfl⟩
    ⟨observed none, [], rfl, rfl⟩ rfl rfl rfl rfl (Document.parse_write (inRange _))
    (Document.parse_write (inRange _)) alike (inRange _) (inRange _) ?_ ?_
  · simp [steps, Session.Action.Public, Operation.Public]
  · simp [steps, Session.Action.InRange, Operation.InRange]

end AccountVault
