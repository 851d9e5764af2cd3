import AccountVault.Operation
import AccountVault.Proofs.Program.Contract

/-!
# The calls of the account operations

An account operation probes the document, fetches it, draws a vector if it has a password to seal,
and writes at most once: the document it fetched with its own change made to it, on condition of the
tag it was fetched with. `Operation.Turn` says this as a relation between the exchanges so far and
the next one, and `Operation.meets_run` that every account operation keeps to it. An operation that
changes the document reports success exactly when its write was confirmed, and a write that was
carried out without a confirmation by a failure of its own.
-/

namespace AccountVault

open Program

def Service.Seals (service : Service) (iv : Bytes) (input : AccountInput) (account : Account) :
    Prop :=
  ∃ key sealed, service.key = some key ∧
    Sealed.encrypt key iv (Utf8.encode input.apiPassword) = .ok sealed ∧
    account = ⟨input.accountType, input.apiKey, some sealed.text⟩

namespace Operation

def OnAccounts : Operation → Prop
  | create _ _ | update _ _ | get _ | delete _ | list => True
  | _ => False

def Changes : Operation → Prop
  | create _ _ | update _ _ | delete _ => True
  | _ => False

def InRange : Operation → Prop
  | create _ input | update _ input => input.accountType.InRange
  | _ => True

def NeedsVector (document : Document) : Operation → Prop
  | create id _ => document.contains id = false
  | update id _ => document.contains id = true
  | _ => False

/-- What an operation that finds the first document puts in its place, with the draws it makes. -/
inductive Rewrites (service : Service) : Operation → List Exchange → Document → Document → Prop
  | create {id input iv account} {document : Document} (absent : document.contains id = false)
      (stored : service.Seals iv input account) :
    Rewrites service (.create id input) [.draw Cipher.ivLength (.ok iv)] document
      (document.insert id account)
  | update {id input iv account} {document : Document} (present : document.contains id = true)
      (stored : service.Seals iv input account) :
    Rewrites service (.update id input) [.draw Cipher.ivLength (.ok iv)] document
      (document.insert id account)
  | delete {id} {document : Document} (present : document.contains id = true) :
    Rewrites service (.delete id) [] document (document.erase id)

/-- The exchanges of an account operation, each after those that precede it. -/
inductive Turn (service : Service) (operation : Operation) : List Exchange → Exchange → Prop
  | probe (answer) : Turn service operation [] (.head service.location answer)
  | fetch (answer) :
    Turn service operation [.head service.location (.ok ())] (.get service.location answer)
  | draw {object document} (answer) (parsed : Document.parse object.body = .ok document)
      (needed : operation.NeedsVector document) (configured : service.key.isSome) :
    Turn service operation
      [.head service.location (.ok ()), .get service.location (.ok object)]
      (.draw Cipher.ivLength answer)
  | store {object document changed drawn} (answer)
      (parsed : Document.parse object.body = .ok document)
      (change : operation.Rewrites service drawn document changed) :
    Turn service operation
      ([.head service.location (.ok ()), .get service.location (.ok object)] ++ drawn)
      (.put service.location changed.write object.etag answer)

end Operation

def Confirmed (past : List Exchange) : Prop :=
  ∃ location body ifMatch tag, .put location body ifMatch (.ok (some tag)) ∈ past

def Operation.Concludes (operation : Operation) (past : List Exchange) (reply : Reply) : Prop :=
  operation.Changes → ((∃ answer, reply = .account answer) ↔ Confirmed past)

def Unconfirmed (past : List Exchange) : Prop :=
  ∃ location body ifMatch, .put location body ifMatch (.ok none) ∈ past

/-- An account operation ends with an answer or a failure, and a write that was carried out without
a confirmation ends it with a failure of its own. -/
structure Operation.Reports (operation : Operation) (past : List Exchange) (reply : Reply) :
    Prop where
  shape : (∃ answer, reply = .account answer ∧ answer.statusCode < 400) ∨
    ∃ failure, reply = .failed failure
  concludes : operation.Concludes past reply
  unconfirmed : Unconfirmed past → reply = .failed .unconfirmedWrite

def Exchange.IsPut : Exchange → Prop
  | put _ _ _ _ => True
  | _ => False

theorem not_confirmed {past : List Exchange} (h : ∀ x ∈ past, ¬x.IsPut) : ¬Confirmed past := by
  rintro ⟨location, body, ifMatch, tag, hx⟩
  exact h _ hx trivial

theorem not_unconfirmed {past : List Exchange} (h : ∀ x ∈ past, ¬x.IsPut) : ¬Unconfirmed past := by
  rintro ⟨location, body, ifMatch, hx⟩
  exact h _ hx trivial

theorem confirmed_append_put {past : List Exchange} (h : ∀ x ∈ past, ¬x.IsPut)
    {location : Location} {body : Bytes} {ifMatch : Option String}
    {answer : Except StoreError (Option String)} :
    Confirmed (past ++ [.put location body ifMatch answer]) ↔ ∃ tag, answer = .ok (some tag) := by
  constructor
  · rintro ⟨location', body', ifMatch', tag, hx⟩
    rcases List.mem_append.1 hx with hx | hx
    · exact absurd trivial (h _ hx)
    · injection List.mem_singleton.1 hx with _ _ _ same
      exact ⟨tag, same.symm⟩
  · rintro ⟨tag, rfl⟩
    exact ⟨location, body, ifMatch, tag, by simp⟩

theorem unconfirmed_append_put {past : List Exchange} (h : ∀ x ∈ past, ¬x.IsPut)
    {location : Location} {body : Bytes} {ifMatch : Option String}
    {answer : Except StoreError (Option String)}
    (hu : Unconfirmed (past ++ [.put location body ifMatch answer])) : answer = .ok none := by
  obtain ⟨location', body', ifMatch', hx⟩ := hu
  rcases List.mem_append.1 hx with hx | hx
  · exact absurd trivial (h _ hx)
  · injection List.mem_singleton.1 hx with _ _ _ same
    exact same.symm

variable {allowed : List Exchange → Exchange → Prop} {past : List Exchange}

namespace DocumentStore

theorem run_interpret (location : Location) (object : StoredObject) :
    (interpret location object).run =
      if Blank.isBlankBody object.body then .done (.error .blankDocument)
      else
        match Document.parse object.body with
        | .error fault =>
          .log ⟨.error, .documentStore, "accounts document is malformed",
              place location ++ [("error", .text (fault.message object.body))]⟩
            (.done (.error (.malformedDocument (fault.message object.body))))
        | .ok document =>
          .log ⟨.info, .documentStore, "downloaded accounts document",
              [("accounts", .number document.size)]⟩ (.done (.ok ⟨document, object.etag⟩)) := by
  unfold interpret
  cases Document.parse object.body with
  | error fault => by_cases h : Blank.isBlankBody object.body = true <;> simp only [h] <;> rfl
  | ok document => by_cases h : Blank.isBlankBody object.body = true <;> simp only [h] <;> rfl

theorem meets_snapshot {result : List Exchange → Except Failure Snapshot → Prop}
    {location : Location} (probe : ∀ answer, allowed past (.head location answer))
    (fetch : ∀ answer, allowed (past ++ [.head location (.ok ())]) (.get location answer))
    (refused : ∀ seen failure, (∀ x ∈ seen, ¬x.IsPut) → result (past ++ seen) (.error failure))
    (read : ∀ object document, Document.parse object.body = .ok document →
      result (past ++ [.head location (.ok ()), .get location (.ok object)])
        (.ok ⟨document, object.etag⟩)) :
    Meets allowed result (snapshot location).run past := by
  intro answer
  refine ⟨probe answer, ?_⟩
  cases answer with
  | error e => exact refused _ _ (by simp [Exchange.IsPut])
  | ok _ =>
    intro answer
    refine ⟨fetch answer, ?_⟩
    rw [List.append_assoc]
    cases answer with
    | error e => cases e <;> exact refused _ _ (by simp [Exchange.IsPut])
    | ok object =>
      change Meets allowed result (interpret location object).run _
      rw [run_interpret]
      split
      · exact refused _ _ (by simp [Exchange.IsPut])
      · split
        · exact refused _ _ (by simp [Exchange.IsPut])
        · rename_i document h
          exact read object document h

theorem meets_upload {result : List Exchange → Except Failure Unit → Prop} {location : Location}
    {document : Document} {ifMatch : Option String}
    (put : ∀ answer, allowed past (.put location document.write ifMatch answer))
    (confirmed : ∀ tag,
      result (past ++ [.put location document.write ifMatch (.ok (some tag))]) (.ok ()))
    (refused : ∀ answer failure, (∀ tag, answer ≠ .ok (some tag)) →
      (answer = .ok none → failure = .unconfirmedWrite) →
      result (past ++ [.put location document.write ifMatch answer]) (.error failure)) :
    Meets allowed result (upload location document ifMatch).run past := by
  intro answer
  refine ⟨put answer, ?_⟩
  cases answer with
  | ok tag =>
    cases tag with
    | none => exact refused _ _ (by simp) fun _ => rfl
    | some tag => exact confirmed tag
  | error e => cases e <;> exact refused _ _ (by simp) nofun

end DocumentStore

theorem Service.meets_sealInput {result : List Exchange → Except Failure Account → Prop}
    {service : Service} {input : AccountInput}
    (draw : ∀ answer, service.key.isSome → allowed past (.draw Cipher.ivLength answer))
    (refused : ∀ seen failure, (∀ x ∈ seen, ¬x.IsPut) → result (past ++ seen) (.error failure))
    (stored : ∀ iv account, service.Seals iv input account →
      result (past ++ [.draw Cipher.ivLength (.ok iv)]) (.ok account)) :
    Meets allowed result (service.sealInput input).run past := by
  unfold sealInput encrypt
  cases hk : service.key with
  | none =>
    have h := refused [] (.sealing .keyNotConfigured) (by simp)
    rw [List.append_nil] at h
    exact h
  | some key =>
    intro answer
    refine ⟨draw answer (by simp [hk]), ?_⟩
    cases answer with
    | error e => exact refused _ _ (by simp [Exchange.IsPut])
    | ok iv =>
      simp only
      cases hs : Sealed.encrypt key iv (Utf8.encode input.apiPassword) with
      | error e => exact refused _ _ (by simp [Exchange.IsPut])
      | ok sealed => exact stored iv _ ⟨key, sealed, hk, hs, rfl⟩

def Reply.ofOutcome {α : Type} (succeeded : α → Reply) : Except Failure α → Reply
  | .ok a => succeeded a
  | .error failure => .failed failure

theorem Reply.meets_ofAttempt {α : Type} {result : List Exchange → Reply → Prop}
    (succeeded : α → Reply) (attempt : Attempt α)
    (h : Meets allowed (fun past outcome => result past (ofOutcome succeeded outcome))
      attempt.run past) :
    Meets allowed result (ofAttempt succeeded attempt) past := by
  refine (meets_bind _ _ _).2 (h.mono (fun _ _ hx => hx) fun past outcome ho => ?_)
  cases outcome with
  | ok a => exact ho
  | error failure => exact ho

section

variable {service : Service} {operation : Operation}

def Service.fetched (service : Service) (object : StoredObject) : List Exchange :=
  [.head service.location (.ok ()), .get service.location (.ok object)]

theorem Service.not_isPut_of_mem_fetched {object : StoredObject} :
    ∀ x ∈ service.fetched object, ¬x.IsPut := by
  simp [fetched, Exchange.IsPut]

theorem Operation.reports_failed {failure : Failure} (h : ∀ x ∈ past, ¬x.IsPut) :
    operation.Reports past (.failed failure) where
  shape := .inr ⟨failure, rfl⟩
  concludes _ := by simp [not_confirmed h]
  unconfirmed hu := absurd hu (not_unconfirmed h)

theorem Operation.meets_snapshot_bind {α : Type} {result : List Exchange → Except Failure α → Prop}
    (next : Snapshot → Attempt α)
    (refused : ∀ past failure, (∀ x ∈ past, ¬x.IsPut) → result past (.error failure))
    (read : ∀ object document, Document.parse object.body = .ok document →
      Meets (operation.Turn service) result (next ⟨document, object.etag⟩).run
        (service.fetched object)) :
    Meets (operation.Turn service) result
      (DocumentStore.snapshot service.location >>= next).run [] := by
  rw [meets_attempt_bind]
  exact DocumentStore.meets_snapshot (fun answer => .probe answer) (fun answer => .fetch answer)
    (fun seen failure h => refused seen failure h) read

theorem Operation.Rewrites.drawn_eq {document changed : Document} {drawn : List Exchange}
    (change : operation.Rewrites service drawn document changed) :
    ∀ x ∈ drawn, ∃ iv, x = .draw Cipher.ivLength (.ok iv) := by
  cases change with
  | create absent stored => simp
  | update present stored => simp
  | delete present => simp

theorem Operation.Rewrites.not_isPut {document changed : Document} {drawn : List Exchange}
    (change : operation.Rewrites service drawn document changed) : ∀ x ∈ drawn, ¬x.IsPut := by
  intro x hx
  obtain ⟨iv, rfl⟩ := change.drawn_eq x hx
  exact id

theorem Operation.Rewrites.eq_of_mem {document changed : Document} {drawn : List Exchange}
    (change : operation.Rewrites service drawn document changed) {location : Location}
    {object object' : StoredObject}
    (h : .get location (.ok object') ∈ service.fetched object ++ drawn) :
    location = service.location ∧ object' = object := by
  rcases List.mem_append.1 h with h | h
  · simpa [Service.fetched] using h
  · obtain ⟨iv, he⟩ := change.drawn_eq _ h
    cases he

theorem Operation.Turn.of_put {location : Location} {body : Bytes} {ifMatch : Option String}
    {answer : Except StoreError (Option String)}
    (h : operation.Turn service past (.put location body ifMatch answer)) :
    ∃ object document changed drawn, past = service.fetched object ++ drawn ∧
      Document.parse object.body = .ok document ∧
      operation.Rewrites service drawn document changed ∧
      location = service.location ∧ body = changed.write ∧ ifMatch = object.etag := by
  generalize hx : Exchange.put location body ifMatch answer = x at h
  cases h with
  | probe answer => cases hx
  | fetch answer => cases hx
  | draw answer parsed needed configured => cases hx
  | store answer parsed change =>
    cases hx
    exact ⟨_, _, _, _, rfl, parsed, change, rfl, rfl, rfl⟩

theorem Operation.Turn.not_isPut {x : Exchange} (h : operation.Turn service past x) :
    ∀ y ∈ past, ¬y.IsPut := by
  cases h with
  | probe answer => simp
  | fetch answer => simp [Exchange.IsPut]
  | draw answer parsed needed configured => simp [Exchange.IsPut]
  | store answer parsed change =>
    intro y hy
    rcases List.mem_append.1 hy with hy | hy
    · exact Service.not_isPut_of_mem_fetched y hy
    · exact change.not_isPut y hy

theorem Operation.meets_change {object : StoredObject} {document changed : Document}
    {drawn : List Exchange} {message id : String} {answer : AccountAnswer}
    (plain : answer.statusCode < 400) (parsed : Document.parse object.body = .ok document)
    (change : operation.Rewrites service drawn document changed) :
    Meets (operation.Turn service)
      (fun past outcome => operation.Reports past (.ofOutcome .account outcome))
      (do
        DocumentStore.upload service.location changed object.etag
        Service.note message id
        return answer : Attempt AccountAnswer).run (service.fetched object ++ drawn) := by
  have quiet : ∀ x ∈ service.fetched object ++ drawn, ¬x.IsPut := by
    intro x hx
    rcases List.mem_append.1 hx with hx | hx
    · exact Service.not_isPut_of_mem_fetched x hx
    · exact change.not_isPut x hx
  rw [meets_attempt_bind]
  refine DocumentStore.meets_upload (fun answer => .store answer parsed change) ?_ ?_
  · intro tag
    refine ⟨.inl ⟨answer, rfl, plain⟩, fun _ => ?_, fun hu => ?_⟩
    · rw [confirmed_append_put quiet]
      simp [Reply.ofOutcome]
    · cases unconfirmed_append_put quiet hu
  · intro answer failure h unconfirmed
    refine ⟨.inr ⟨failure, rfl⟩, fun _ => ?_, fun hu => ?_⟩
    · rw [confirmed_append_put quiet]
      simpa [Reply.ofOutcome] using h
    · rw [unconfirmed (unconfirmed_append_put quiet hu)]
      rfl

theorem Operation.meets_sealed_change {object : StoredObject} {document : Document}
    {input : AccountInput} {message id : String} {answer : Account → AccountAnswer}
    (plain : ∀ account, (answer account).statusCode < 400)
    (parsed : Document.parse object.body = .ok document)
    (needed : operation.NeedsVector document)
    (change : ∀ iv account, service.Seals iv input account →
      operation.Rewrites service [.draw Cipher.ivLength (.ok iv)] document
        (document.insert id account)) :
    Meets (operation.Turn service)
      (fun past outcome => operation.Reports past (.ofOutcome .account outcome))
      (do
        let account ← service.sealInput input
        DocumentStore.upload service.location (document.insert id account) object.etag
        Service.note message id
        return answer account : Attempt AccountAnswer).run (service.fetched object) := by
  rw [meets_attempt_bind]
  refine Service.meets_sealInput (fun answer configured => .draw answer parsed needed configured)
    ?_ (fun iv account stored => meets_change (plain account) parsed (change iv account stored))
  intro seen failure quiet
  refine reports_failed fun x hx => ?_
  rcases List.mem_append.1 hx with hx | hx
  · exact Service.not_isPut_of_mem_fetched x hx
  · exact quiet x hx

theorem Operation.meets_create (id : String) (input : AccountInput) :
    Meets ((Operation.create id input).Turn service) (create id input).Reports
      ((create id input).run service) [] := by
  refine Reply.meets_ofAttempt _ _ (meets_snapshot_bind _ (fun _ _ h => reports_failed h)
    fun object document parsed => ?_)
  dsimp only
  split
  · exact reports_failed Service.not_isPut_of_mem_fetched
  · rename_i absent
    rw [Bool.not_eq_true] at absent
    have needed : NeedsVector document (.create id input) := absent
    exact meets_sealed_change (fun _ => by simp [Service.answer]) parsed needed
      fun _ _ stored => .create absent stored

theorem Operation.meets_update (id : String) (input : AccountInput) :
    Meets ((Operation.update id input).Turn service) (update id input).Reports
      ((update id input).run service) [] := by
  refine Reply.meets_ofAttempt _ _ (meets_snapshot_bind _ (fun _ _ h => reports_failed h)
    fun object document parsed => ?_)
  dsimp only
  split
  · exact reports_failed Service.not_isPut_of_mem_fetched
  · rename_i present
    rw [Bool.not_eq_true', Bool.not_eq_false] at present
    have needed : NeedsVector document (.update id input) := present
    exact meets_sealed_change (fun _ => by simp [Service.answer]) parsed needed
      fun _ _ stored => .update present stored

theorem Operation.meets_delete (id : String) :
    Meets ((Operation.delete id).Turn service) (delete id).Reports
      ((delete id).run service) [] := by
  refine Reply.meets_ofAttempt _ _ (meets_snapshot_bind _ (fun _ _ h => reports_failed h)
    fun object document parsed => ?_)
  dsimp only
  split
  · exact reports_failed Service.not_isPut_of_mem_fetched
  · rename_i account found
    have present : document.contains id = true := by simp [Document.contains, found]
    rw [← List.append_nil (service.fetched object)]
    exact meets_change (by simp [Service.answer]) parsed (.delete present)

theorem Operation.meets_download_bind {next : Document → Attempt AccountAnswer}
    (unchanged : ¬operation.Changes)
    (h : ∀ document, ∃ outcome, (next document).run = .done outcome ∧
      ∀ answer, outcome = .ok answer → answer.statusCode < 400) :
    Meets (operation.Turn service) operation.Reports
      (Reply.ofAttempt .account (DocumentStore.download service.location >>= next)) [] := by
  have same : DocumentStore.download service.location >>= next =
      DocumentStore.snapshot service.location >>= fun s => next s.document.redacted := by
    simp [DocumentStore.download]
  rw [same]
  refine Reply.meets_ofAttempt _ _ (meets_snapshot_bind _ (fun _ _ h => reports_failed h)
    fun object document parsed => ?_)
  obtain ⟨outcome, ended, plain⟩ := h document.redacted
  rw [ended]
  cases outcome with
  | ok answer =>
    exact ⟨.inl ⟨answer, rfl, plain answer rfl⟩, fun changes => absurd changes unchanged,
      fun hu => absurd hu (not_unconfirmed Service.not_isPut_of_mem_fetched)⟩
  | error failure => exact reports_failed Service.not_isPut_of_mem_fetched

theorem Operation.meets_get (id : String) :
    Meets ((Operation.get id).Turn service) (get id).Reports ((get id).run service) [] := by
  refine meets_download_bind (fun h => h) fun document => ?_
  split
  · exact ⟨_, rfl, nofun⟩
  · refine ⟨_, rfl, ?_⟩
    rintro _ ⟨⟩
    simp [Service.answer]

theorem Operation.meets_list :
    Meets (Operation.list.Turn service) Operation.list.Reports (list.run service) [] := by
  refine meets_download_bind (fun h => h) fun document => ?_
  split
  · exact ⟨_, rfl, nofun⟩
  · refine ⟨_, rfl, ?_⟩
    rintro _ ⟨⟩
    simp [Service.answer]

theorem Operation.meets_reports (h : operation.OnAccounts) :
    Meets (operation.Turn service) operation.Reports (operation.run service) [] := by
  cases operation with
  | create id input => exact meets_create id input
  | update id input => exact meets_update id input
  | get id => exact meets_get id
  | delete id => exact meets_delete id
  | list => exact meets_list
  | _ => exact absurd h id

theorem Operation.meets_run (h : operation.OnAccounts) :
    Meets (operation.Turn service) operation.Concludes (operation.run service) [] :=
  (meets_reports h).mono (fun _ _ turn => turn) fun _ _ reports => reports.concludes

end

end AccountVault
