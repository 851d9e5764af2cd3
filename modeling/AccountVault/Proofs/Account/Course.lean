import Mathlib
import AccountVault.Proofs.Security.Twins

/-!
# The course of a change

An operation that changes the document goes through a chain of checks: the document is probed and
fetched, it is not blank and can be read, the id is free or taken as the operation needs it, a
password that comes with it can be sealed, and the write is carried out and confirmed. At the first
check that fails the operation stops, with the failure of that check. `Operation.Course` lists the
courses that this leaves, each with all its exchanges, the reply and its status.
-/

namespace AccountVault

open Program

inductive StoreError.Told : StoreError → Failure → Nat → Prop
  | notFound : Told .notFound .missingDocument 404
  | preconditionFailed : Told .preconditionFailed .concurrentWrite 403
  | backend (reason : String) :
    Told (.backend reason) (.storeFailed (StoreError.backend reason).message) 500

inductive Unread (body : Bytes) : Failure → Nat → Prop
  | blank (h : Blank.isBlankBody body = true) : Unread body .blankDocument 404
  | malformed {fault : Json.Fault} (filled : Blank.isBlankBody body = false)
      (h : Document.parse body = .error fault) :
    Unread body (.malformedDocument (fault.message body)) 500

namespace Operation

def BringsPassword : Operation → Prop
  | create _ _ | update _ _ => True
  | _ => False

/-- A new account has an id that is free, and an account that is changed has one that is taken. -/
def Admits (document : Document) : Operation → Prop
  | create id _ => document.contains id = false
  | update id _ | delete id => document.contains id = true
  | _ => False

inductive Refuses (document : Document) : Operation → Failure → Nat → Prop
  | create {id input} (taken : document.contains id = true) :
    Refuses document (.create id input) (.idTaken id) 403
  | update {id input} (free : document.contains id = false) :
    Refuses document (.update id input) (.unknownId id) 404
  | delete {id} (free : document.contains id = false) :
    Refuses document (.delete id) (.unknownId id) 404

def fulfilled : Operation → Nat
  | create _ _ => 201
  | _ => 200

inductive Closes (operation : Operation) :
    Except StoreError (Option String) → Reply → Nat → Prop
  | refused {e failure status} (told : e.Told failure status) :
    Closes operation (.error e) (.failed failure) status
  | unconfirmed : Closes operation (.ok none) (.failed .unconfirmedWrite) 400
  | confirmed (tag : String) {answer : AccountAnswer}
      (h : answer.statusCode = operation.fulfilled) :
    Closes operation (.ok (some tag)) (.account answer) operation.fulfilled

/-- All exchanges of a run, the reply and its status. Every course but the last is named for the
check that fails, and all checks before it have passed. -/
inductive Course (service : Service) (operation : Operation) : List Exchange → Reply → Nat → Prop
  | probe (e) :
    Course service operation [.head service.location (.error e)] (.failed .missingDocument) 404
  | fetch {e failure status} (told : e.Told failure status) :
    Course service operation
      [.head service.location (.ok ()), .get service.location (.error e)] (.failed failure) status
  | read {object failure status} (unread : Unread object.body failure status) :
    Course service operation (service.fetched object) (.failed failure) status
  | id {object document failure status} (parsed : Document.parse object.body = .ok document)
      (refused : operation.Refuses document failure status) :
    Course service operation (service.fetched object) (.failed failure) status
  | key {object document} (parsed : Document.parse object.body = .ok document)
      (admitted : operation.Admits document) (sealed : operation.BringsPassword)
      (missing : service.key = none) :
    Course service operation (service.fetched object) (.failed (.sealing .keyNotConfigured)) 403
  | draw {object document} (e) (parsed : Document.parse object.body = .ok document)
      (admitted : operation.Admits document) (sealed : operation.BringsPassword)
      (configured : service.key.isSome) :
    Course service operation (service.fetched object ++ [.draw Cipher.ivLength (.error e)])
      (.failed (.sealing (.random e))) 500
  | vector {object document iv} (parsed : Document.parse object.body = .ok document)
      (admitted : operation.Admits document) (sealed : operation.BringsPassword)
      (configured : service.key.isSome) (length : iv.length ≠ Cipher.ivLength) :
    Course service operation (service.fetched object ++ [.draw Cipher.ivLength (.ok iv)])
      (.failed (.sealing (.ivLength iv.length))) 500
  | write {object document changed drawn answer reply status}
      (parsed : Document.parse object.body = .ok document)
      (change : operation.Rewrites service drawn document changed)
      (closes : operation.Closes answer reply status) :
    Course service operation
      (service.fetched object ++ drawn ++
        [.put service.location changed.write object.etag answer]) reply status

end Operation

def Operation.Proceeds (operation : Operation) (service : Service) (attempt : Attempt AccountAnswer)
    (past : List Exchange) : Prop :=
  Meets (fun _ _ => True)
    (fun past outcome =>
      ∃ status, operation.Course service past (.ofOutcome .account outcome) status)
    attempt.run past

namespace Operation

variable {service : Service} {operation : Operation} {object : StoredObject}
  {document changed : Document}

theorem proceeds_snapshot {next : Snapshot → Attempt AccountAnswer}
    (read : ∀ object document, Document.parse object.body = .ok document →
      operation.Proceeds service (next ⟨document, object.etag⟩) (service.fetched object)) :
    operation.Proceeds service (DocumentStore.snapshot service.location >>= next) [] := by
  unfold Proceeds
  rw [meets_attempt_bind]
  intro answer
  refine ⟨trivial, ?_⟩
  cases answer with
  | error e => exact ⟨_, .probe e⟩
  | ok _ =>
    intro answer
    refine ⟨trivial, ?_⟩
    cases answer with
    | error e =>
      cases e with
      | notFound => exact ⟨_, .fetch .notFound⟩
      | preconditionFailed => exact ⟨_, .fetch .preconditionFailed⟩
      | backend reason => exact ⟨_, .fetch (.backend reason)⟩
    | ok object =>
      change Meets _ _ (DocumentStore.interpret service.location object).run
        (service.fetched object)
      rw [DocumentStore.run_interpret]
      by_cases blank : Blank.isBlankBody object.body = true
      · rw [if_pos blank]
        exact ⟨_, .read (.blank blank)⟩
      · rw [if_neg blank]
        cases parsed : Document.parse object.body with
        | error fault => exact ⟨_, .read (.malformed (by simpa using blank) parsed)⟩
        | ok document => exact read object document parsed

theorem proceeds_upload {drawn : List Exchange} {message id : String} {answer : AccountAnswer}
    (parsed : Document.parse object.body = .ok document)
    (change : operation.Rewrites service drawn document changed)
    (status : answer.statusCode = operation.fulfilled) :
    operation.Proceeds service
      (do
        DocumentStore.upload service.location changed object.etag
        Service.note message id
        return answer)
      (service.fetched object ++ drawn) := by
  unfold Proceeds
  rw [meets_attempt_bind]
  intro stored
  refine ⟨trivial, ?_⟩
  match stored with
  | .ok (some tag) => exact ⟨_, .write parsed change (.confirmed tag status)⟩
  | .ok none => exact ⟨_, .write parsed change .unconfirmed⟩
  | .error .notFound => exact ⟨_, .write parsed change (.refused .notFound)⟩
  | .error .preconditionFailed => exact ⟨_, .write parsed change (.refused .preconditionFailed)⟩
  | .error (.backend reason) => exact ⟨_, .write parsed change (.refused (.backend reason))⟩

theorem proceeds_sealInput {input : AccountInput} {next : Account → Attempt AccountAnswer}
    (parsed : Document.parse object.body = .ok document) (admitted : operation.Admits document)
    (sealed : operation.BringsPassword)
    (stored : ∀ iv account, service.Seals iv input account → operation.Proceeds service
      (next account) (service.fetched object ++ [.draw Cipher.ivLength (.ok iv)])) :
    operation.Proceeds service (service.sealInput input >>= next) (service.fetched object) := by
  unfold Proceeds
  rw [meets_attempt_bind]
  unfold Service.sealInput Service.encrypt
  cases configured : service.key with
  | none => exact ⟨_, .key parsed admitted sealed configured⟩
  | some key =>
    have present : service.key.isSome := by simp [configured]
    intro answer
    refine ⟨trivial, ?_⟩
    cases answer with
    | error e => exact ⟨_, .draw e parsed admitted sealed present⟩
    | ok iv =>
      simp only
      -- Sealing fails for no other reason than the length of the vector.
      by_cases length : iv.length = Cipher.ivLength
      · have encrypted : Sealed.encrypt key iv (Utf8.encode input.apiPassword) = _ :=
          Cipher.encrypt_eq_chained length _
        rw [encrypted]
        exact stored iv _ ⟨key, _, configured, encrypted, rfl⟩
      · rw [Sealed.encrypt_of_length_ne length]
        exact ⟨_, .vector parsed admitted sealed present length⟩

theorem proceeds_create (id : String) (input : AccountInput) :
    (create id input).Proceeds service (service.create id input) [] := by
  apply proceeds_snapshot
  intro object document parsed
  dsimp only
  by_cases taken : document.contains id = true
  · rw [if_pos taken]
    exact ⟨_, .id parsed (.create taken)⟩
  · rw [if_neg taken]
    have free : document.contains id = false := by simpa using taken
    have admitted : Admits document (.create id input) := free
    apply proceeds_sealInput parsed admitted trivial
    intro iv account stored
    exact proceeds_upload parsed (.create free stored) rfl

theorem proceeds_update (id : String) (input : AccountInput) :
    (update id input).Proceeds service (service.update id input) [] := by
  apply proceeds_snapshot
  intro object document parsed
  dsimp only
  cases known : document.contains id with
  | false => exact ⟨_, .id parsed (.update known)⟩
  | true =>
    have admitted : Admits document (.update id input) := known
    apply proceeds_sealInput parsed admitted trivial
    intro iv account stored
    exact proceeds_upload parsed (.update known stored) rfl

theorem proceeds_delete (id : String) :
    (delete id).Proceeds service (service.delete id) [] := by
  apply proceeds_snapshot
  intro object document parsed
  dsimp only
  cases found : document.get? id with
  | none =>
    have free : document.contains id = false := by simp [Document.contains, found]
    exact ⟨_, .id parsed (.delete free)⟩
  | some account =>
    have known : document.contains id = true := by simp [Document.contains, found]
    rw [← List.append_nil (service.fetched object)]
    exact proceeds_upload parsed (.delete known) rfl

theorem meets_course (changes : operation.Changes) :
    Meets (fun _ _ => True) (fun past reply => ∃ status, operation.Course service past reply status)
      (operation.run service) [] := by
  cases operation with
  | create id input => exact Reply.meets_ofAttempt _ _ (proceeds_create id input)
  | update id input => exact Reply.meets_ofAttempt _ _ (proceeds_update id input)
  | delete id => exact Reply.meets_ofAttempt _ _ (proceeds_delete id)
  | _ => exact changes.elim

end Operation

end AccountVault
