import Mathlib
import AccountVault.Proofs.Account.Conduct
import AccountVault.Proofs.Account.Entries
import AccountVault.Proofs.Program.Matching

/-!
# Services at work side by side

Two services with keys of their own work over related documents and are asked for the same
operations. What relates the documents, the accounts that are put into them and the stored bodies is
left open: it has to be kept by reading, by writing and by each change of a document, and documents
without their passwords have to be the same. Then the two services make the same calls and log the
same events, and what they write is related again.
-/

namespace AccountVault

open Program

namespace Document

variable {d e : Document}

section

variable {γ : Type} {f : Account → γ} (same : ∀ id, (d.get? id).map f = (e.get? id).map f)
include same

theorem get?_cases (id : String) : (d.get? id = none ∧ e.get? id = none) ∨
    ∃ a b, d.get? id = some a ∧ e.get? id = some b ∧ f a = f b := by
  have here := same id
  cases hd : d.get? id with
  | none =>
    rw [hd] at here
    exact .inl ⟨rfl, Option.map_eq_none_iff.1 here.symm⟩
  | some a =>
    rw [hd] at here
    obtain ⟨b, he, hb⟩ := Option.map_eq_some_iff.1 here.symm
    exact .inr ⟨a, b, rfl, he, hb.symm⟩

theorem map_get?_insert (id : String) {a b : Account} (written : f a = f b) (id' : String) :
    ((d.insert id a).get? id').map f = ((e.insert id b).get? id').map f := by
  rw [get?_insert, get?_insert]
  split_ifs
  · exact congrArg some written
  · exact same id'

theorem map_get?_erase (id id' : String) :
    ((d.erase id).get? id').map f = ((e.erase id).get? id').map f := by
  rw [get?_erase, get?_erase]
  split_ifs
  · rfl
  · exact same id'

theorem redacted_eq (coarse : ∀ a b, f a = f b → a.redacted = b.redacted) :
    d.redacted = e.redacted := by
  refine ext_get? fun id => ?_
  rw [get?_redacted, get?_redacted]
  rcases get?_cases same id with ⟨hd, he⟩ | ⟨a, b, hd, he, fine⟩
  · rw [hd, he]
  · rw [hd, he, Option.map_some, Option.map_some, coarse a b fine]

end

theorem contains_eq_of_redacted (h : d.redacted = e.redacted) (id : String) :
    d.contains id = e.contains id := by
  have same := congrArg (fun d => (d.get? id).isSome) h
  simp only [get?_redacted, Option.isSome_map] at same
  exact same

theorem size_eq_of_redacted (h : d.redacted = e.redacted) : d.size = e.size := by
  have same := congrArg Document.size h
  simpa [Document.size, Document.redacted] using same

theorem get?_cases_of_redacted (h : d.redacted = e.redacted) (id : String) :
    (d.get? id = none ∧ e.get? id = none) ∨
      ∃ a b, d.get? id = some a ∧ e.get? id = some b ∧ a.redacted = b.redacted := by
  refine get?_cases (fun id => ?_) id
  rw [← get?_redacted, h, get?_redacted]

end Document

namespace Session

/-- The states are paired except for the calls of the steps before, which a step forgets. -/
def Abreast (location : Location) (bodies : Bytes → Bytes → Prop) (s t : Scripted) : Prop :=
  Scripted.Paired location bodies { s with calls := [] } { t with calls := [] }

theorem Abreast.mono {bodies' : Bytes → Bytes → Prop} {s t : Scripted}
    (h : Abreast location bodies s t) (weaker : ∀ x y, bodies x y → bodies' x y) :
    Abreast location bodies' s t := by
  refine ⟨h.prepared, h.drawn, h.calls, h.version, ?_⟩
  rcases h.object_cases with ⟨hs, ht⟩ | ⟨_, _, etag, hs, ht, hb⟩
  · rw [hs, ht]
    exact .none
  · rw [hs, ht]
    exact .some ⟨weaker _ _ hb, rfl⟩

end Session

namespace DocumentStore

def reading (body : Bytes) : Except Failure Document :=
  if Blank.isBlankBody body then .error .blankDocument
  else
    match Document.parse body with
    | .error fault => .error (.malformedDocument (fault.message body))
    | .ok document => .ok document

theorem reading_of_parse {body : Bytes} {d : Document} (h : Document.parse body = .ok d) :
    reading body = .ok d := by
  simp only [reading, Document.not_isBlankBody_of_parse h, h]
  rfl

theorem reading_of_parse_error {body : Bytes} {fault : Json.Fault}
    (blank : Blank.isBlankBody body = false) (h : Document.parse body = .error fault) :
    reading body = .error (.malformedDocument (fault.message body)) := by
  rw [reading, blank, h]
  rfl

theorem parse_of_reading {body : Bytes} {d : Document} (h : reading body = .ok d) :
    Document.parse body = .ok d := by
  unfold reading at h
  split at h
  · cases h
  · split at h
    · cases h
    · cases h
      assumption

def noteReading (location : Location) : Except Failure Document → Program Unit
  | .ok document => note .info "downloaded accounts document" [("accounts", .number document.size)]
  | .error (.malformedDocument reason) =>
    note .error "accounts document is malformed" (place location ++ [("error", .text reason)])
  | .error _ => .done ()

theorem run_interpret_eq (location : Location) (object : StoredObject) :
    (interpret location object).run =
      (noteReading location (reading object.body)).bind fun _ =>
        .done ((reading object.body).map fun document => ⟨document, object.etag⟩) := by
  rw [run_interpret, reading]
  by_cases blank : Blank.isBlankBody object.body = true
  · simp only [if_pos blank]
    rfl
  · simp only [if_neg blank]
    cases Document.parse object.body <;> rfl

theorem silent_noteReading (location : Location) (read : Except Failure Document) :
    (noteReading location read).Silent := by
  unfold noteReading
  split
  · exact .log _ (.done _)
  · exact .log _ (.done _)
  · exact .done _

end DocumentStore

/-- What relates the work of two services that cannot be told apart by calls and events. -/
structure Kindred (documents : Document → Document → Prop) (accounts : Account → Account → Prop)
    (bodies : Bytes → Bytes → Prop) : Prop where
  read : ∀ {body body'}, bodies body body' →
    Concur documents (DocumentStore.reading body) (DocumentStore.reading body')
  write : ∀ {d e}, documents d e → bodies d.write e.write
  redacted : ∀ {d e}, documents d e → d.redacted = e.redacted
  insert : ∀ {d e} id {a b}, documents d e → accounts a b →
    documents (d.insert id a) (e.insert id b)
  erase : ∀ {d e} id, documents d e → documents (d.erase id) (e.erase id)

variable {location : Location} {documents : Document → Document → Prop}
  {accounts : Account → Account → Prop} {bodies : Bytes → Bytes → Prop}
  (kindred : Kindred documents accounts bodies)

include kindred

namespace DocumentStore

theorem matches_interpret {body body' : Bytes} (h : bodies body body') (etag : Option String) :
    Matches location bodies
      (Concur fun s t : Snapshot => s.etag = t.etag ∧ documents s.document t.document)
      (interpret location ⟨body, etag⟩).run (interpret location ⟨body', etag⟩).run := by
  have alike := kindred.read h
  rw [run_interpret_eq, run_interpret_eq]
  generalize reading body = left, reading body' = right at alike
  cases alike with
  | error failure =>
    refine (silent_noteReading location (.error failure)).matches_self.bind fun _ _ _ => ?_
    exact .done (.error failure)
  | ok related =>
    simp only [noteReading, Document.size_eq_of_redacted (kindred.redacted related)]
    exact .log (.done (.ok ⟨rfl, related⟩))

theorem matches_snapshot :
    Matches location bodies
      (Concur fun s t : Snapshot => s.etag = t.etag ∧ documents s.document t.document)
      (snapshot location).run (snapshot location).run := by
  apply Matches.head
  intro answer
  cases answer with
  | error e => exact .log (.done (.error _))
  | ok _ =>
    apply Matches.get
    · intro e
      cases e with
      | notFound => exact .done (.error _)
      | preconditionFailed => exact .log (.done (.error _))
      | backend reason => exact .log (.done (.error _))
    · intro body body' etag h
      exact matches_interpret kindred h etag

theorem matches_download :
    Matches location bodies (Concur Eq) (download location).run (download location).run := by
  apply (matches_snapshot kindred).attempt_bind
  intro s t h
  exact .done (.ok (kindred.redacted h.2))

theorem matches_upload {d e : Document} (h : documents d e) (ifMatch : Option String) :
    Matches location bodies (Concur Eq) (upload location d ifMatch).run
      (upload location e ifMatch).run := by
  apply Matches.put (kindred.write h)
  intro answer
  rw [Document.size_eq_of_redacted (kindred.redacted h)]
  match answer with
  | .ok (some _) => exact .log (.done (.ok rfl))
  | .ok none => exact .log (.done (.error _))
  | .error .notFound => exact .done (.error _)
  | .error .preconditionFailed => exact .log (.done (.error _))
  | .error (.backend _) => exact .log (.done (.error _))

end DocumentStore

namespace Service

variable {key key' : Option DataKey} {answers : AccountAnswer → AccountAnswer → Prop}

theorem matches_delete (id : String) :
    Matches location bodies (Concur Eq) ((Service.mk location key).delete id).run
      ((Service.mk location key').delete id).run := by
  apply (DocumentStore.matches_snapshot kindred).attempt_bind
  rintro ⟨d, etag⟩ ⟨e, _⟩ ⟨rfl, related⟩
  rcases Document.get?_cases_of_redacted (kindred.redacted related) id with
    ⟨hd, he⟩ | ⟨a, b, hd, he, same⟩
  · simp only [hd, he]
    exact .done (.error _)
  · simp only [hd, he, same]
    apply (DocumentStore.matches_upload kindred (kindred.erase id related) etag).attempt_bind
    rintro _ _ -
    exact .log (.done (.ok rfl))

theorem matches_get (id : String) :
    Matches location bodies (Concur Eq) ((Service.mk location key).get id).run
      ((Service.mk location key').get id).run := by
  apply (DocumentStore.matches_download kindred).attempt_bind
  rintro d _ rfl
  cases d.get? id with
  | none => exact .done (.error _)
  | some account => exact .done (.ok rfl)

theorem matches_list :
    Matches location bodies (Concur Eq) (Service.mk location key).list.run
      (Service.mk location key').list.run := by
  apply (DocumentStore.matches_download kindred).attempt_bind
  rintro d _ rfl
  split_ifs
  · exact .done (.error _)
  · exact .done (.ok rfl)

variable {input input' : AccountInput}
  (sealing : Matches location bodies (Concur accounts)
    ((Service.mk location key).sealInput input).run
    ((Service.mk location key').sealInput input').run)
  (tell : ∀ {a b}, accounts a b → ∀ statusCode id message,
    answers (answer statusCode (.single id a) message) (answer statusCode (.single id b) message))

include sealing tell

theorem matches_keep {d e : Document} (related : documents d e) (etag : Option String)
    (statusCode : Nat) (id event message : String) :
    Matches location bodies (Concur answers)
      (do
        let account ← (Service.mk location key).sealInput input
        DocumentStore.upload location (d.insert id account) etag
        Service.note event id
        return answer statusCode (.single id account) message : Attempt AccountAnswer).run
      (do
        let account ← (Service.mk location key').sealInput input'
        DocumentStore.upload location (e.insert id account) etag
        Service.note event id
        return answer statusCode (.single id account) message : Attempt AccountAnswer).run := by
  apply sealing.attempt_bind
  intro a b written
  apply (DocumentStore.matches_upload kindred (kindred.insert id related written) etag).attempt_bind
  rintro _ _ -
  exact .log (.done (.ok (tell written statusCode id message)))

theorem matches_create (id : String) :
    Matches location bodies (Concur answers) ((Service.mk location key).create id input).run
      ((Service.mk location key').create id input').run := by
  apply (DocumentStore.matches_snapshot kindred).attempt_bind
  rintro ⟨d, etag⟩ ⟨e, _⟩ ⟨rfl, related⟩
  simp only [Document.contains_eq_of_redacted (kindred.redacted related) id]
  by_cases taken : e.contains id = true
  · simp only [if_pos taken]
    exact .done (.error _)
  · simp only [if_neg taken]
    exact matches_keep kindred sealing tell related etag 201 id _ _

theorem matches_update (id : String) :
    Matches location bodies (Concur answers) ((Service.mk location key).update id input).run
      ((Service.mk location key').update id input').run := by
  apply (DocumentStore.matches_snapshot kindred).attempt_bind
  rintro ⟨d, etag⟩ ⟨e, _⟩ ⟨rfl, related⟩
  simp only [Document.contains_eq_of_redacted (kindred.redacted related) id]
  by_cases unknown : (!e.contains id) = true
  · simp only [if_pos unknown]
    exact .done (.error _)
  · simp only [if_neg unknown]
    exact matches_keep kindred sealing tell related etag 200 id _ _

end Service

end AccountVault
