import Mathlib
import AccountVault.Proofs.Account.Course
import AccountVault.Proofs.Http.Agreement
import AccountVault.Proofs.Session.Records

/-!
# Chains of checks

Where every call returns, an operation that changes the document takes one of its courses, and the
record of the run shows it. So each call and each draw is made exactly if all checks before it have
passed, the operation succeeds exactly if all of them have, and otherwise it fails as the first
check that has not passed says.
-/

namespace AccountVault

open Program

namespace Scripted

variable {state middle last : Scripted} {faults : Faults}

/-- The calls and draws of the exchanges, and no others, are recorded between the two states. -/
structure Notes (trace : List Exchange) (state last : Scripted) : Prop where
  calls : last.calls = state.calls ++ trace.filterMap Exchange.call?
  drawn : last.drawn = state.drawn ++ (trace.filterMap Exchange.drawn?).map Prod.fst

theorem Notes.trans {first later : List Exchange} (h : Notes first state middle)
    (h' : Notes later middle last) : Notes (first ++ later) state last := by
  constructor
  · rw [h'.calls, h.calls, List.filterMap_append, List.append_assoc]
  · rw [h'.drawn, h.drawn, List.filterMap_append, List.map_append, List.append_assoc]

theorem notes_head {location : Location} {answer : Except StoreError Unit}
    (called : (backend faults).head location state = (some answer, middle)) :
    Notes [.head location answer] state middle := by
  have noted := state_head faults location state
  rw [called] at noted
  obtain rfl : middle = _ := noted
  exact ⟨rfl, (List.append_nil _).symm⟩

theorem notes_get {location : Location} {answer : Except StoreError StoredObject}
    (called : (backend faults).get location state = (some answer, middle)) :
    Notes [.get location answer] state middle := by
  obtain ⟨store, noted⟩ := state_get faults location state
  rw [called] at noted
  obtain rfl : middle = _ := noted
  exact ⟨rfl, (List.append_nil _).symm⟩

theorem notes_put {location : Location} {body : Bytes} {ifMatch : Option String}
    {answer : Except StoreError (Option String)}
    (called : (backend faults).put location body ifMatch state = (some answer, middle)) :
    Notes [.put location body ifMatch answer] state middle := by
  obtain ⟨store, noted⟩ := state_put faults location body ifMatch state
  rw [called] at noted
  obtain rfl : middle = _ := noted
  exact ⟨rfl, (List.append_nil _).symm⟩

theorem notes_draw (count : Nat) (answer : Except IvError Bytes) (state : Scripted) :
    Notes [.draw count answer] state (draw count state).2 := by
  rw [state_draw]
  exact ⟨(List.append_nil _).symm, rfl⟩

end Scripted

theorem Program.notes_run {α : Type} (p : Program α) {faults : Faults} (returns : faults.Returns)
    (state : Scripted) :
    Scripted.Notes (p.exchanges (Scripted.backend faults) state) state
      (p.run (Scripted.backend faults) state).state := by
  induction p generalizing state with
  | done a => exact ⟨(List.append_nil _).symm, (List.append_nil _).symm⟩
  | head location next ih =>
    obtain ⟨answer, middle, called⟩ := Scripted.head_returns returns location state
    simp only [run, exchanges, called]
    exact (Scripted.notes_head called).trans (ih answer middle)
  | get location next ih =>
    obtain ⟨answer, middle, called⟩ := Scripted.get_returns returns location state
    simp only [run, exchanges, called]
    exact (Scripted.notes_get called).trans (ih answer middle)
  | put location body ifMatch next ih =>
    obtain ⟨answer, middle, called⟩ := Scripted.put_returns returns location body ifMatch state
    simp only [run, exchanges, called]
    exact (Scripted.notes_put called).trans (ih answer middle)
  | draw count next ih => exact (Scripted.notes_draw count _ state).trans (ih _ _)
  | log event next ih => exact ih state

def Reply.HasStatus : Reply → Nat → Prop
  | .account answer, status => answer.statusCode = status
  | .failed failure, status => failure.kind.status = status
  | _, _ => False

theorem StoreError.Told.status {e : StoreError} {failure : Failure} {status : Nat}
    (h : e.Told failure status) : failure.kind.status = status := by
  cases h <;> rfl

namespace Operation

variable {service : Service} {operation : Operation} {trace drawn : List Exchange} {reply : Reply}
  {status : Nat} {document changed : Document}

theorem Course.hasStatus (h : operation.Course service trace reply status) :
    reply.HasStatus status := by
  cases h with
  | fetch told => exact told.status
  | read unread => cases unread <;> rfl
  | id parsed refused => cases refused <;> rfl
  | write parsed change closes =>
    cases closes with
    | refused told => exact told.status
    | unconfirmed => rfl
    | confirmed tag h => exact h
  | _ => rfl

theorem Rewrites.admits (h : operation.Rewrites service drawn document changed) :
    operation.Admits document := by
  cases h with
  | create absent stored => exact absent
  | update present stored => exact present
  | delete present => exact present

theorem Rewrites.drawn_cases (h : operation.Rewrites service drawn document changed) :
    (operation.BringsPassword ∧ service.key.isSome ∧
        ∃ iv, iv.length = Cipher.ivLength ∧ drawn = [.draw Cipher.ivLength (.ok iv)]) ∨
      ¬operation.BringsPassword ∧ drawn = [] := by
  have whole : ∀ {iv input account}, service.Seals iv input account →
      service.key.isSome ∧ iv.length = Cipher.ivLength := by
    rintro iv input account ⟨key, sealed, configured, encrypted, -⟩
    refine ⟨by simp [configured], ?_⟩
    by_contra length
    rw [Sealed.encrypt_of_length_ne length] at encrypted
    cases encrypted
  cases h with
  | create absent stored => exact .inl ⟨trivial, (whole stored).1, _, (whole stored).2, rfl⟩
  | update present stored => exact .inl ⟨trivial, (whole stored).1, _, (whole stored).2, rfl⟩
  | delete present => exact .inr ⟨fun h => h, rfl⟩

/-- The fetched object is a document that the operation goes on with: it can be read, it has the id
or does not have it, as it should, and a password that is sent can be sealed. -/
def Passes (service : Service) (operation : Operation) (object : StoredObject) : Prop :=
  Blank.isBlankBody object.body = false ∧ ∃ document, Document.parse object.body = .ok document ∧
    operation.Admits document ∧ (operation.BringsPassword → service.key.isSome)

/-- Each call and each draw, and the success of the operation, need what comes before them. -/
structure Orderly (service : Service) (operation : Operation) (trace : List Exchange)
    (calls : List Call) (draws : List Nat) (reply : Reply) : Prop where
  ordered : ∃ tag, calls <+:
    [.head service.location, .get service.location, .put service.location tag]
  conditional : ∀ tag, .put service.location tag ∈ calls →
    ∃ object, .get service.location (.ok object) ∈ trace ∧ tag = object.etag
  fetches : .get service.location ∈ calls ↔ .head service.location (.ok ()) ∈ trace
  single : draws = [] ∨ draws = [Cipher.ivLength]
  draws : draws = [Cipher.ivLength] ↔ operation.BringsPassword ∧
    ∃ object, .get service.location (.ok object) ∈ trace ∧ operation.Passes service object
  writes : (∃ tag, .put service.location tag ∈ calls) ↔
    ∃ object, .get service.location (.ok object) ∈ trace ∧ operation.Passes service object ∧
      (operation.BringsPassword → ∃ iv, .draw Cipher.ivLength (.ok iv) ∈ trace ∧
        iv.length = Cipher.ivLength)
  succeeds : (∃ answer, reply = .account answer) ↔
    ∃ body tag etag, .put service.location body tag (.ok (some etag)) ∈ trace
  fulfilled : ∀ answer, reply = .account answer → answer.statusCode = operation.fulfilled

theorem passes_iff {object : StoredObject} (parsed : Document.parse object.body = .ok document) :
    operation.Passes service object ↔
      operation.Admits document ∧ (operation.BringsPassword → service.key.isSome) := by
  simp [Passes, parsed, Document.not_isBlankBody_of_parse parsed]

theorem not_passes_of_unread {object : StoredObject} {failure : Failure}
    (unread : Unread object.body failure status) : ¬operation.Passes service object := by
  rintro ⟨filled, document, parsed, -⟩
  cases unread with
  | blank blank => simp [blank] at filled
  | malformed _ refused => simp [parsed] at refused

theorem Refuses.not_admits {failure : Failure} (h : operation.Refuses document failure status) :
    ¬operation.Admits document := by
  cases h with
  | create taken => simp [Admits, taken]
  | update free => simp [Admits, free]
  | delete free => simp [Admits, free]

section

variable {object : StoredObject} {failure : Failure}

theorem orderly_unprobed (e : StoreError) :
    operation.Orderly service [.head service.location (.error e)] [.head service.location] []
      (.failed failure) where
  ordered := ⟨none, by simp⟩
  conditional := by simp
  fetches := by simp
  single := .inl rfl
  draws := by simp
  writes := by simp
  succeeds := by simp
  fulfilled := nofun

theorem orderly_unfetched (e : StoreError) :
    operation.Orderly service [.head service.location (.ok ()), .get service.location (.error e)]
      [.head service.location, .get service.location] [] (.failed failure) where
  ordered := ⟨none, by simp⟩
  conditional := by simp
  fetches := by simp
  single := .inl rfl
  draws := by simp
  writes := by simp
  succeeds := by simp
  fulfilled := nofun

theorem orderly_stopped (stops : ¬operation.Passes service object) :
    operation.Orderly service (service.fetched object)
      [.head service.location, .get service.location] [] (.failed failure) where
  ordered := ⟨none, by simp⟩
  conditional := by simp
  fetches := by simp [Service.fetched]
  single := .inl rfl
  draws := by simp [Service.fetched, stops]
  writes := by simp [Service.fetched, stops]
  succeeds := by simp [Service.fetched]
  fulfilled := nofun

theorem orderly_undrawn (passes : operation.Passes service object)
    (sealed : operation.BringsPassword) {answer : Except IvError Bytes}
    (short : ∀ iv, .ok iv = answer → iv.length ≠ Cipher.ivLength) :
    operation.Orderly service (service.fetched object ++ [.draw Cipher.ivLength answer])
      [.head service.location, .get service.location] [Cipher.ivLength] (.failed failure) where
  ordered := ⟨none, by simp⟩
  conditional := by simp
  fetches := by simp [Service.fetched]
  single := .inr rfl
  draws := by simp [Service.fetched, passes, sealed]
  writes := by simpa [Service.fetched, passes, sealed] using short
  succeeds := by simp [Service.fetched]
  fulfilled := nofun

theorem orderly_written (passes : operation.Passes service object) {draws : List Nat}
    (sealed : (operation.BringsPassword ∧ draws = [Cipher.ivLength] ∧
        ∃ iv, iv.length = Cipher.ivLength ∧ drawn = [.draw Cipher.ivLength (.ok iv)]) ∨
      ¬operation.BringsPassword ∧ draws = [] ∧ drawn = [])
    {body : Bytes} {answer : Except StoreError (Option String)}
    (closes : operation.Closes answer reply status) :
    operation.Orderly service
      (service.fetched object ++ drawn ++ [.put service.location body object.etag answer])
      [.head service.location, .get service.location, .put service.location object.etag] draws
      reply := by
  have fetched : .get service.location (.ok object) ∈
      service.fetched object ++ drawn ++ [.put service.location body object.etag answer] := by
    simp [Service.fetched]
  refine ⟨⟨object.etag, List.prefix_rfl⟩, ?_, ?_, ?_, ?_, ?_, ?_, ?_⟩
  · intro tag mem
    exact ⟨object, fetched, by simpa using mem⟩
  · simp [Service.fetched]
  · rcases sealed with ⟨-, one, -⟩ | ⟨-, none, -⟩
    · exact .inr one
    · exact .inl none
  · rcases sealed with ⟨sealed, rfl, -⟩ | ⟨unsealed, rfl, -⟩
    · exact iff_of_true rfl ⟨sealed, object, fetched, passes⟩
    · exact iff_of_false (by simp) fun h => unsealed h.1
  · refine iff_of_true ⟨object.etag, by simp⟩ ⟨object, fetched, passes, fun brings => ?_⟩
    rcases sealed with ⟨-, -, iv, whole, rfl⟩ | ⟨unsealed, -, -⟩
    · exact ⟨iv, by simp, whole⟩
    · exact absurd brings unsealed
  · have undrawn : ∀ body tag etag, .put service.location body tag (.ok (some etag)) ∉ drawn := by
      rcases sealed with ⟨-, -, iv, -, rfl⟩ | ⟨-, -, rfl⟩ <;> simp
    cases closes <;> simp [Service.fetched, undrawn]
  · rintro answer rfl
    cases closes
    assumption

end

theorem Course.orderly (h : operation.Course service trace reply status) :
    operation.Orderly service trace (trace.filterMap Exchange.call?)
      ((trace.filterMap Exchange.drawn?).map Prod.fst) reply := by
  cases h with
  | probe e => exact orderly_unprobed e
  | fetch told => exact orderly_unfetched _
  | read unread => exact orderly_stopped (not_passes_of_unread unread)
  | id parsed refused =>
    exact orderly_stopped fun passes => refused.not_admits ((passes_iff parsed).1 passes).1
  | key parsed admitted sealed missing =>
    refine orderly_stopped fun passes => ?_
    have configured := ((passes_iff parsed).1 passes).2 sealed
    simp [missing] at configured
  | draw e parsed admitted sealed configured =>
    exact orderly_undrawn ((passes_iff parsed).2 ⟨admitted, fun _ => configured⟩) sealed nofun
  | vector parsed admitted sealed configured length =>
    refine orderly_undrawn ((passes_iff parsed).2 ⟨admitted, fun _ => configured⟩) sealed ?_
    rintro _ ⟨⟩
    exact length
  | write parsed change closes =>
    rcases change.drawn_cases with ⟨sealed, configured, iv, whole, rfl⟩ | ⟨unsealed, rfl⟩
    · exact orderly_written ((passes_iff parsed).2 ⟨change.admits, fun _ => configured⟩)
        (.inl ⟨sealed, rfl, iv, whole, rfl⟩) closes
    · exact orderly_written
        ((passes_iff parsed).2 ⟨change.admits, fun sealed => absurd sealed unsealed⟩)
        (.inr ⟨unsealed, rfl, rfl⟩) closes

end Operation

/-- An operation that changes the document takes one of its courses: it makes each call and each
draw if all checks before have passed, succeeds if all have, and else fails as the first that has
not. -/
theorem stops_at_first_failing_check (session : Session) {faults : Faults}
    (returns : faults.Returns) {operation : Operation} (changes : operation.Changes)
    (state : Scripted) :
    let service := session.site.service
    let report := session.step faults (.operation operation) state
    let trace := session.exchanges faults (.operation operation) state
    ∃ reply status draws, report.result = .reply reply ∧ reply.HasStatus status ∧
      operation.Course service trace reply status ∧ report.state.drawn = state.drawn ++ draws ∧
      operation.Orderly service trace report.state.calls draws reply := by
  intro service report trace
  obtain ⟨reply, last, ends⟩ := (operation.run service).ends_of_returns returns
    { state with calls := [] }
  obtain ⟨result, -⟩ := Session.step_operation_of_ends ends
  obtain ⟨status, course⟩ := ends.admitted (Operation.meets_course changes)
  have noted : Scripted.Notes trace { state with calls := [] } report.state :=
    (operation.run service).notes_run returns { state with calls := [] }
  refine ⟨reply, status, _, result, course.hasStatus, course, noted.drawn, ?_⟩
  have calls : report.state.calls = trace.filterMap Exchange.call? := by
    simpa using noted.calls
  rw [calls]
  exact course.orderly

theorem stops_at_first_failing_check_short :
    let session : Session :=
      ⟨⟨⟨⟨"bucket", "key"⟩, some ⟨List.replicate 32 0, rfl⟩⟩, none, "", ⟨[]⟩⟩⟩
    let operation : Operation := .update "a" ⟨.integer 3, "m", "q"⟩
    let state : Scripted := { resting.state with prepared := [.bytes (List.replicate 15 0)] }
    let faults : Faults := { get := some .untagged }
    let report := session.step faults (.operation operation) state
    report.state.calls = [.head session.location, .get session.location] ∧
      report.state.drawn = [16] ∧ ∃ reply status, report.result = .reply reply ∧
        reply.HasStatus status ∧ operation.Course session.site.service
          (session.exchanges faults (.operation operation) state) reply status := by
  intro session operation state faults report
  have returns : faults.Returns := ⟨by simp [faults], by simp [faults], by simp [faults]⟩
  have changes : operation.Changes := trivial
  obtain ⟨reply, status, draws, result, hasStatus, course, -, -⟩ :=
    stops_at_first_failing_check session returns changes state
  exact ⟨by decide +kernel, by decide +kernel, reply, status, result, hasStatus, course⟩

end AccountVault
