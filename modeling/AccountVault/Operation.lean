import AccountVault.Account.Service

/-!
# Operations

What the service can be asked for directly, without HTTP in between, and what comes back.
-/

namespace AccountVault

inductive Operation where
  | create (id : String) (input : AccountInput)
  | update (id : String) (input : AccountInput)
  | get (id : String)
  | delete (id : String)
  | list
  | ready
  | probe
  | download
  | snapshot
  | upload (document : Document) (ifMatch : Option String)
  | encrypt (plaintext : String)
  | describe

inductive Reply where
  /-- The text that came with an operation does not hold what it should. -/
  | unreadable
  | failed (failure : Failure)
  | account (answer : AccountAnswer)
  | truth (value : Bool)
  | document (document : Document)
  | snapshot (snapshot : Snapshot)
  | finished
  | sealed (value : Sealed)
  | notSealed (error : SealError)
  | text (value : String)

namespace Reply

def ofAttempt {α : Type} (succeeded : α → Reply) (attempt : Program.Attempt α) : Program Reply := do
  match ← attempt.run with
  | .ok a => return succeeded a
  | .error failure => return failed failure

end Reply

namespace Operation

def readInput (body : Bytes) : Except Reply AccountInput :=
  match Json.Value.read? body with
  | none => .error .unreadable
  | some v =>
    match AccountInput.ofValue v with
    | .ok input => .ok input
    | .error failure => .error (.failed failure)

def readCreate (id : String) (body : Bytes) : Except Reply Operation :=
  (readInput body).map (create id)

def readUpdate (id : String) (body : Bytes) : Except Reply Operation :=
  (readInput body).map (update id)

def readUpload (body : Bytes) (ifMatch : Option String) : Except Reply Operation :=
  match Document.parse body with
  | .ok document => .ok (upload document ifMatch)
  | .error _ => .error .unreadable

def run (service : Service) : Operation → Program Reply
  | create id input => Reply.ofAttempt .account (service.create id input)
  | update id input => Reply.ofAttempt .account (service.update id input)
  | get id => Reply.ofAttempt .account (service.get id)
  | delete id => Reply.ofAttempt .account (service.delete id)
  | list => Reply.ofAttempt .account service.list
  | ready => return .truth service.ready
  | probe => return .truth (← DocumentStore.exists service.location)
  | download => Reply.ofAttempt .document (DocumentStore.download service.location)
  | snapshot => Reply.ofAttempt .snapshot (DocumentStore.snapshot service.location)
  | upload document ifMatch =>
    Reply.ofAttempt (fun _ => .finished) (DocumentStore.upload service.location document ifMatch)
  | encrypt plaintext => do
    match ← (service.encrypt plaintext).run with
    | .ok value => return .sealed value
    | .error e => return .notSealed e
  | describe => return .text service.shown

end Operation

end AccountVault
