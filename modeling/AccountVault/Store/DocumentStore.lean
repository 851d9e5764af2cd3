import AccountVault.Account.Format
import AccountVault.Program

/-!
# The stored document

The document lies as one object at a fixed location. It is probed, read as a whole together with its
entity tag, and written as a whole on condition that the tag it was read with is still the current
one. A write that the store does not confirm counts as failed, although it may have been carried
out.
-/

namespace AccountVault

structure Snapshot where
  document : Document
  etag : Option String

namespace DocumentStore

open Program

def place (location : Location) : List (String × FieldValue) :=
  [("bucket", .text location.bucket), ("key", .text location.key)]

def note (level : Level) (message : String) (fields : List (String × FieldValue)) : Program Unit :=
  Program.note level .documentStore message fields

/-- Whether the document can be probed. Any failure of the probe counts as absence. -/
def «exists» (location : Location) : Program Bool :=
  .head location fun answer =>
    match answer with
    | .ok () => .done true
    | .error e => do
      note .warn "accounts document probe failed"
        (place location ++ [("error", .text e.message)])
      return false

def failureOf (location : Location) (operation : String) (e : StoreError) : Program Failure :=
  match e with
  | .notFound => return .missingDocument
  | .preconditionFailed => do
    note .warn "conditional write rejected" (place location ++ [("op", .text operation)])
    return .concurrentWrite
  | .backend _ => do
    note .error "object store failure"
      (place location ++ [("op", .text operation), ("error", .text e.message)])
    return .storeFailed e.message

def interpret (location : Location) (object : StoredObject) : Attempt Snapshot := do
  if Blank.isBlankBody object.body then throw .blankDocument
  match Document.parse object.body with
  | .error fault =>
    let reason := fault.message object.body
    note .error "accounts document is malformed" (place location ++ [("error", .text reason)])
    throw (.malformedDocument reason)
  | .ok document =>
    note .info "downloaded accounts document" [("accounts", .number document.size)]
    return ⟨document, object.etag⟩

def fetch (location : Location) : Attempt StoredObject :=
  Program.get location fun answer =>
    match answer with
    | .ok object => .done (.ok object)
    | .error e => do
      let failure ← failureOf location "download" e
      return .error failure

def snapshot (location : Location) : Attempt Snapshot := do
  if ← («exists» location : Program Bool) then
    let object ← fetch location
    interpret location object
  else throw .missingDocument

def download (location : Location) : Attempt Document := do
  let s ← snapshot location
  return s.document.redacted

def upload (location : Location) (document : Document) (ifMatch : Option String) : Attempt Unit :=
  Program.put location document.write ifMatch fun answer =>
    match answer with
    | .ok (some _) => do
      note .info "uploaded accounts document" [("accounts", .number document.size)]
      return .ok ()
    | .ok none => do
      note .warn "upload was not confirmed" (place location)
      return .error .unconfirmedWrite
    | .error e => do
      let failure ← failureOf location "upload" e
      return .error failure

end DocumentStore

end AccountVault
