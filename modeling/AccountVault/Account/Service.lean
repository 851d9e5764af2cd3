import AccountVault.Account.Input
import AccountVault.Store.DocumentStore

/-!
# The five account operations

An account is created, fetched, updated or deleted by its id, and all accounts are listed. The two
operations that store a password seal it under a freshly drawn initialisation vector. Every change
is one conditional write of the whole document, against the tag of the document it was computed
from.
-/

namespace AccountVault

structure Service where
  location : Location
  key : Option DataKey

namespace Service

open Program

def note (message id : String) : Program Unit :=
  Program.note .info .accounts message [("account_id", .text id)]

def ready (service : Service) : Bool := service.key.isSome

def encrypt (service : Service) (plaintext : String) : ExceptT SealError Program Sealed :=
  match service.key with
  | none => throw .keyNotConfigured
  | some key =>
    Program.draw Cipher.ivLength fun answer =>
      match answer with
      | .error e => .done (.error (.random e))
      | .ok iv => .done (Sealed.encrypt key iv (Utf8.encode plaintext))

def sealInput (service : Service) (input : AccountInput) : Attempt Account := do
  match ← (service.encrypt input.apiPassword).run with
  | .error e => throw (.sealing e)
  | .ok sealed => return ⟨input.accountType, input.apiKey, some sealed.text⟩

def answer (statusCode : Nat) (document : Document) (message : String) : AccountAnswer :=
  ⟨some document, statusCode, some message⟩

def create (service : Service) (id : String) (input : AccountInput) : Attempt AccountAnswer := do
  let s ← DocumentStore.snapshot service.location
  if s.document.contains id then throw (.idTaken id)
  let account ← service.sealInput input
  DocumentStore.upload service.location (s.document.insert id account) s.etag
  note "account created" id
  return answer 201 (.single id account) "Account Created"

def get (service : Service) (id : String) : Attempt AccountAnswer := do
  let document ← DocumentStore.download service.location
  match document.get? id with
  | none => throw (.unknownId id)
  | some account => return answer 200 (.single id account) "Account Details"

def list (service : Service) : Attempt AccountAnswer := do
  let document ← DocumentStore.download service.location
  if document.isEmpty then throw .noAccounts
  return answer 200 document "Accounts List"

def update (service : Service) (id : String) (input : AccountInput) : Attempt AccountAnswer := do
  let s ← DocumentStore.snapshot service.location
  if !s.document.contains id then throw (.unknownId id)
  let account ← service.sealInput input
  DocumentStore.upload service.location (s.document.insert id account) s.etag
  note "account updated" id
  return answer 200 (.single id account) ("Updated account " ++ id ++ " with new data.")

def delete (service : Service) (id : String) : Attempt AccountAnswer := do
  let s ← DocumentStore.snapshot service.location
  match s.document.get? id with
  | none => throw (.unknownId id)
  | some account =>
    DocumentStore.upload service.location (s.document.erase id) s.etag
    note "account deleted" id
    return answer 200 (.single id account.redacted) "Account Deleted"

def shown (service : Service) : String :=
  let key := match service.key with
    | none => "None"
    | some key => "Some(" ++ key.shown ++ ")"
  "FieldEncryptor \x7b key: " ++ key ++ ", .. \x7d"

end Service

end AccountVault
