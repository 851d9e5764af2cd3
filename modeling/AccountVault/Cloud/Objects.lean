import AccountVault.Cloud.Link
import AccountVault.Store.Object
import AccountVault.Text.Percent

/-!
# Objects in the cloud

An object is probed, read and written by one request each. Why a read or a write failed is told by
the code in the reply's error report; a probe has no report and is judged by its status. Without a
region no request is made.
-/

namespace AccountVault.Cloud.Objects

def isPlainByte (byte : UInt8) : Bool :=
  let c := Char.ofNat byte.toNat
  byte < 128 && (c.isAlphanum || c = '-' || c = '.' || c = '_' || c = '~' || c = '/')

def path (location : Location) : String :=
  "/" ++ location.bucket ++ "/" ++
    String.ofList ((Percent.encode isPlainByte (Utf8.encode location.key)).map fun byte =>
      Char.ofNat byte.toNat)

def failed : StoreError := .backend ""

def after? (mark : List Char) : List Char → Option (List Char)
  | [] => if mark.isEmpty then some [] else none
  | c :: rest =>
    if mark.isPrefixOf (c :: rest) then some ((c :: rest).drop mark.length) else after? mark rest

def errorCode? (body : Bytes) : Option String := do
  let text ← Utf8.decode? body
  let report ← after? "<Error>".toList text.toList
  let code ← after? "<Code>".toList report
  let _ ← after? "</Code>".toList code
  return String.ofList (code.takeWhile (· ≠ '<'))

def isMissing (code : Option String) : Bool := code = some "NoSuchKey"

def readFailure (reply : Reply) : StoreError :=
  if isMissing (errorCode? reply.body) then .notFound else failed

def writeFailure (reply : Reply) : StoreError :=
  match errorCode? reply.body with
  | some code =>
    if code = "PreconditionFailed" || code = "ConditionalRequestConflict" then .preconditionFailed
    else if code = "NoSuchKey" || code = "NoSuchBucket" then .notFound
    else failed
  | none => failed

def head {σ : Type} (link : Link σ) (location : Location) (state : σ) :
    Except StoreError Unit × σ :=
  match link { method := "HEAD", path := path location } state with
  | (some reply, state) =>
    if reply.succeeded then (.ok (), state)
    else if reply.status = 404 then (.error .notFound, state)
    else (.error failed, state)
  | (none, state) => (.error failed, state)

def get {σ : Type} (link : Link σ) (location : Location) (state : σ) :
    Except StoreError StoredObject × σ :=
  match link { method := "GET", path := path location } state with
  | (some reply, state) =>
    if !reply.complete then (.error failed, state)
    else if reply.succeeded then (.ok ⟨reply.body, reply.etag⟩, state)
    else (.error (readFailure reply), state)
  | (none, state) => (.error failed, state)

def put {σ : Type} (link : Link σ) (location : Location) (body : Bytes) (ifMatch : Option String)
    (state : σ) : Except StoreError (Option String) × σ :=
  let request : Request :=
    { method := "PUT", path := path location, body, ifMatch,
      contentType := some "application/json" }
  match link request state with
  | (some reply, state) =>
    if !reply.complete then (.error failed, state)
    else if reply.succeeded then (.ok reply.etag, state)
    else (.error (writeFailure reply), state)
  | (none, state) => (.error failed, state)

end AccountVault.Cloud.Objects
