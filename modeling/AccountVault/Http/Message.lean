import AccountVault.Account.Format
import AccountVault.Failure

/-!
# Requests and responses

A request has a method, a target, header fields in the order they were sent and a body. A response
has a status, header fields and a body, which may be sent in a compressed coding.
-/

namespace AccountVault.Http

structure Request where
  method : String
  target : String
  headers : List (String × String)
  body : Bytes

def lower (name : String) : String := name.map Char.toLower

def Request.headerValues (request : Request) (name : String) : List String :=
  (request.headers.filter fun field => lower field.1 = name).map (·.2)

def isVisible (value : String) : Bool :=
  value.toList.all fun c => (32 ≤ c.toNat && c.toNat < 127) || c = '\t'

inductive Coding where
  | identity
  | deflate
  | gzip
  | brotli
  | zstd
  deriving DecidableEq

def Coding.name : Coding → String
  | identity => "identity"
  | deflate => "deflate"
  | gzip => "gzip"
  | brotli => "br"
  | zstd => "zstd"

structure Response where
  status : Nat
  headers : List (String × String)
  body : Bytes
  /-- The coding of the body that is sent, if it is sent compressed. -/
  coding : Option Coding := none
  deriving DecidableEq

namespace Response

def text (status : Nat) (message : String) : Response :=
  { status, headers := [("content-type", "text/plain; charset=utf-8")],
    body := Utf8.encode message }

def json (status : Nat) (headers : List (String × String)) (body : Bytes) : Response :=
  { status, headers := headers ++ [("content-type", "application/json")], body }

def cutOff : Response := { status := 408, headers := [], body := [] }

def error (status : Nat) (message : String) : Response :=
  json status [] (ErrorAnswer.write ⟨message, status⟩)

def invalidRequest : Response := error 404 "Invalid Request"

/-- The body as far as it can be shown: nothing is sent in answer to HEAD, and a compressed body is
not text. -/
def shownBody (response : Response) (method : String) : Option Bytes :=
  if method = "HEAD" || response.coding.isSome then none else some response.body

end Response

end AccountVault.Http
