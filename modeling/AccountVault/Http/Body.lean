import AccountVault.Account.Input
import AccountVault.Http.MediaType
import AccountVault.Http.Message

/-!
# Request bodies

A body is taken as JSON if its media type says so, it is not too large and it begins with a JSON
value; what follows the value is not looked at. The three checks are made in this order.
-/

namespace AccountVault.Http

inductive BodyFault where
  | mediaType
  | tooLarge
  | notJson
  deriving DecidableEq

def BodyFault.message : BodyFault → String
  | mediaType => "Expected request with `Content-Type: application/json`"
  | tooLarge => "Failed to buffer the request body"
  | notJson => "Failed to parse the request body as JSON"

namespace Request

def bodyLimit : Nat := 2097152

def announcesJson (request : Request) : Bool :=
  match (request.headerValues "content-type").head? with
  | some value => isVisible value && (MediaType.parse? value).any MediaType.isJson
  | none => false

def jsonBody (request : Request) : Except BodyFault Json.Value :=
  if !request.announcesJson then .error .mediaType
  else if request.body.length > bodyLimit then .error .tooLarge
  else
    match Json.Value.readFirst? request.body with
    | some v => .ok v
    | none => .error .notJson

end Request

end AccountVault.Http
