import AccountVault.Cipher.Sealed
import AccountVault.Cloud.Link
import AccountVault.Json.Value

/-!
# Random bytes from the cloud

The key management service hands out random bytes in base64. It is asked once, and every answer but
the right number of bytes is an error.
-/

namespace AccountVault.Cloud.Random

def greatestRequest : Nat := 2147483647

def failed : IvError := .kms ""

def request (count : Nat) : Request where
  method := "POST"
  path := "/"
  body := Utf8.encode ("\x7b\"NumberOfBytes\":" ++ toString count ++ "\x7d")
  contentType := some "application/x-amz-json-1.1"
  operation := some "TrentService.GenerateRandom"

def interpret (count : Nat) (body : Bytes) : Except IvError Bytes :=
  if body.isEmpty then .error .empty
  else
    match Json.Value.read? body with
    | some (.record members) =>
      match Json.Value.lastNamed? "Plaintext" members with
      | none => .error .empty
      | some .null => .error .empty
      | some (.text encoded) =>
        match Base64.decode? encoded with
        | some bytes =>
          if bytes.length = count then .ok bytes else .error (.mismatch count bytes.length)
        | none => .error failed
      | some _ => .error failed
    | _ => .error failed

def draw {σ : Type} (link : Link σ) (count : Nat) (state : σ) : Except IvError Bytes × σ :=
  if count > greatestRequest then (.error (.invalidLength count), state)
  else
    match link (request count) state with
    | (some reply, state) =>
      if reply.succeeded && reply.complete then (interpret count reply.body, state)
      else (.error failed, state)
    | (none, state) => (.error failed, state)

end AccountVault.Cloud.Random
