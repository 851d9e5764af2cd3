import AccountVault.Text.Utf8

/-!
# Exchanges with the cloud

The object store and the source of random bytes are reached by HTTP. A link carries one request and
brings back a reply, unless the connection is closed before there is one.
-/

namespace AccountVault.Cloud

structure Request where
  method : String
  path : String
  body : Bytes := []
  contentType : Option String := none
  ifMatch : Option String := none
  operation : Option String := none
  deriving DecidableEq

structure Reply where
  status : Nat
  etag : Option String := none
  body : Bytes := []
  /-- Whether the body is as long as it was announced. -/
  complete : Bool := true
  deriving DecidableEq

def Reply.succeeded (reply : Reply) : Bool := 200 ≤ reply.status && reply.status < 300

abbrev Link (σ : Type) := Request → σ → Option Reply × σ

def Link.unreachable {σ : Type} : Link σ := fun _ state => (none, state)

end AccountVault.Cloud
