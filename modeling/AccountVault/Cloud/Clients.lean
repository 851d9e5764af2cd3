import AccountVault.Cloud.Objects
import AccountVault.Cloud.Random
import AccountVault.Program
import AccountVault.Settings

/-!
# The service's backend in the cloud

Objects lie in the cloud. Random bytes come from the key management service when a region is
configured and from the local source otherwise. A blank region disables the key management service
only; without any region objects cannot be reached either.
-/

namespace AccountVault.Cloud

structure Clients (σ : Type) where
  link : Link σ
  entropy : Nat → σ → Bytes × σ
  hasRegion : Bool
  managesKeys : Bool

namespace Clients

def ofSettings {σ : Type} (link : Link σ) (entropy : Nat → σ → Bytes × σ) (settings : Settings) :
    Clients σ :=
  ⟨link, entropy, settings.awsRegion.isSome, settings.region?.isSome⟩

def objectLink {σ : Type} (clients : Clients σ) : Link σ :=
  if clients.hasRegion then clients.link else Link.unreachable

def draw {σ : Type} (clients : Clients σ) (count : Nat) (state : σ) : Except IvError Bytes × σ :=
  if clients.managesKeys then Random.draw clients.link count state
  else
    let (bytes, state) := clients.entropy count state
    (.ok bytes, state)

def returned {σ α : Type} (answer : α × σ) : Option α × σ := (some answer.1, answer.2)

def backend {σ : Type} (clients : Clients σ) : Backend σ where
  head location state := returned (Objects.head clients.objectLink location state)
  get location state := returned (Objects.get clients.objectLink location state)
  put location body ifMatch state :=
    returned (Objects.put clients.objectLink location body ifMatch state)
  draw := clients.draw

end Clients

end AccountVault.Cloud
