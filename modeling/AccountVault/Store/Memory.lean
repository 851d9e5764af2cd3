import AccountVault.Account.Format
import AccountVault.Store.Object

/-!
# A store in memory

Every location holds at most one object. Each write takes the next version number, over all
locations, and its tag is that number, so no tag is ever issued twice. A write with a condition
succeeds only where the object still carries the expected tag.

Version numbers have no bound here. The service's have sixty-four bits, which is the same up to its
two to the sixty-fourth write.
-/

namespace AccountVault

structure MemoryStore where
  objects : Location → Option (Bytes × String)
  version : Nat

namespace MemoryStore

def empty : MemoryStore := ⟨fun _ => none, 0⟩

def tag (version : Nat) : String := "\"v" ++ toString version ++ "\""

def insert (store : MemoryStore) (location : Location) (body : Bytes) : MemoryStore where
  objects place :=
    if place = location then some (body, tag (store.version + 1)) else store.objects place
  version := store.version + 1

def insertDocument (store : MemoryStore) (location : Location) (document : Document) :
    MemoryStore :=
  store.insert location document.write

def body? (store : MemoryStore) (location : Location) : Option Bytes :=
  (store.objects location).map (·.1)

def etag? (store : MemoryStore) (location : Location) : Option String :=
  (store.objects location).map (·.2)

def document? (store : MemoryStore) (location : Location) :
    Option (Except Json.Fault Document) :=
  (store.body? location).map Document.parse

def head (store : MemoryStore) (location : Location) : Except StoreError Unit :=
  if (store.objects location).isSome then .ok () else .error .notFound

def get (store : MemoryStore) (location : Location) : Except StoreError StoredObject :=
  match store.objects location with
  | some (body, etag) => .ok ⟨body, some etag⟩
  | none => .error .notFound

def permits (store : MemoryStore) (location : Location) : Option String → Except StoreError Unit
  | none => .ok ()
  | some expected =>
    match store.objects location with
    | none => .error .notFound
    | some (_, current) =>
      if current = expected then .ok () else .error .preconditionFailed

/-- The tag that a write was given and the store after it; a refused write changes nothing. -/
def put (store : MemoryStore) (location : Location) (body : Bytes) (ifMatch : Option String) :
    Except StoreError (Option String) × MemoryStore :=
  match store.permits location ifMatch with
  | .ok () => (.ok (some (tag (store.version + 1))), store.insert location body)
  | .error e => (.error e, store)

@[simp] theorem objects_insert_self (store : MemoryStore) (location : Location) (body : Bytes) :
    (store.insert location body).objects location = some (body, tag (store.version + 1)) := by
  simp [insert]

theorem objects_insert_of_ne {store : MemoryStore} {location place : Location} {body : Bytes}
    (h : place ≠ location) : (store.insert location body).objects place = store.objects place := by
  simp [insert, h]

end MemoryStore

end AccountVault
