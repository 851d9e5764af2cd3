import AccountVault.Text.Utf8

/-!
# Objects in a store

An object lies at a bucket and a key, has a body and usually an entity tag, which changes with every
write.
-/

namespace AccountVault

structure Location where
  bucket : String
  key : String
  deriving DecidableEq

inductive StoreError where
  | notFound
  | preconditionFailed
  | backend (reason : String)
  deriving DecidableEq

def StoreError.message : StoreError → String
  | notFound => "object not found"
  | preconditionFailed => "object was modified since it was read"
  | backend reason => "object store request failed: " ++ reason

structure StoredObject where
  body : Bytes
  etag : Option String
  deriving DecidableEq

end AccountVault
