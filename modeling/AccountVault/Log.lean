/-!
# Log events

An event has a level, the part of the service it comes from, a message and named fields, which are
numbers or texts.
-/

namespace AccountVault

inductive Level where
  | error
  | warn
  | info
  | debug
  deriving DecidableEq

def Level.name : Level → String
  | error => "ERROR"
  | warn => "WARN"
  | info => "INFO"
  | debug => "DEBUG"

def Level.rank : Level → Nat
  | error => 1
  | warn => 2
  | info => 3
  | debug => 4

inductive Source where
  | startup
  | documentStore
  | accounts
  | handlers
  | rejections
  deriving DecidableEq

def Source.target : Source → String
  | startup => "accounts_svc"
  | documentStore => "accounts_svc::store::document"
  | accounts => "accounts_svc::accounts::service"
  | handlers => "accounts_svc::server::handlers"
  | rejections => "accounts_svc::server::error"

inductive FieldValue where
  | number (value : Nat)
  | text (value : String)
  deriving DecidableEq

structure Event where
  level : Level
  source : Source
  message : String
  fields : List (String × FieldValue)
  deriving DecidableEq

end AccountVault
