import AccountVault.Failure
import AccountVault.Json.Value
import AccountVault.Text.Quoted

/-!
# What a caller sends to create or update an account

Three fields are taken from the request body: a number and two texts. Everything else in the body is
dropped, and of repeated fields the last one counts.
-/

namespace AccountVault

structure AccountInput where
  accountType : Json.Number
  apiKey : String
  apiPassword : String
  deriving DecidableEq

namespace AccountInput

def ofValue? (body : Json.Value) : Option AccountInput := do
  let accountType ← (← body.member? "accountType").number?
  let apiKey ← (← body.member? "apiKey").text?
  let apiPassword ← (← body.member? "apiPassword").text?
  return ⟨accountType, apiKey, apiPassword⟩

def ofValue (body : Json.Value) : Except Failure AccountInput :=
  match ofValue? body with
  | some input => .ok input
  | none => .error .invalidInput

def shown (input : AccountInput) : String :=
  "AccountInput \x7b account_type: Number(" ++ input.accountType.text ++ "), api_key: " ++
    Quoted.quote input.apiKey ++ ", api_password: \"[REDACTED]\" \x7d"

end AccountInput

end AccountVault
