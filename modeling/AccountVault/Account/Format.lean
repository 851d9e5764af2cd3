import AccountVault.Account.Document
import AccountVault.Json.Field
import AccountVault.Json.Writer

/-!
# The written form of accounts and answers

The document, an account and the three kinds of answers as JSON texts. Fields are written in a fixed
order and a missing optional field is left out. Reading takes the fields in any order, skips unknown
ones, refuses repeated ones, and takes an account or an answer also as a list of its fields in the
fixed order.
-/

namespace AccountVault

open Json

structure AccountAnswer where
  account : Option Document
  statusCode : Nat
  message : Option String
  deriving DecidableEq

structure ErrorAnswer where
  message : String
  statusCode : Nat
  deriving DecidableEq

structure HealthAnswer where
  status : String
  dataKeyConfigured : Bool
  apiDocsLoaded : Bool
  deriving DecidableEq

def optionalField {α : Type} (name : String) (toValue : α → Value) :
    Option α → List (String × Value)
  | none => []
  | some a => [(name, toValue a)]

def shortValue (n : Nat) : Value := .number (.integer n)

namespace Account

def toValue (a : Account) : Value :=
  .record ([("accountType", .number a.accountType), ("apiKey", .text a.apiKey)] ++
    optionalField "apiPassword" .text a.apiPassword)

structure Draft where
  accountType : Option Json.Number := none
  apiKey : Option String := none
  apiPassword : Option (Option String) := none

def Draft.field (d : Draft) (name : String) (input : Bytes) : Except Stop (Draft × Bytes) := do
  if name = "accountType" then
    let (n, rest) ← Field.once name d.accountType.isSome Field.number input
    return ({ d with accountType := some n }, rest)
  else if name = "apiKey" then
    let (s, rest) ← Field.once name d.apiKey.isSome Field.text input
    return ({ d with apiKey := some s }, rest)
  else if name = "apiPassword" then
    let (s, rest) ← Field.once name d.apiPassword.isSome (Field.optional Field.text) input
    return ({ d with apiPassword := some s }, rest)
  else
    let rest ← Field.skipped input
    return (d, rest)

def Draft.finish (d : Draft) (input : Bytes) : Except Stop Account := do
  let accountType ← Field.required "accountType" d.accountType input
  let apiKey ← Field.required "apiKey" d.apiKey input
  return ⟨accountType, apiKey, d.apiPassword.getD none⟩

def readRecord (input : Bytes) : Except Stop (Account × Bytes) := do
  let (d, rest) ← Field.allMembers Draft.field {} input
  let a ← d.finish rest
  return (a, rest)

def readList (input : Bytes) : Except Stop (Account × Bytes) := do
  let type := "struct Account with 3 elements"
  let (accountType, rest) ← Field.item 0 type Field.number input
  let (apiKey, rest) ← Field.item 1 type Field.text rest
  let (apiPassword, rest) ← Field.lastItem 2 none (Field.optional Field.text) rest
  return (⟨accountType, apiKey, apiPassword⟩, rest)

def read : Bytes → Read Account := Field.structured "struct Account" readList readRecord

def write (a : Account) : Bytes := a.toValue.write

def parse (text : Bytes) : Except Json.Fault Account := Json.readWhole read text

end Account

namespace Document

def toValue (d : Document) : Value := .record (d.entries.map fun x => (x.1, x.2.toValue))

def field (d : Document) (id : String) (input : Bytes) : Except Stop (Document × Bytes) := do
  let (a, rest) ← Field.value Account.read input
  return (d.insert id a, rest)

def read : Bytes → Read Document :=
  Field.leading fun byte rest =>
    if byte = 0x7b then Field.enclosed Scan.recordEnd (Field.allMembers field empty rest)
    else .error (Field.unexpected "a map" byte rest)

def write (d : Document) : Bytes := d.toValue.write

def parse (text : Bytes) : Except Json.Fault Document := Json.readWhole read text

end Document

namespace AccountAnswer

def toValue (r : AccountAnswer) : Value :=
  .record (optionalField "account" Document.toValue r.account ++
    ("statusCode", shortValue r.statusCode) :: optionalField "message" .text r.message)

structure Draft where
  account : Option (Option Document) := none
  statusCode : Option Nat := none
  message : Option (Option String) := none

def Draft.field (d : Draft) (name : String) (input : Bytes) : Except Stop (Draft × Bytes) := do
  if name = "account" then
    let (a, rest) ← Field.once name d.account.isSome (Field.optional Document.read) input
    return ({ d with account := some a }, rest)
  else if name = "statusCode" then
    let (n, rest) ← Field.once name d.statusCode.isSome Field.short input
    return ({ d with statusCode := some n }, rest)
  else if name = "message" then
    let (s, rest) ← Field.once name d.message.isSome (Field.optional Field.text) input
    return ({ d with message := some s }, rest)
  else
    let rest ← Field.skipped input
    return (d, rest)

def readRecord (input : Bytes) : Except Stop (AccountAnswer × Bytes) := do
  let (d, rest) ← Field.allMembers Draft.field {} input
  let statusCode ← Field.required "statusCode" d.statusCode rest
  return (⟨d.account.getD none, statusCode, d.message.getD none⟩, rest)

def readList (input : Bytes) : Except Stop (AccountAnswer × Bytes) := do
  let (account, rest) ← Field.lastItem 0 none (Field.optional Document.read) input
  let (statusCode, rest) ←
    Field.item 1 "struct AccountResponse with 3 elements" Field.short rest
  let (message, rest) ← Field.lastItem 2 none (Field.optional Field.text) rest
  return (⟨account, statusCode, message⟩, rest)

def read : Bytes → Read AccountAnswer :=
  Field.structured "struct AccountResponse" readList readRecord

def write (r : AccountAnswer) : Bytes := r.toValue.write

def parse (text : Bytes) : Except Json.Fault AccountAnswer := Json.readWhole read text

end AccountAnswer

namespace ErrorAnswer

def toValue (r : ErrorAnswer) : Value :=
  .record [("message", .text r.message), ("statusCode", shortValue r.statusCode)]

structure Draft where
  message : Option String := none
  statusCode : Option Nat := none

def Draft.field (d : Draft) (name : String) (input : Bytes) : Except Stop (Draft × Bytes) := do
  if name = "message" then
    let (s, rest) ← Field.once name d.message.isSome Field.text input
    return ({ d with message := some s }, rest)
  else if name = "statusCode" then
    let (n, rest) ← Field.once name d.statusCode.isSome Field.short input
    return ({ d with statusCode := some n }, rest)
  else
    let rest ← Field.skipped input
    return (d, rest)

def readRecord (input : Bytes) : Except Stop (ErrorAnswer × Bytes) := do
  let (d, rest) ← Field.allMembers Draft.field {} input
  let message ← Field.required "message" d.message rest
  let statusCode ← Field.required "statusCode" d.statusCode rest
  return (⟨message, statusCode⟩, rest)

def readList (input : Bytes) : Except Stop (ErrorAnswer × Bytes) := do
  let type := "struct ErrorResponse with 2 elements"
  let (message, rest) ← Field.item 0 type Field.text input
  let (statusCode, rest) ← Field.item 1 type Field.short rest
  return (⟨message, statusCode⟩, rest)

def read : Bytes → Read ErrorAnswer :=
  Field.structured "struct ErrorResponse" readList readRecord

def write (r : ErrorAnswer) : Bytes := r.toValue.write

def parse (text : Bytes) : Except Json.Fault ErrorAnswer := Json.readWhole read text

end ErrorAnswer

namespace HealthAnswer

def toValue (r : HealthAnswer) : Value :=
  .record [("status", .text r.status), ("dataKeyConfigured", .boolean r.dataKeyConfigured),
    ("apiDocsLoaded", .boolean r.apiDocsLoaded)]

structure Draft where
  status : Option String := none
  dataKeyConfigured : Option Bool := none
  apiDocsLoaded : Option Bool := none

def Draft.field (d : Draft) (name : String) (input : Bytes) : Except Stop (Draft × Bytes) := do
  if name = "status" then
    let (s, rest) ← Field.once name d.status.isSome Field.text input
    return ({ d with status := some s }, rest)
  else if name = "dataKeyConfigured" then
    let (b, rest) ← Field.once name d.dataKeyConfigured.isSome Field.boolean input
    return ({ d with dataKeyConfigured := some b }, rest)
  else if name = "apiDocsLoaded" then
    let (b, rest) ← Field.once name d.apiDocsLoaded.isSome Field.boolean input
    return ({ d with apiDocsLoaded := some b }, rest)
  else
    let rest ← Field.skipped input
    return (d, rest)

def readRecord (input : Bytes) : Except Stop (HealthAnswer × Bytes) := do
  let (d, rest) ← Field.allMembers Draft.field {} input
  let status ← Field.required "status" d.status rest
  let dataKeyConfigured ← Field.required "dataKeyConfigured" d.dataKeyConfigured rest
  let apiDocsLoaded ← Field.required "apiDocsLoaded" d.apiDocsLoaded rest
  return (⟨status, dataKeyConfigured, apiDocsLoaded⟩, rest)

def readList (input : Bytes) : Except Stop (HealthAnswer × Bytes) := do
  let type := "struct HealthResponse with 3 elements"
  let (status, rest) ← Field.item 0 type Field.text input
  let (dataKeyConfigured, rest) ← Field.item 1 type Field.boolean rest
  let (apiDocsLoaded, rest) ← Field.item 2 type Field.boolean rest
  return (⟨status, dataKeyConfigured, apiDocsLoaded⟩, rest)

def read : Bytes → Read HealthAnswer :=
  Field.structured "struct HealthResponse" readList readRecord

def write (r : HealthAnswer) : Bytes := r.toValue.write

def parse (text : Bytes) : Except Json.Fault HealthAnswer := Json.readWhole read text

end HealthAnswer

end AccountVault
