import AccountVault.Cipher.Sealed

/-!
# Failures

A failure names its cause. What a caller is told is a kind, which fixes the status of an HTTP
answer, and a message; both are decided here and nowhere else.
-/

namespace AccountVault

inductive Failure.Kind where
  | badRequest
  | notAllowed
  | notFound
  | internal
  deriving DecidableEq

def Failure.Kind.status : Failure.Kind → Nat
  | badRequest => 400
  | notAllowed => 403
  | notFound => 404
  | internal => 500

inductive Failure where
  | invalidInput
  | missingDocument
  | blankDocument
  | malformedDocument (reason : String)
  | storeFailed (reason : String)
  | concurrentWrite
  | unconfirmedWrite
  | idTaken (id : String)
  | unknownId (id : String)
  | noAccounts
  | sealing (error : SealError)
  | docsUnavailable
  | unknownFile
  deriving DecidableEq

namespace Failure

def kind : Failure → Kind
  | invalidInput => .badRequest
  | missingDocument => .notFound
  | blankDocument => .notFound
  | malformedDocument _ => .internal
  | storeFailed _ => .internal
  | concurrentWrite => .notAllowed
  | unconfirmedWrite => .badRequest
  | idTaken _ => .notAllowed
  | unknownId _ => .notFound
  | noAccounts => .notFound
  | sealing .keyNotConfigured => .notAllowed
  | sealing (.random _) => .internal
  | sealing (.ivLength _) => .internal
  | docsUnavailable => .notFound
  | unknownFile => .notFound

def message : Failure → String
  | invalidInput => "Invalid request type or schema"
  | missingDocument => "Bucket or file doesn't exist"
  | blankDocument => "Data not found or failed to download from AWS S3"
  | malformedDocument reason => "accounts document is malformed: " ++ reason
  | storeFailed reason => reason
  | concurrentWrite => "Accounts document was modified concurrently; retry the request"
  | unconfirmedWrite => "Failed to upload data to AWS S3"
  | idTaken id => "AccountId : " ++ id ++ " already exist."
  | unknownId id => "No Data found for accountId : " ++ id
  | noAccounts => "No content in the file."
  | sealing error => error.message
  | docsUnavailable => "API documentation is not available"
  | unknownFile => "Invalid Request"

end Failure

end AccountVault
