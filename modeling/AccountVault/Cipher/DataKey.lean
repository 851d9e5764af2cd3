import AccountVault.Cipher.Block
import AccountVault.Text.Base64
import AccountVault.Text.Blank

/-!
# The data key

The key that passwords are encrypted with: thirty-two bytes, configured as canonical base64 with
blanks around it. A key is never shown.
-/

namespace AccountVault

structure DataKey where
  bytes : Bytes
  length_eq : bytes.length = 32

inductive KeyError where
  | notBase64
  | wrongLength (length : Nat)
  deriving DecidableEq

def KeyError.message : KeyError → String
  | notBase64 => "data key is not valid base64"
  | wrongLength length => "data key has invalid length: expected 32 bytes, got " ++ toString length

namespace DataKey

def ofBytes (bytes : Bytes) : Except KeyError DataKey :=
  if h : bytes.length = 32 then .ok ⟨bytes, h⟩ else .error (.wrongLength bytes.length)

def ofBase64 (text : String) : Except KeyError DataKey :=
  match Base64.decode? (Blank.trim text) with
  | some bytes => ofBytes bytes
  | none => .error .notBase64

def shown (_ : DataKey) : String := "DataKey([REDACTED])"

def roundKeys (key : DataKey) : Cipher.RoundKeys :=
  let halves := Cipher.blocks key.bytes
  Cipher.RoundKeys.ofKey (halves.getD 0 .zero) (halves.getD 1 .zero)

end DataKey

end AccountVault
