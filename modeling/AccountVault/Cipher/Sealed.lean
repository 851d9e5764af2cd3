import AccountVault.Cipher.DataKey
import AccountVault.Text.Hex

/-!
# Sealed values

A value is sealed by chaining blocks from an initialisation vector of sixteen bytes, after padding
it to whole blocks by as many bytes as are missing, each holding their number; a value of whole
blocks gains one more. A sealed value is written as the vector and the ciphertext in hexadecimal
with a colon between them. Unsealing and reading the written form are the opposite directions.
-/

namespace AccountVault

inductive IvError where
  | kms (text : String)
  | empty
  | mismatch (requested actual : Nat)
  | invalidLength (length : Nat)
  deriving DecidableEq

def IvError.message : IvError → String
  | kms text => "KMS GenerateRandom failed: " ++ text
  | empty => "KMS GenerateRandom response contained no plaintext"
  | mismatch requested actual =>
    "requested " ++ toString requested ++ " random bytes, got " ++ toString actual
  | invalidLength length => "cannot request " ++ toString length ++ " random bytes"

inductive SealError where
  | keyNotConfigured
  | random (error : IvError)
  | ivLength (length : Nat)
  deriving DecidableEq

def SealError.message : SealError → String
  | keyNotConfigured => "DATA_KEY is not configured"
  | random error => "failed to generate IV: " ++ error.message
  | ivLength length => "invalid IV length: expected 16 bytes, got " ++ toString length

namespace Cipher

def ivLength : Nat := 16

def pad (bytes : Bytes) : Bytes :=
  let missing := 16 - bytes.length % 16
  bytes ++ List.replicate missing (UInt8.ofNat missing)

def unpad? (bytes : Bytes) : Option Bytes :=
  match bytes.getLast? with
  | none => none
  | some byte =>
    let count := byte.toNat
    let kept := bytes.take (bytes.length - count)
    if 1 ≤ count ∧ count ≤ 16 ∧ count ≤ bytes.length ∧
        bytes.drop (bytes.length - count) = List.replicate count byte then some kept
    else none

def chain (keys : RoundKeys) : (previous : Block) → List Block → List Block
  | _, [] => []
  | previous, block :: rest =>
    let sealed := encryptBlock keys (block.add previous)
    sealed :: chain keys sealed rest

def unchain (keys : RoundKeys) : (previous : Block) → List Block → List Block
  | _, [] => []
  | previous, sealed :: rest => (decryptBlock keys sealed).add previous :: unchain keys sealed rest

def joinBlocks (list : List Block) : Bytes := list.flatMap Block.toBytes

end Cipher

structure Sealed where
  iv : Bytes
  ciphertext : Bytes
  deriving DecidableEq

namespace Sealed

def encrypt (key : DataKey) (iv plaintext : Bytes) : Except SealError Sealed :=
  match Cipher.blocks iv with
  | [vector] =>
    if iv.length = Cipher.ivLength then
      .ok ⟨iv, Cipher.joinBlocks (Cipher.chain key.roundKeys vector
        (Cipher.blocks (Cipher.pad plaintext)))⟩
    else .error (.ivLength iv.length)
  | _ => .error (.ivLength iv.length)

def decrypt? (key : DataKey) (s : Sealed) : Option Bytes :=
  match Cipher.blocks s.iv with
  | [vector] =>
    if s.ciphertext.length % 16 = 0 then
      Cipher.unpad? (Cipher.joinBlocks (Cipher.unchain key.roundKeys vector
        (Cipher.blocks s.ciphertext)))
    else none
  | _ => none

def text (s : Sealed) : String := Hex.encode s.iv ++ ":" ++ Hex.encode s.ciphertext

def parse? (text : String) : Option Sealed := do
  let iv ← Hex.decodeDigits? (text.toList.takeWhile (· ≠ ':'))
  let ciphertext ← match text.toList.dropWhile (· ≠ ':') with
    | _ :: rest => Hex.decodeDigits? rest
    | [] => none
  if iv.length = Cipher.ivLength ∧ ciphertext ≠ [] then some ⟨iv, ciphertext⟩ else none

end Sealed

end AccountVault
