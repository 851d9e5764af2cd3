import AccountVault.Text.Utf8

/-!
# Hexadecimal text

A byte is written as two lower-case digits, high half first. Reading takes either case and refuses
an odd number of digits.
-/

namespace AccountVault.Hex

def digit (value : Nat) : Char :=
  if value < 10 then Char.ofNat (48 + value) else Char.ofNat (87 + value)

def digitValue? (c : Char) : Option Nat :=
  if '0' ≤ c ∧ c ≤ '9' then some (c.toNat - 48)
  else if 'a' ≤ c ∧ c ≤ 'f' then some (c.toNat - 87)
  else if 'A' ≤ c ∧ c ≤ 'F' then some (c.toNat - 55)
  else none

def pair (byte : UInt8) : List Char :=
  [digit (byte.toNat / 16), digit (byte.toNat % 16)]

def encode (bytes : Bytes) : String := String.ofList (bytes.flatMap pair)

def decodeDigits? : List Char → Option Bytes
  | [] => some []
  | [_] => none
  | high :: low :: rest => do
    let h ← digitValue? high
    let l ← digitValue? low
    let tail ← decodeDigits? rest
    return UInt8.ofNat (16 * h + l) :: tail

def decode? (text : String) : Option Bytes := decodeDigits? text.toList

theorem decodeDigits?_flatMap_pair (bytes : Bytes) :
    decodeDigits? (bytes.flatMap pair) = some bytes := by
  induction bytes with
  | nil => rfl
  | cons byte rest ih =>
    have back : digitValue? (digit (byte.toNat / 16)) = some (byte.toNat / 16) ∧
        digitValue? (digit (byte.toNat % 16)) = some (byte.toNat % 16) := by
      have reads : ∀ n : Fin 16, digitValue? (digit n) = some n.val := by decide
      have small := byte.toNat_lt
      exact ⟨reads ⟨byte.toNat / 16, by omega⟩, reads ⟨byte.toNat % 16, by omega⟩⟩
    have halves : UInt8.ofNat (16 * (byte.toNat / 16) + byte.toNat % 16) = byte := by
      rw [show 16 * (byte.toNat / 16) + byte.toNat % 16 = byte.toNat by omega, UInt8.ofNat_toNat]
    simp only [List.flatMap_cons, pair, List.cons_append, List.nil_append, decodeDigits?, back.1,
      back.2, ih]
    exact congrArg (fun b => some (b :: rest)) halves

@[simp] theorem decode?_encode (bytes : Bytes) : decode? (encode bytes) = some bytes := by
  simp [decode?, encode, decodeDigits?_flatMap_pair]

end AccountVault.Hex
