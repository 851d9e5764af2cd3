import AccountVault.Text.Utf8

/-!
# Canonical base64

The standard alphabet with required padding. Reading accepts only the one text that writing
produces: groups of four digits, padding in the last group alone, and no bit set that the padding
leaves unused.
-/

namespace AccountVault.Base64

def digit (value : Nat) : Char :=
  if value < 26 then Char.ofNat (65 + value)
  else if value < 52 then Char.ofNat (71 + value)
  else if value < 62 then Char.ofNat (value - 4)
  else if value = 62 then '+'
  else '/'

def digitValue? (c : Char) : Option Nat :=
  if 'A' ≤ c ∧ c ≤ 'Z' then some (c.toNat - 65)
  else if 'a' ≤ c ∧ c ≤ 'z' then some (c.toNat - 71)
  else if '0' ≤ c ∧ c ≤ '9' then some (c.toNat + 4)
  else if c = '+' then some 62
  else if c = '/' then some 63
  else none

def encodeChars : Bytes → List Char
  | [] => []
  | [a] => [digit (a.toNat / 4), digit (a.toNat % 4 * 16), '=', '=']
  | [a, b] =>
    [digit (a.toNat / 4), digit (a.toNat % 4 * 16 + b.toNat / 16), digit (b.toNat % 16 * 4), '=']
  | a :: b :: c :: rest =>
    digit (a.toNat / 4) :: digit (a.toNat % 4 * 16 + b.toNat / 16) ::
      digit (b.toNat % 16 * 4 + c.toNat / 64) :: digit (c.toNat % 64) :: encodeChars rest

def encode (bytes : Bytes) : String := String.ofList (encodeChars bytes)

def lastOne? (p q : Char) : Option Bytes := do
  let x ← digitValue? p
  let y ← digitValue? q
  if y % 16 = 0 then some [UInt8.ofNat (x * 4 + y / 16)] else none

def lastTwo? (p q r : Char) : Option Bytes := do
  let x ← digitValue? p
  let y ← digitValue? q
  let z ← digitValue? r
  if z % 4 = 0 then some [UInt8.ofNat (x * 4 + y / 16), UInt8.ofNat (y % 16 * 16 + z / 4)] else none

def group? (p q r s : Char) : Option Bytes := do
  let x ← digitValue? p
  let y ← digitValue? q
  let z ← digitValue? r
  let w ← digitValue? s
  return [UInt8.ofNat (x * 4 + y / 16), UInt8.ofNat (y % 16 * 16 + z / 4),
    UInt8.ofNat (z % 4 * 64 + w)]

def decodeChars? : List Char → Option Bytes
  | [] => some []
  | [p, q, '=', '='] => lastOne? p q
  | [p, q, r, '='] => lastTwo? p q r
  | p :: q :: r :: s :: rest => do
    let front ← group? p q r s
    let back ← decodeChars? rest
    return front ++ back
  | _ => none

def decode? (text : String) : Option Bytes := decodeChars? text.toList

end AccountVault.Base64
