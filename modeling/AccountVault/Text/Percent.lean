import AccountVault.Text.Hex

/-!
# Percent-encoded text

Reading replaces a percent sign and two hexadecimal digits by the byte they denote and keeps every
other byte, a percent sign without two digits included. Writing comes in two forms: every byte
escaped, and every byte escaped that is not in a given set of plain bytes.
-/

namespace AccountVault.Percent

def digitValue? (byte : UInt8) : Option Nat := Hex.digitValue? (Char.ofNat byte.toNat)

def escape (byte : UInt8) : Bytes :=
  let upper (value : Nat) : UInt8 := UInt8.ofNat (if value < 10 then 48 + value else 55 + value)
  [0x25, upper (byte.toNat / 16), upper (byte.toNat % 16)]

def encodeAll (bytes : Bytes) : Bytes := bytes.flatMap escape

def encode (plain : UInt8 → Bool) (bytes : Bytes) : Bytes :=
  bytes.flatMap fun byte => if plain byte then [byte] else escape byte

def byteOf? (high low : UInt8) : Option UInt8 := do
  let h ← digitValue? high
  let l ← digitValue? low
  return UInt8.ofNat (16 * h + l)

def decode : Bytes → Bytes
  | [] => []
  | [a] => [a]
  | [a, b] => [a, b]
  | a :: b :: c :: rest =>
    if a = 0x25 then
      match byteOf? b c with
      | some byte => byte :: decode rest
      | none => a :: decode (b :: c :: rest)
    else a :: decode (b :: c :: rest)

def decodeText? (segment : String) : Option String := Utf8.decode? (decode (Utf8.encode segment))

def encodeText (text : String) : String :=
  String.ofList ((encodeAll (Utf8.encode text)).map fun byte => Char.ofNat byte.toNat)

theorem byteOf?_escape (byte : UInt8) :
    ∃ high low, escape byte = [0x25, high, low] ∧ byteOf? high low = some byte := by
  refine ⟨_, _, rfl, ?_⟩
  have reads : ∀ n : Fin 16, digitValue? (UInt8.ofNat (if n.val < 10 then 48 + n else 55 + n))
      = some n.val := by decide
  have small := byte.toNat_lt
  have high := reads ⟨byte.toNat / 16, by omega⟩
  have low := reads ⟨byte.toNat % 16, by omega⟩
  have halves : UInt8.ofNat (16 * (byte.toNat / 16) + byte.toNat % 16) = byte := by
    rw [show 16 * (byte.toNat / 16) + byte.toNat % 16 = byte.toNat by omega, UInt8.ofNat_toNat]
  simp only at high low
  simp only [byteOf?, high, low]
  exact congrArg some halves

end AccountVault.Percent
