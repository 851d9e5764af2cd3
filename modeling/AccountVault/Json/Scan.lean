import AccountVault.Json.Fault

/-!
# Lexemes of a JSON text

Each reader takes the unread bytes and gives what it read together with the bytes after it, or a
fault. Texts are read by a small machine that looks at one byte at a time and collects bytes; the
collected bytes must be UTF-8 when the closing quote is reached. Numbers are split into digits,
fraction and exponent before anything is computed from them.
-/

namespace AccountVault.Json

abbrev Read (α : Type) := Except Fault (α × Bytes)

namespace Scan

def isBlank (byte : UInt8) : Bool := byte = 0x20 || byte = 0x0a || byte = 0x09 || byte = 0x0d

def skipBlank (input : Bytes) : Bytes := input.dropWhile isBlank

def isDigit (byte : UInt8) : Bool := 0x30 ≤ byte && byte ≤ 0x39

def digitOf (byte : UInt8) : Nat := byte.toNat - 0x30

def word : (letters : Bytes) → Bytes → Except Fault Bytes
  | [], input => .ok input
  | _ :: _, [] => .error (.before .endInValue [])
  | letter :: letters, byte :: rest =>
    if byte = letter then word letters rest else .error (.before .wordExpected rest)

def constant {α : Type} (letters : Bytes) (a : α) (input : Bytes) : Read α :=
  match word letters input with
  | .ok rest => .ok (a, rest)
  | .error fault => .error fault

/-- What the machine is in the middle of. `hex` has read `count` of four digits; `value` is missing
once one of them was no digit, and `lead` is the leading surrogate read before. -/
inductive TextState where
  | plain
  | escape
  | hex (lead : Option Nat) (count : Nat) (value : Option Nat)
  | pairEscape (lead : Nat)
  | pairHex (lead : Nat)

def hexValue? (byte : UInt8) : Option Nat :=
  if isDigit byte then some (digitOf byte)
  else if 0x61 ≤ byte && byte ≤ 0x66 then some (byte.toNat - 0x57)
  else if 0x41 ≤ byte && byte ≤ 0x46 then some (byte.toNat - 0x37)
  else none

def simpleEscape? (byte : UInt8) : Option UInt8 :=
  if byte = 0x22 || byte = 0x5c || byte = 0x2f then some byte
  else if byte = 0x62 then some 0x08
  else if byte = 0x66 then some 0x0c
  else if byte = 0x6e then some 0x0a
  else if byte = 0x72 then some 0x0d
  else if byte = 0x74 then some 0x09
  else none

def isLead (n : Nat) : Bool := 0xd800 ≤ n && n ≤ 0xdbff

def isTrail (n : Nat) : Bool := 0xdc00 ≤ n && n ≤ 0xdfff

def codePoint (n : Nat) : Bytes := String.utf8EncodeChar (Char.ofNat n)

def hexMeaning (lead : Option Nat) (value : Option Nat) : Except Cause (Bytes ⊕ Nat) :=
  match value with
  | none => .error .badEscape
  | some n =>
    match lead with
    | some high =>
      if isTrail n then .ok (.inl (codePoint (0x10000 + (high - 0xd800) * 0x400 + (n - 0xdc00))))
      else .error .loneSurrogate
    | none =>
      if isTrail n then .error .loneSurrogate
      else if isLead n then .ok (.inr n)
      else .ok (.inl (codePoint n))

def textBytes : (state : TextState) → (seen : Bytes) → Bytes → Read Bytes
  | _, _, [] => .error (.before .endInText [])
  | .plain, seen, byte :: rest =>
    if byte = 0x22 then .ok (seen.reverse, rest)
    else if byte = 0x5c then textBytes .escape seen rest
    else if byte < 0x20 then .error (.before .controlInText rest)
    else textBytes .plain (byte :: seen) rest
  | .escape, seen, byte :: rest =>
    if byte = 0x75 then textBytes (.hex none 0 (some 0)) seen rest
    else
      match simpleEscape? byte with
      | some plain => textBytes .plain (plain :: seen) rest
      | none => .error (.before .badEscape rest)
  | .hex lead count value, seen, byte :: rest =>
    let value' := value.bind fun v => (hexValue? byte).map (16 * v + ·)
    if count < 3 then textBytes (.hex lead (count + 1) value') seen rest
    else
      match hexMeaning lead value' with
      | .ok (.inl bytes) => textBytes .plain (bytes.reverse ++ seen) rest
      | .ok (.inr high) => textBytes (.pairEscape high) seen rest
      | .error cause => .error (.before cause rest)
  | .pairEscape high, seen, byte :: rest =>
    if byte = 0x5c then textBytes (.pairHex high) seen rest
    else .error (.before .cutHexEscape rest)
  | .pairHex high, seen, byte :: rest =>
    if byte = 0x75 then textBytes (.hex (some high) 0 (some 0)) seen rest
    else .error (.before .cutHexEscape rest)

/-- The text after an opening quote. Escapes are ASCII, so the first byte that is not UTF-8 can be
looked for in the text as it is written. -/
def text (input : Bytes) : Read String :=
  match textBytes .plain [] input with
  | .error fault => .error fault
  | .ok (bytes, rest) =>
    match Utf8.decode? bytes with
    | some s => .ok (s, rest)
    | none => .error (.looking .badCodePoint (Utf8.afterValid input))

/-- Takes digits while the number so far stays below two to the sixty-fourth. Gives the number, how
many digits it took and the digits left. -/
def accumulate : (value taken : Nat) → (digits : Bytes) → Nat × Nat × Bytes
  | value, taken, [] => (value, taken, [])
  | value, taken, digit :: digits =>
    let next := 10 * value + digitOf digit
    if next < Number.unsignedBound then accumulate next (taken + 1) digits
    else (value, taken, digit :: digits)

def real (negative : Bool) (digits : Nat) (e : Int) (rest : Bytes) : Read Number :=
  match Binary64.ofDecimal? digits e with
  | some magnitude => .ok (.real ⟨negative, magnitude⟩, rest)
  | none => .error (.before .numberTooLarge rest)

/-- The digits of an exponent: its value and the bytes after it, or else the bytes after the digit
with which it leaves thirty-one bits. -/
def exponentDigits : (value : Nat) → Bytes → (Nat × Bytes) ⊕ Bytes
  | value, [] => .inl (value, [])
  | value, byte :: rest =>
    if isDigit byte then
      let next := 10 * value + digitOf byte
      if next < 0x80000000 then exponentDigits next rest else .inr rest
    else .inl (value, byte :: rest)

def exponent (negative : Bool) (digits : Nat) (e : Int) (input : Bytes) : Read Number :=
  let (down, unsigned) :=
    match input with
    | byte :: rest =>
      if byte = 0x2b then (false, rest) else if byte = 0x2d then (true, rest) else (false, input)
    | [] => (false, [])
  match unsigned with
  | [] => .error (.before .endInValue [])
  | byte :: rest =>
    if isDigit byte then
      match exponentDigits (digitOf byte) rest with
      | .inr left =>
        if digits ≠ 0 ∧ !down then .error (.before .numberTooLarge left)
        else .ok (.real ⟨negative, 0⟩, left.dropWhile isDigit)
      | .inl (value, left) => real negative digits (if down then e - value else e + value) left
    else .error (.before .badNumber rest)

def tail (negative : Bool) (digits : Nat) (e : Int) (input : Bytes) : Read Number :=
  match input with
  | byte :: rest =>
    if byte = 0x65 || byte = 0x45 then exponent negative digits e rest
    else real negative digits e input
  | [] => real negative digits e []

def fraction (negative : Bool) (digits : Nat) (e : Int) (input : Bytes) : Read Number :=
  let places := input.takeWhile isDigit
  let rest := input.dropWhile isDigit
  if places.isEmpty then
    match rest with
    | [] => .error (.looking .endInValue [])
    | _ :: _ => .error (.looking .badNumber rest)
  else
    let (value, taken, _) := accumulate digits 0 places
    tail negative value (e - taken) rest

/-- A number without fraction and exponent. A negative one is an integer down to minus two to the
sixty-third, zero excepted. -/
def whole (negative : Bool) (value : Nat) : Number :=
  if negative then
    if value = 0 ∨ Number.signedBound < value then .real ⟨true, Binary64.nearest value 1⟩
    else .integer (-value)
  else .integer value

/-- The part after the digits before the point. The digits in `dropped` did not fit and only raise
the exponent. -/
def afterDigits (negative : Bool) (value : Nat) (dropped : Bytes) (input : Bytes) : Read Number :=
  match input with
  | byte :: rest =>
    if byte = 0x2e then fraction negative value dropped.length rest
    else if byte = 0x65 || byte = 0x45 then exponent negative value dropped.length rest
    else if dropped.isEmpty then .ok (whole negative value, input)
    else real negative value dropped.length input
  | [] =>
    if dropped.isEmpty then .ok (whole negative value, [])
    else real negative value dropped.length []

def number (negative : Bool) (input : Bytes) : Read Number :=
  match input with
  | [] => .error (.before .endInValue [])
  | first :: rest =>
    if first = 0x30 then
      match rest with
      | second :: _ =>
        if isDigit second then .error (.looking .badNumber rest) else afterDigits negative 0 [] rest
      | [] => afterDigits negative 0 [] []
    else if isDigit first then
      let (value, _, dropped) := accumulate 0 0 (first :: rest.takeWhile isDigit)
      afterDigits negative value dropped (rest.dropWhile isDigit)
    else .error (.before .badNumber rest)

def nextElement (first : Bool) (input : Bytes) : Read Bool :=
  match skipBlank input with
  | [] => .error (.looking .endInList [])
  | byte :: rest =>
    if byte = 0x5d then .ok (false, byte :: rest)
    else if first then .ok (true, byte :: rest)
    else if byte = 0x2c then
      match skipBlank rest with
      | [] => .error (.looking .endInValue [])
      | next :: after =>
        if next = 0x5d then .error (.looking .trailingComma (next :: after))
        else .ok (true, next :: after)
    else .error (.looking .listCommaExpected (byte :: rest))

def nextKey (first : Bool) (input : Bytes) : Read Bool :=
  match skipBlank input with
  | [] => .error (.looking .endInRecord [])
  | byte :: rest =>
    if byte = 0x7d then .ok (false, byte :: rest)
    else if first then
      if byte = 0x22 then .ok (true, rest) else .error (.looking .keyNotText (byte :: rest))
    else if byte = 0x2c then
      match skipBlank rest with
      | [] => .error (.looking .endInValue [])
      | next :: after =>
        if next = 0x22 then .ok (true, after)
        else if next = 0x7d then .error (.looking .trailingComma (next :: after))
        else .error (.looking .keyNotText (next :: after))
    else .error (.looking .recordCommaExpected (byte :: rest))

def colon (input : Bytes) : Except Fault Bytes :=
  match skipBlank input with
  | [] => .error (.looking .endInRecord [])
  | byte :: rest =>
    if byte = 0x3a then .ok rest else .error (.looking .colonExpected (byte :: rest))

def listEnd (input : Bytes) : Option Fault × Bytes :=
  match skipBlank input with
  | [] => (some (.looking .endInList []), [])
  | byte :: rest =>
    if byte = 0x5d then (none, rest)
    else if byte = 0x2c then
      match skipBlank rest with
      | next :: after =>
        if next = 0x5d then (some (.looking .trailingComma (next :: after)), next :: after)
        else (some (.looking .trailingText (next :: after)), next :: after)
      | [] => (some (.looking .trailingText []), [])
    else (some (.looking .trailingText (byte :: rest)), byte :: rest)

def recordEnd (input : Bytes) : Option Fault × Bytes :=
  match skipBlank input with
  | [] => (some (.looking .endInRecord []), [])
  | byte :: rest =>
    if byte = 0x7d then (none, rest)
    else if byte = 0x2c then (some (.looking .trailingComma (byte :: rest)), byte :: rest)
    else (some (.looking .trailingText (byte :: rest)), byte :: rest)

end Scan

end AccountVault.Json
