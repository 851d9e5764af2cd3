import AccountVault.Json.Value

/-!
# Written JSON

A value is written without blanks, the members of a record in their order. In a text the quote, the
backslash and the control characters are escaped, five of them by a letter and the others by four
lower-case hexadecimal digits; every other character is written as its UTF-8 bytes.
-/

namespace AccountVault.Json

def hexDigit (value : Nat) : UInt8 :=
  UInt8.ofNat (if value < 10 then 0x30 + value else 0x57 + value)

def escapeChar (c : Char) : Bytes :=
  if c = '"' then [0x5c, 0x22]
  else if c = '\\' then [0x5c, 0x5c]
  else if c.toNat = 0x08 then [0x5c, 0x62]
  else if c.toNat = 0x0c then [0x5c, 0x66]
  else if c = '\n' then [0x5c, 0x6e]
  else if c = '\r' then [0x5c, 0x72]
  else if c = '\t' then [0x5c, 0x74]
  else if c.toNat < 0x20 then
    [0x5c, 0x75, 0x30, 0x30, hexDigit (c.toNat / 16), hexDigit (c.toNat % 16)]
  else String.utf8EncodeChar c

def writeText (s : String) : Bytes := 0x22 :: (s.toList.flatMap escapeChar ++ [0x22])

def writeNumber (n : Number) : Bytes := Utf8.encode n.text

namespace Value

mutual

def write : Value → Bytes
  | null => [0x6e, 0x75, 0x6c, 0x6c]
  | boolean true => [0x74, 0x72, 0x75, 0x65]
  | boolean false => [0x66, 0x61, 0x6c, 0x73, 0x65]
  | number n => writeNumber n
  | text s => writeText s
  | list items => 0x5b :: (writeItems items ++ [0x5d])
  | record members => 0x7b :: (writeMembers members ++ [0x7d])

def writeItems : List Value → Bytes
  | [] => []
  | [v] => write v
  | v :: w :: rest => write v ++ 0x2c :: writeItems (w :: rest)

def writeMembers : List (String × Value) → Bytes
  | [] => []
  | [(name, v)] => writeText name ++ 0x3a :: write v
  | (name, v) :: m :: rest =>
    writeText name ++ 0x3a :: (write v ++ 0x2c :: writeMembers (m :: rest))

end

end Value

end AccountVault.Json
