import AccountVault.Text.Utf8

/-!
# Blank characters

A character is blank when it has the Unicode property White_Space: twenty-five code points, listed
here as ranges. Trimming removes blank characters at both ends. A body is blank when all of its
bytes are ASCII space, tab, line feed, form feed or carriage return; the vertical tab is not among
them.
-/

namespace AccountVault.Blank

def ranges : List (Nat × Nat) :=
  [(0x09, 0x0d), (0x20, 0x20), (0x85, 0x85), (0xa0, 0xa0), (0x1680, 0x1680), (0x2000, 0x200a),
    (0x2028, 0x2029), (0x202f, 0x202f), (0x205f, 0x205f), (0x3000, 0x3000)]

def isBlank (c : Char) : Bool := ranges.any fun (low, high) => low ≤ c.toNat && c.toNat ≤ high

def trimChars (text : List Char) : List Char :=
  ((text.dropWhile isBlank).reverse.dropWhile isBlank).reverse

def trim (text : String) : String := String.ofList (trimChars text.toList)

def filled? (text : String) : Option String :=
  let rest := trim text
  if rest.isEmpty then none else some rest

def isBlankByte (byte : UInt8) : Bool :=
  byte = 0x20 || byte = 0x09 || byte = 0x0a || byte = 0x0c || byte = 0x0d

def isBlankBody (body : Bytes) : Bool := body.all isBlankByte

end AccountVault.Blank
