import AccountVault.Text.Escaped

/-!
# Quoted text

The form in which a message or a record shows a string: between double quotes, with the quote, the
backslash and the usual controls written by a backslash and one letter, and every other character
that is spelled out written as its code point between braces.
-/

namespace AccountVault.Quoted

def quoteChar (c : Char) : List Char :=
  if c = '\x00' then ['\\', '0']
  else if c = '\t' then ['\\', 't']
  else if c = '\r' then ['\\', 'r']
  else if c = '\n' then ['\\', 'n']
  else if c = '\\' then ['\\', '\\']
  else if c = '"' then ['\\', '"']
  else if isSpelledOut c then
    '\\' :: 'u' :: Char.ofNat 0x7b :: (Nat.toDigits 16 c.toNat ++ [Char.ofNat 0x7d])
  else [c]

def quote (text : String) : String :=
  String.ofList ('"' :: (text.toList.flatMap quoteChar ++ ['"']))

def quoteOption : Option String → String
  | none => "None"
  | some text => "Some(" ++ quote text ++ ")"

end AccountVault.Quoted
