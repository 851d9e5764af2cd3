import AccountVault.Decimal.Shortest

/-!
# JSON numbers

A number of a JSON text is an integer, if it is written without fraction and exponent and fits
sixty-four bits (signed when negative), and a binary floating point number otherwise. Minus zero is
a floating point number. Integers are written in decimal. Floating point numbers are written with
their shortest digits: positionally, with a fraction in every case, from `0.00001` up to but not
including ten to the sixteenth, and with an exponent of explicit sign elsewhere.
-/

namespace AccountVault.Json

inductive Number where
  | integer (value : Int)
  | real (value : Binary64)
  deriving DecidableEq

structure Layout where
  fewestPlaces : Int
  mostPlaces : Int

namespace Number

/-- Positional from five zeros after the point up to sixteen places before it. -/
def layout : Layout := ⟨-4, 16⟩

def zeros (count : Int) : List Char := List.replicate count.toNat '0'

def exponentChars (e : Int) : List Char :=
  'e' :: (if e < 0 then '-' else '+') :: Nat.toDigits 10 e.natAbs

def decimalChars (l : Layout) (d : Decimal) : List Char :=
  let digits := Nat.toDigits 10 d.coefficient
  let places := (digits.length : Int) + d.exponent
  if l.fewestPlaces ≤ places ∧ places ≤ l.mostPlaces then
    if places ≤ 0 then '0' :: '.' :: (zeros (-places) ++ digits)
    else if 0 ≤ d.exponent then digits ++ zeros d.exponent ++ ['.', '0']
    else digits.take places.toNat ++ '.' :: digits.drop places.toNat
  else
    match digits with
    | [single] => single :: exponentChars (places - 1)
    | first :: rest => first :: '.' :: (rest ++ exponentChars (places - 1))
    | [] => []

def realChars (x : Binary64) : List Char :=
  let unsigned := if x.magnitude = 0 then ['0', '.', '0']
    else decimalChars layout (Decimal.shortest x.magnitude)
  if x.negative then '-' :: unsigned else unsigned

def integerChars (i : Int) : List Char :=
  if i < 0 then '-' :: Nat.toDigits 10 i.natAbs else Nat.toDigits 10 i.natAbs

def chars : Number → List Char
  | integer i => integerChars i
  | real x => realChars x

def text (n : Number) : String := String.ofList n.chars

def unsignedBound : Nat := 0x10000000000000000

def signedBound : Nat := 0x8000000000000000

def InRange : Number → Prop
  | integer i => -signedBound ≤ i ∧ i < unsignedBound
  | real _ => False

end Number

end AccountVault.Json
