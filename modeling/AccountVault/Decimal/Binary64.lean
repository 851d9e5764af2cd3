/-!
# Binary floating point numbers

A number is a sign and a magnitude: the sixty-three bits below the sign, read as a natural number,
so that larger magnitudes are larger numbers and the one after the largest finite magnitude is
infinity. Every operation rounds the exact quotient of two natural numbers to the nearest magnitude,
a tie to the even one; nothing else rounds.
-/

namespace AccountVault

structure Binary64 where
  negative : Bool
  magnitude : Nat
  deriving DecidableEq

namespace Binary64

/-- The leading bit of a significand, two to the fifty-second: one step of the exponent. -/
def leadingBit : Nat := 0x10000000000000

def infinity : Nat := 0x7ff * leadingBit

/-- The integer `m` of a magnitude's value `m * 2 ^ q`. -/
def significand (magnitude : Nat) : Nat :=
  if magnitude < leadingBit then magnitude else leadingBit + magnitude % leadingBit

/-- The exponent `q` of a magnitude's value `m * 2 ^ q`. -/
def exponent (magnitude : Nat) : Int :=
  if magnitude < leadingBit then -1074 else (magnitude / leadingBit : Nat) - 1075

def powerRatio (base : Nat) (e : Int) : Nat × Nat :=
  if 0 ≤ e then (Nat.pow base e.toNat, 1) else (1, Nat.pow base (-e).toNat)

def ratio (magnitude : Nat) : Nat × Nat :=
  let power := powerRatio 2 (exponent magnitude)
  (significand magnitude * power.1, power.2)

def binaryLog (num den : Nat) : Int :=
  let guess : Int := (num.log2 : Int) - den.log2
  let power := powerRatio 2 guess
  if power.1 * den ≤ num * power.2 then guess else guess - 1

def roundHalfEven (num den : Nat) : Nat :=
  let floor := num / den
  let twice := 2 * (num % den)
  if den < twice ∨ (twice = den ∧ floor % 2 = 1) then floor + 1 else floor

def nearest (num den : Nat) : Nat :=
  if num = 0 then 0
  else
    let unit := max (binaryLog num den - 52) (-1074)
    let power := powerRatio 2 unit
    min ((unit + 1074).toNat * leadingBit + roundHalfEven (num * power.2) (den * power.1)) infinity

def times (left right : Nat) : Nat :=
  let a := ratio left
  let b := ratio right
  nearest (a.1 * b.1) (a.2 * b.2)

def dividedBy (left right : Nat) : Nat :=
  let a := ratio left
  let b := ratio right
  nearest (a.1 * b.2) (a.2 * b.1)

def powerOfTen (e : Nat) : Nat := nearest (Nat.pow 10 e) 1

/-- Scaling a magnitude by a power of ten, one multiplication or division where the power itself is
finite. An exponent below that range divides by the largest power first; two such divisions reach
zero, so `steps` never runs out. -/
def scale? : (steps : Nat) → (magnitude : Nat) → (e : Int) → Option Nat
  | 0, magnitude, _ => some magnitude
  | steps + 1, magnitude, e =>
    if e.natAbs ≤ 308 then
      if 0 ≤ e then
        let product := times magnitude (powerOfTen e.toNat)
        if product = infinity then none else some product
      else some (dividedBy magnitude (powerOfTen e.natAbs))
    else if magnitude = 0 then some 0
    else if 0 ≤ e then none
    else scale? steps (dividedBy magnitude (powerOfTen 308)) (e + 308)

/-- The magnitude of `digits * 10 ^ e`: the digits are rounded first and then scaled, so the result
may differ from the nearest magnitude in its last bit. None where it would be infinite. -/
def ofDecimal? (digits : Nat) (e : Int) : Option Nat := scale? 4 (nearest digits 1) e

end Binary64

end AccountVault
