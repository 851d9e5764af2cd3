import AccountVault.Decimal.Binary64

/-!
# Shortest decimals

The decimal written for a magnitude is the one with the fewest digits that still rounds to it, and
of those the nearest to it. The reals that round to a magnitude form an interval, closed when its
significand is even; for one digit, two digits and so on, the two neighbours of the value on that
decimal grid are tried, and seventeen digits always suffice.
-/

namespace AccountVault

structure Decimal where
  coefficient : Nat
  exponent : Int
  deriving DecidableEq

namespace Decimal

/-- The reals that round to a magnitude: from `low` to `high` quarters of its last place, where
`num / den` is one quarter. -/
structure Interval where
  low : Nat
  value : Nat
  high : Nat
  closed : Bool
  num : Nat
  den : Nat

def Interval.ofMagnitude (magnitude : Nat) : Interval :=
  let m := Binary64.significand magnitude
  let quarter := Binary64.powerRatio 2 (Binary64.exponent magnitude - 2)
  let below := if m = Binary64.leadingBit ∧ 2 * Binary64.leadingBit ≤ magnitude then 1 else 2
  ⟨4 * m - below, 4 * m, 4 * m + 2, m % 2 = 0, quarter.1, quarter.2⟩

def Interval.contains (i : Interval) (d : Decimal) : Bool :=
  let power := Binary64.powerRatio 10 d.exponent
  let point := d.coefficient * power.1 * i.den
  let low := i.low * i.num * power.2
  let high := i.high * i.num * power.2
  if i.closed then low ≤ point && point ≤ high else low < point && point < high

def Interval.distance (i : Interval) (d : Decimal) : Nat :=
  let power := Binary64.powerRatio 10 d.exponent
  let point := d.coefficient * power.1 * i.den
  let value := i.value * i.num * power.2
  max point value - min point value

def raise : (steps : Nat) → (num den : Nat) → (guess : Int) → Int
  | 0, _, _, guess => guess
  | steps + 1, num, den, guess =>
    let power := Binary64.powerRatio 10 (guess + 1)
    if power.1 * den ≤ num * power.2 then raise steps num den (guess + 1) else guess

def decimalLog (num den : Nat) : Int :=
  raise 4 num den (Binary64.binaryLog num den * 30103 / 100000 - 2)

def Interval.onGrid? (i : Interval) (top : Int) (digits : Nat) : Option Decimal :=
  let e := top + 1 - digits
  let power := Binary64.powerRatio 10 e
  let floor := i.value * i.num * power.2 / (i.den * power.1)
  let below : Decimal := ⟨floor, e⟩
  let above : Decimal := ⟨floor + 1, e⟩
  match i.contains below, i.contains above with
  | true, true =>
    if i.distance above < i.distance below ∨
        (i.distance above = i.distance below ∧ floor % 2 = 1) then some above else some below
  | true, false => some below
  | false, true => some above
  | false, false => none

def dropZeros : (steps : Nat) → Decimal → Decimal
  | 0, d => d
  | steps + 1, d =>
    if d.coefficient % 10 = 0 then dropZeros steps ⟨d.coefficient / 10, d.exponent + 1⟩ else d

def shortest (magnitude : Nat) : Decimal :=
  let i := Interval.ofMagnitude magnitude
  let top := decimalLog (i.value * i.num) i.den
  let found := (List.range 17).findSome? fun n => i.onGrid? top (n + 1)
  dropZeros 17 (found.getD ⟨0, 0⟩)

end Decimal

end AccountVault
