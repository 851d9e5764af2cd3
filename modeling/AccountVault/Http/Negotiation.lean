import AccountVault.Http.Message
import AccountVault.Text.Blank

/-!
# Choice of a coding

A client lists the codings that it takes, each with an optional weight in thousandths. The greatest
weight wins, and among equal weights zstd before brotli before gzip before deflate before no coding
at all. An item with a malformed weight is ignored, and a weight of zero excludes a coding.
-/

namespace AccountVault.Http

namespace Coding

def rank : Coding → Nat
  | identity => 0
  | deflate => 1
  | gzip => 2
  | brotli => 3
  | zstd => 4

def ofName? (name : String) : Option Coding :=
  let name := lower name
  if name = "gzip" || name = "x-gzip" then some gzip
  else if name = "deflate" then some deflate
  else if name = "br" then some brotli
  else if name = "zstd" then some zstd
  else if name = "identity" then some identity
  else none

end Coding

namespace Negotiation

def digits (text : List Char) : Nat := text.foldl (fun n c => 10 * n + (c.toNat - 48)) 0

def weight? (text : List Char) : Option Nat :=
  match text with
  | 'q' :: '=' :: value | 'Q' :: '=' :: value =>
    match value with
    | [] => none
    | whole :: rest =>
      if whole = '0' || whole = '1' then
        let decimals := rest.drop 1
        let thousandths := decimals ++ List.replicate (3 - decimals.length) '0'
        let value := 1000 * digits [whole] + digits thousandths
        if (rest.isEmpty || rest.head? = some '.') && decimals.length ≤ 3 &&
            decimals.all Char.isDigit && value ≤ 1000 then some value
        else none
      else none
  | _ => none

def item? (text : List Char) : Option (Coding × Nat) := do
  let name := text.takeWhile (· ≠ ';')
  let coding ← Coding.ofName? (String.ofList (Blank.trimChars name))
  match text.drop name.length with
  | [] => return (coding, 1000)
  | _ :: parameter =>
    let weight ← weight? (Blank.trimChars parameter)
    return (coding, weight)

def prefers (a b : Coding × Nat) : Bool := b.2 < a.2 || (a.2 = b.2 && b.1.rank ≤ a.1.rank)

def best : List (Coding × Nat) → Coding × Nat
  | [] => (.identity, 0)
  | item :: rest => if prefers item (best rest) then item else best rest

/-- The coding for a client's lists. A list with a character that is not visible is ignored. -/
def choose (lists : List String) : Coding :=
  let items := (lists.filter isVisible).flatMap fun list =>
    (list.toList.splitOn ',').filterMap item?
  (best (items.filter fun item => item.2 ≠ 0)).1

end Negotiation

end AccountVault.Http
