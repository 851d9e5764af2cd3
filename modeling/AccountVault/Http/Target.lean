/-!
# Request targets

A target is a path with an optional query, the same after a scheme and an authority, a lone asterisk
or a bare authority. Requests are matched by the path alone, as it was sent.

Some targets never get that far: one that is too long, or that has a character in it which must be
escaped at its place, is refused when the request is read. What is said of the requests that the
service handles is said of every target, and applies to those that are accepted.
-/

namespace AccountVault.Http.Target

def beforeQuery (target : List Char) : List Char := target.takeWhile fun c => c ≠ '?' && c ≠ '#'

def afterScheme? : List Char → Option (List Char)
  | [] => none
  | ':' :: '/' :: '/' :: rest => some rest
  | c :: rest => if c = '/' || c = '?' || c = '#' then none else afterScheme? rest

/-- The path of the text after a scheme: it begins where the authority ends. -/
def afterAuthority (rest : List Char) : List Char :=
  match (beforeQuery rest).dropWhile (· ≠ '/') with
  | [] => ['/']
  | path => path

def pathChars (target : List Char) : List Char :=
  match target with
  | '/' :: _ => beforeQuery target
  | ['*'] => ['*']
  | _ =>
    match afterScheme? target with
    | some rest => afterAuthority rest
    | none => []

def path (target : String) : String := String.ofList (pathChars target.toList)

def isPathChar (c : Char) : Bool := '!' ≤ c && c ∉ ['#', '<', '>', '?', '\x60']

def isQueryChar (c : Char) : Bool := '!' ≤ c && c ∉ ['"', '#', '<', '>']

def query (target : List Char) : List Char :=
  ((target.dropWhile fun c => c ≠ '?' && c ≠ '#').takeWhile (· ≠ '#')).tail

def mostBytes : Nat := 65534

/-- Whether a target that begins with a slash is accepted. -/
def accepts (target : String) : Bool :=
  (beforeQuery target.toList).all isPathChar && (query target.toList).all isQueryChar &&
    target.utf8ByteSize ≤ mostBytes

end AccountVault.Http.Target
