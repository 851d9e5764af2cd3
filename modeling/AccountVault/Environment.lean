import AccountVault.Text.Utf8

/-!
# The environment

The variables of the process, in the order in which they are taken. Names and values are Unicode
texts: what becomes of a variable that is none is left out. What the variables hold is a tree. The
name of a variable, in lower case, is a path: a key, then keys behind dots and places in brackets; a
name of another form is one key. Putting a value at the end of a path replaces what is there, and
what stands on the way becomes a table or a list as the path has it, whatever it was before. A place
may count from the end of a list; one that lies before the front stops the process. One behind the
end makes the list longer, however far it lies: no bound is set on the memory of the process.

No order is promised for the variables, nor for the keys that are read from the tree. Here the keys
come in the order of their last variables; variables with different first keys do not touch each
other, so each order of the keys is that of some order of the variables. Of two names that differ in
case only, the later one counts.
-/

namespace AccountVault

abbrev Environment := List (String × String)

namespace Environment

/-- The lower-case form of a character, as far as it can occur in the name of a setting: the Kelvin
sign is the one character beyond ASCII that becomes an ASCII letter. -/
def lowerChar (c : Char) : Char := if c.toNat = 0x212a then 'k' else c.toLower

def lower (name : String) : String := name.map lowerChar

def exactly? (env : Environment) (name : String) : Option String :=
  (env.reverse.find? (·.1 = name)).map (·.2)

inductive Step where
  | key (name : String)
  | place (index : Int)
  deriving DecidableEq

structure Path where
  root : String
  steps : List Step
  deriving DecidableEq

namespace Path

def isKeyChar (c : Char) : Bool := c.isAlphanum || c = ' ' || c = '_' || c = '-'

def isSpace (c : Char) : Bool := c = ' ' || c = '\t'

/-- A place of sixty-four bits with a sign, between any spaces. -/
def index? (text : List Char) : Option Int :=
  let inner := ((text.dropWhile isSpace).reverse.dropWhile isSpace).reverse
  let digits := if inner.head? = some '-' then inner.tail else inner
  let value : Int := Nat.ofDigitChars 10 digits 0
  if digits.isEmpty || !digits.all Char.isDigit then none
  else if inner.head? = some '-' then
    if value ≤ 0x8000000000000000 then some (-value) else none
  else if value < 0x8000000000000000 then some value else none

inductive Part where
  | next
  | key (letters : List Char)
  | place (digits : List Char)

def steps? : Part → List Char → Option (List Step)
  | .next, [] => some []
  | .next, c :: rest =>
    if c = '.' then steps? (.key []) rest
    else if c = '[' then steps? (.place []) rest
    else none
  | .key letters, [] => if letters.isEmpty then none else some [.key (String.ofList letters)]
  | .key letters, c :: rest =>
    if isKeyChar c then steps? (.key (letters ++ [c])) rest
    else if letters.isEmpty then none
    else if c = '.' then (steps? (.key []) rest).map (.key (String.ofList letters) :: ·)
    else if c = '[' then (steps? (.place []) rest).map (.key (String.ofList letters) :: ·)
    else none
  | .place _, [] => none
  | .place digits, c :: rest =>
    if c = ']' then
      match index? digits with
      | some index => (steps? .next rest).map (.place index :: ·)
      | none => none
    else steps? (.place (digits ++ [c])) rest

def parse? (text : List Char) : Option Path :=
  let root := text.takeWhile isKeyChar
  if root.isEmpty then none
  else (steps? .next (text.dropWhile isKeyChar)).map fun steps => ⟨String.ofList root, steps⟩

def ofName (name : String) : Path := (parse? (lower name).toList).getD ⟨lower name, []⟩

end Path

inductive Node where
  | text (value : String)
  | table (entries : List (String × Node))
  | list (items : List (Option Node))

namespace Node

def entries : Option Node → List (String × Node)
  | some (table entries) => entries
  | _ => []

def items : Option Node → List (Option Node)
  | some (list items) => items
  | _ => []

/-- The entry comes last, also when it replaces one. -/
def insert (key : String) (node : Node) (entries : List (String × Node)) : List (String × Node) :=
  entries.filter (·.1 ≠ key) ++ [(key, node)]

def position? (length : Nat) (index : Int) : Option Nat :=
  if 0 ≤ index then some index.toNat
  else if index.natAbs ≤ length then some (length - index.natAbs)
  else none

def put? (value : String) : List Step → Option Node → Option Node
  | [], _ => some (.text value)
  | .key name :: steps, old =>
    (put? value steps ((entries old).lookup name)).map fun inner =>
      .table (insert name inner (entries old))
  | .place index :: steps, old =>
    match position? (items old).length index with
    | none => none
    | some position =>
      (put? value steps (items old)[position]?.join).map fun inner =>
        .list ((items old ++ List.replicate (position + 1 - (items old).length) none).set position
          (some inner))

end Node

def grow? (entries : List (String × Node)) (taken : String × String) :
    Option (List (String × Node)) :=
  let path := Path.ofName taken.1
  (Node.put? taken.2 path.steps (entries.lookup path.root)).map fun node =>
    Node.insert path.root node entries

def entries? (env : Environment) : Option (List (String × Node)) := env.foldlM grow? []

def setting? (env : Environment) (name : String) : Option String :=
  match (env.entries?.getD []).lookup name with
  | some (.text value) => some value
  | _ => none

end Environment

end AccountVault
