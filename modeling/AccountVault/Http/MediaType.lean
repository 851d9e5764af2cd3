/-!
# Media types

A media type is a type and a subtype, followed by parameters, each after a semicolon. What follows
the last plus sign of the subtype is its suffix, and the subtype proper ends before it. Spaces are
allowed before a parameter's name and after a quoted value only. The case of letters does not
matter.
-/

namespace AccountVault.Http

structure MediaType where
  type : String
  subtype : String
  suffix : Option String
  deriving DecidableEq

namespace MediaType

def isToken (c : Char) : Bool := c.isAlphanum || "!#$%&'*+-.^_`|~".toList.contains c

def isQuotable (c : Char) : Bool := 31 < c.toNat && c.toNat ≠ 127

/-- What follows a quoted value, from its first character on. A value has at least one character, so
a quote at its start is part of it. -/
def afterQuoted? : List Char → Option (List Char)
  | [] => none
  | first :: rest =>
    if isQuotable first then
      match rest.dropWhile fun c => isQuotable c && c ≠ '"' with
      | '"' :: after => some after
      | _ => none
    else none

def afterValue? (input : List Char) : Option (List Char) :=
  match input with
  | '"' :: rest =>
    match (afterQuoted? rest).map (·.dropWhile (· = ' ')) with
    | some [] => some []
    | some (';' :: after) => some after
    | _ => none
  | _ =>
    match input.dropWhile isToken with
    | [] => some []
    | ';' :: after => if input.head? = some ';' then none else some after
    | _ => none

def afterName? (input : List Char) : Option (List Char) :=
  match input.dropWhile isToken with
  | '=' :: after => if input.head? = some '=' then none else some after
  | _ => none

def areParameters : (rounds : Nat) → List Char → Bool
  | 0, input => input.isEmpty
  | rounds + 1, input =>
    let input := input.dropWhile (· = ' ')
    if input.isEmpty then true
    else
      match (afterName? input).bind afterValue? with
      | some rest => areParameters rounds rest
      | none => false

/-- The subtype and its suffix: they are divided by the last plus sign that is not the first
character. -/
def splitSuffix (text : List Char) : String × Option String :=
  let suffix := (text.reverse.takeWhile (· ≠ '+')).reverse
  if suffix.length + 1 < text.length then
    (String.ofList (text.take (text.length - suffix.length - 1)), some (String.ofList suffix))
  else (String.ofList text, none)

def parse? (text : String) : Option MediaType :=
  let input := text.toList.map Char.toLower
  let type := input.takeWhile isToken
  match input.dropWhile isToken with
  | '/' :: rest =>
    let subtype := rest.takeWhile isToken
    let (subtypeName, suffix) := splitSuffix subtype
    let parsed : MediaType := ⟨String.ofList type, subtypeName, suffix⟩
    match rest.dropWhile isToken with
    | [] => if type.isEmpty then none else some parsed
    | ';' :: parameters =>
      if type.isEmpty || subtype.isEmpty || !areParameters (parameters.length + 1) parameters then
        none
      else some parsed
    | _ => none
  | _ => none

def isJson (m : MediaType) : Bool :=
  m.type = "application" && (m.subtype = "json" || m.suffix = some "json")

end MediaType

end AccountVault.Http
