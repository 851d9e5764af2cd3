import AccountVault.ApiDocument.Outline
import AccountVault.Text.Hex
import AccountVault.Text.Utf8

/-!
# YAML texts

The part of YAML that API documents are written in: mappings and sequences in block and in flow
style, plain and quoted scalars, comments, and one document that may be marked at its start and its
end. Every scalar is a text. A text with a JSON record in it is read as a flow mapping. Anchors,
tags and block scalars, which the service reads too, are refused here.
-/

namespace AccountVault.Yaml

/-- A place in a text: what is left of it and the column where that begins. -/
structure Cursor where
  column : Nat
  rest : List Char
  /-- Whether a tab stands among the blanks with which the line begins. -/
  tabbed : Bool := false

def isSpace (c : Char) : Bool := c = ' ' || c = '\t'

def isBreak (c : Char) : Bool := c = '\n'

def endsWord : List Char → Bool
  | [] => true
  | c :: _ => isSpace c || isBreak c

/-- The place of the next token: past blanks, line breaks and comments. `fresh` says that a blank
came last, and `opening` that the line has held only blanks so far. -/
def skipFrom (comment fresh opening tabbed : Bool) (column : Nat) : List Char → Cursor
  | [] => ⟨column, [], tabbed⟩
  | c :: rest =>
    if isBreak c then skipFrom false true true false 0 rest
    else if comment then skipFrom true false opening tabbed (column + 1) rest
    else if isSpace c then
      skipFrom false true opening (tabbed || (opening && c = '\t')) (column + 1) rest
    else if c = '#' && fresh then skipFrom true false opening tabbed (column + 1) rest
    else ⟨column, c :: rest, tabbed⟩

def Cursor.skip (place : Cursor) : Cursor :=
  skipFrom false (place.column = 0) (place.column = 0) false place.column place.rest

def Cursor.skipSpaces (place : Cursor) : Cursor :=
  let spaces := place.rest.takeWhile isSpace
  { column := place.column + spaces.length, rest := place.rest.drop spaces.length }

def Cursor.advance (place : Cursor) (count : Nat) : Cursor :=
  { column := place.column + count, rest := place.rest.drop count }

def Cursor.past (place : Cursor) (taken : List Char) : Cursor :=
  { column := taken.foldl (fun column c => if isBreak c then 0 else column + 1) place.column,
    rest := place.rest.drop taken.length }

def singleQuoted : (taken : Nat) → (read : List Char) → List Char → Option (List Char × Nat)
  | _, _, [] => none
  | taken, read, '\'' :: '\'' :: rest => singleQuoted (taken + 2) ('\'' :: read) rest
  | taken, read, c :: rest =>
    if c = '\'' then some (read.reverse, taken + 1) else singleQuoted (taken + 1) (c :: read) rest

def escapes : List (Char × Nat) :=
  [('0', 0x00), ('a', 0x07), ('b', 0x08), ('t', 0x09), ('\t', 0x09), ('n', 0x0a), ('v', 0x0b),
    ('f', 0x0c), ('r', 0x0d), ('e', 0x1b), (' ', 0x20), ('"', 0x22), ('/', 0x2f), ('\\', 0x5c),
    ('N', 0x85), ('_', 0xa0), ('L', 0x2028), ('P', 0x2029)]

def codeWidth? : Char → Option Nat
  | 'x' => some 2
  | 'u' => some 4
  | 'U' => some 8
  | _ => none

def codePoint? (digits : List Char) : Option Char := do
  let values ← digits.mapM Hex.digitValue?
  let code := values.foldl (fun n d => 16 * n + d) 0
  if code.isValidChar then some (Char.ofNat code) else none

def escaped? (input : List Char) : Option (Char × Nat) :=
  match input with
  | [] => none
  | c :: rest =>
    match codeWidth? c with
    | some width =>
      let digits := rest.take width
      if digits.length = width then (codePoint? digits).map fun read => (read, width + 1) else none
    | none => (escapes.lookup c).map fun code => (Char.ofNat code, 1)

/-- The raw body of a double-quoted scalar: up to a quote that no backslash precedes. -/
def doubleQuoted : (escaping : Bool) → (read : List Char) → List Char → Option (List Char)
  | _, _, [] => none
  | true, read, c :: rest => doubleQuoted false (c :: read) rest
  | false, read, c :: rest =>
    if c = '"' then some read.reverse
    else doubleQuoted (c = '\\') (c :: read) rest

def unescape? : (rounds : Nat) → (read : List Char) → List Char → Option (List Char)
  | 0, _, _ => none
  | _, read, [] => some read.reverse
  | rounds + 1, read, c :: rest =>
    if c = '\\' then
      match escaped? rest with
      | some (d, length) => unescape? rounds (d :: read) (rest.drop length)
      | none => none
    else unescape? rounds (c :: read) rest

/-- Joins the lines of a scalar: a break and the blanks around it count as one space, and further
empty lines as line breaks. -/
def foldLines (text : List Char) : List Char :=
  let lines := text.splitOn '\n'
  match lines with
  | [] => []
  | [line] => line
  | first :: others =>
    let stripEnd (line : List Char) := (line.reverse.dropWhile isSpace).reverse
    let inner := others.map fun line => line.dropWhile isSpace
    let step (joined : List Char × Nat) (line : List Char) : List Char × Nat :=
      if line.isEmpty then (joined.1, joined.2 + 1)
      else
        let gap := if joined.2 = 0 then [' '] else List.replicate joined.2 '\n'
        (joined.1 ++ gap ++ stripEnd line, 0)
    let (joined, empty) := inner.dropLast.foldl step (stripEnd first, 0)
    let last := inner.getLastD []
    joined ++ (if empty = 0 then [' '] else List.replicate empty '\n') ++ last

def quoted? (place : Cursor) : Option (String × Cursor) :=
  match place.rest with
  | [] => none
  | '\'' :: rest =>
    (singleQuoted 0 [] rest).map fun (chars, length) =>
      (String.ofList (foldLines chars), place.past (place.rest.take (length + 1)))
  | _ :: rest => do
    let raw ← doubleQuoted false [] rest
    let chars ← unescape? (raw.length + 2) [] (foldLines raw)
    return (String.ofList chars, place.past (place.rest.take (raw.length + 2)))

def isFlowMark (c : Char) : Bool :=
  c = ',' || c = '[' || c = ']' || c = Char.ofNat 0x7b || c = Char.ofNat 0x7d

def isIndicator (c : Char) : Bool :=
  isFlowMark c || "#&*!|>'\"%@`".toList.contains c

def startsPlain (flow : Bool) : List Char → Bool
  | [] => false
  | c :: rest =>
    if c = '-' || c = '?' || c = ':' then
      !endsWord rest && !(flow && rest.head?.any isFlowMark)
    else !isIndicator c

/-- The characters of a plain scalar on one line: up to a colon that ends a key, a comment or, in
flow style, a mark. -/
def plainLine (flow : Bool) : (spaced : Bool) → List Char → List Char
  | _, [] => []
  | spaced, c :: rest =>
    if isBreak c then []
    else if c = ':' && (endsWord rest || (flow && rest.head?.any isFlowMark)) then []
    else if c = '#' && spaced then []
    else if flow && isFlowMark c then []
    else c :: plainLine flow (isSpace c) rest

def plain? (flow : Bool) (place : Cursor) : Option (String × Cursor) :=
  if startsPlain flow place.rest then
    let line := (((plainLine flow false place.rest).reverse.dropWhile isSpace)).reverse
    some (String.ofList line, place.advance line.length)
  else none

def isQuote (place : Cursor) : Bool := place.rest.head?.any fun c => c = '"' || c = '\''

def scalar? (flow : Bool) (place : Cursor) : Option (String × Cursor) :=
  if isQuote place then quoted? place else plain? flow place

def flowItems (node : Cursor → Option (Outline × Cursor)) :
    (rounds : Nat) → (seen : List Outline) → Cursor → Option (List Outline × Cursor)
  | 0, _, _ => none
  | rounds + 1, seen, place =>
    let place := place.skip
    if place.rest.head? = some ']' then some (seen.reverse, place.advance 1)
    else
      match node place with
      | none => none
      | some (item, place) =>
        let place := place.skip
        match place.rest.head? with
        | some ',' => flowItems node rounds (item :: seen) (place.advance 1)
        | some ']' => some ((item :: seen).reverse, place.advance 1)
        | _ => none

def flowValue (node : Cursor → Option (Outline × Cursor)) (place : Cursor) :
    Option (Outline × Cursor) :=
  if place.rest.head? = some ':' then
    let place := (place.advance 1).skip
    match place.rest.head? with
    | some c => if c = ',' || c = Char.ofNat 0x7d then some (.missing, place) else node place
    | none => none
  else some (.missing, place)

def flowMembers (node : Cursor → Option (Outline × Cursor)) :
    (rounds : Nat) → (seen : List (String × Outline)) → Cursor →
      Option (List (String × Outline) × Cursor)
  | 0, _, _ => none
  | rounds + 1, seen, place =>
    let place := place.skip
    if place.rest.head? = some (Char.ofNat 0x7d) then some (seen.reverse, place.advance 1)
    else
      match scalar? true place with
      | none => none
      | some (name, place) =>
        match flowValue node place.skip with
        | none => none
        | some (v, place) =>
          let place := place.skip
          match place.rest.head? with
          | some ',' => flowMembers node rounds ((name, v) :: seen) (place.advance 1)
          | some c =>
            if c = Char.ofNat 0x7d then some (((name, v) :: seen).reverse, place.advance 1)
            else none
          | none => none

def deepest : Nat := 128

def flowNode : (depth : Nat) → Cursor → Option (Outline × Cursor)
  | 0, _ => none
  | depth + 1, place =>
    match place.rest.head? with
    | some '[' =>
      (flowItems (flowNode depth) (place.rest.length + 1) [] (place.advance 1)).map
        fun (items, place) => (.list items, place)
    | some c =>
      if c = Char.ofNat 0x7b then
        (flowMembers (flowNode depth) (place.rest.length + 1) [] (place.advance 1)).map
          fun (members, place) => (.record members, place)
      else (scalar? true place).map fun (s, place) => (.text s, place)
    | none => none

def opensFlow (place : Cursor) : Bool :=
  place.rest.head?.any fun c => c = '[' || c = Char.ofNat 0x7b

def startsItem (place : Cursor) : Bool :=
  match place.rest with
  | '-' :: rest => endsWord rest
  | _ => false

def atColon (place : Cursor) : Bool :=
  match place.rest with
  | ':' :: rest => endsWord rest
  | _ => false

def key? (place : Cursor) : Option (String × Cursor) :=
  match scalar? false place with
  | some (name, after) =>
    let after := after.skipSpaces
    if atColon after then some (name, after.advance 1) else none
  | none => none

def plainLines : (rounds : Nat) → (least : Nat) → (read : String) → Cursor →
    Option (String × Cursor)
  | 0, _, _, _ => none
  | rounds + 1, least, read, place =>
    let next := place.skip
    if next.rest.isEmpty || next.column < least || next.rest.length = place.rest.length then
      some (read, place)
    else if next.tabbed || (key? next).isSome then none
    else
      match plain? false next with
      | some (more, after) => plainLines rounds least (read ++ " " ++ more) after
      | none => none

def leaf (least : Nat) (place : Cursor) : Option (Outline × Cursor) :=
  if opensFlow place then flowNode deepest place
  else if isQuote place then (quoted? place).map fun (s, place) => (.text s, place)
  else
    match plain? false place with
    | some (s, after) =>
      (plainLines (place.rest.length + 1) least s after).map fun (s, place) => (.text s, place)
    | none => none

def memberValue (node : Nat → Cursor → Option (Outline × Cursor)) (column : Nat) (place : Cursor) :
    Option (Outline × Cursor) :=
  let here := place.skipSpaces
  let next := place.skip
  if next.rest.isEmpty then some (.missing, next)
  else if here.rest.length = next.rest.length then leaf (column + 1) next
  else if next.tabbed then none
  else if next.column > column then node (column + 1) next
  else if next.column = column && startsItem next then node column next
  else some (.missing, next)

def blockMembers (node : Nat → Cursor → Option (Outline × Cursor)) :
    (rounds : Nat) → (column : Nat) → (seen : List (String × Outline)) → Cursor →
      Option (List (String × Outline) × Cursor)
  | 0, _, _, _ => none
  | rounds + 1, column, seen, place =>
    match key? place with
    | none => none
    | some (name, place) =>
      match memberValue node column place with
      | none => none
      | some (v, place) =>
        let next := place.skip
        let seen := (name, v) :: seen
        if next.rest.isEmpty then some (seen.reverse, next)
        else if next.tabbed then none
        else if next.column < column then some (seen.reverse, next)
        else if next.column = column then blockMembers node rounds column seen next
        else none

def blockItems (node : Nat → Cursor → Option (Outline × Cursor)) :
    (rounds : Nat) → (column : Nat) → (seen : List Outline) → Cursor →
      Option (List Outline × Cursor)
  | 0, _, _, _ => none
  | rounds + 1, column, seen, place =>
    let start := (place.advance 1).skip
    let item := if start.rest.isEmpty || start.column ≤ column then some (.missing, start)
      else node (column + 1) start
    match item with
    | none => none
    | some (v, place) =>
      let next := place.skip
      let seen := v :: seen
      if next.rest.isEmpty then some (seen.reverse, next)
      else if next.tabbed then none
      else if next.column < column then some (seen.reverse, next)
      else if next.column > column then none
      else if startsItem next then blockItems node rounds column seen next
      else some (seen.reverse, next)

def blockNode : (depth : Nat) → (least : Nat) → Cursor → Option (Outline × Cursor)
  | 0, _, _ => none
  | depth + 1, least, place =>
    if place.tabbed then none
    else if place.rest.isEmpty || place.column < least then some (.missing, place)
    else if startsItem place then
      (blockItems (blockNode depth) (place.rest.length + 1) place.column [] place).map
        fun (items, place) => (.list items, place)
    else if (key? place).isSome then
      (blockMembers (blockNode depth) (place.rest.length + 1) place.column [] place).map
        fun (members, place) => (.record members, place)
    else leaf least place

def plainBreaks : List Char → List Char
  | '\r' :: '\n' :: rest => '\n' :: plainBreaks rest
  | '\r' :: rest => '\n' :: plainBreaks rest
  | c :: rest => c :: plainBreaks rest
  | [] => []

def isMarker (marker : List Char) (line : List Char) : Bool :=
  line.take 3 = marker && endsWord (line.drop 3)

def startMark : List Char := ['-', '-', '-']

def endMark : List Char := ['.', '.', '.']

def isIdle (line : List Char) : Bool := (skipFrom false true true false 0 line).rest.isEmpty

def documentLines? (lines : List (List Char)) : Option (List (List Char)) :=
  let lines := lines.dropWhile isIdle
  let lines := match lines with
    | first :: others =>
      if isMarker startMark first then (List.replicate 3 ' ' ++ first.drop 3) :: others
      else first :: others
    | [] => []
  let body := lines.takeWhile fun line => !isMarker startMark line && !isMarker endMark line
  match lines.drop body.length with
  | [] => some body
  | mark :: after =>
    if isMarker endMark mark && isIdle (mark.drop 3) && after.all isIdle then some body else none

def readText? (text : List Char) : Option Outline := do
  let lines ← documentLines? ((plainBreaks text).splitOn '\n')
  let text := List.intercalate ['\n'] lines
  let (top, place) ← blockNode deepest 0 (Cursor.skip { column := 0, rest := text })
  if place.skip.rest.isEmpty then some top else none

def dropMark : List Char → List Char
  | '\uFEFF' :: rest => rest
  | text => text

def isPermitted (c : Char) : Bool :=
  c = '\t' || c = '\n' || c = '\r' || (0x20 ≤ c.toNat && c.toNat ≤ 0x7e) || c.toNat = 0x85 ||
    (0xa0 ≤ c.toNat && c.toNat ≠ 0xfeff && c.toNat ≠ 0xfffe && c.toNat ≠ 0xffff)

def read? (body : Bytes) : Option Outline := do
  let text := dropMark (← Utf8.decode? body).toList
  if text.all isPermitted then readText? text else none

end AccountVault.Yaml
