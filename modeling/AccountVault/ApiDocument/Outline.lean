import AccountVault.Json.Value

/-!
# The outline of an API document

An API document is a tree of records, lists and texts, whichever notation it is written in. It is
accepted when its top is a record with a version, an info section with title and version, and paths
that are records; servers may be listed with their addresses. No known field may stand twice, and
other fields are not looked at. The service checks the types of some of these too, and so it may
refuse a document that is accepted here.
-/

namespace AccountVault

inductive Outline where
  /-- Nothing where a value could stand; it passes for an empty text, list or record. -/
  | missing
  | text (value : String)
  /-- A value that is neither text nor list nor record. -/
  | plain
  | list (items : List Outline)
  | record (members : List (String × Outline))

namespace Outline

mutual

def ofValue : Json.Value → Outline
  | .null => plain
  | .boolean _ => plain
  | .number _ => plain
  | .text s => text s
  | .list items => list (ofItems items)
  | .record members => record (ofMembers members)

def ofItems : List Json.Value → List Outline
  | [] => []
  | v :: rest => ofValue v :: ofItems rest

def ofMembers : List (String × Json.Value) → List (String × Outline)
  | [] => []
  | (name, v) :: rest => (name, ofValue v) :: ofMembers rest

end

def text? : Outline → Option String
  | missing => some ""
  | text s => some s
  | _ => none

def list? : Outline → Option (List Outline)
  | missing => some []
  | list items => some items
  | _ => none

def record? : Outline → Option (List (String × Outline))
  | missing => some []
  | record members => some members
  | _ => none

def isRecord : Outline → Bool
  | record _ => true
  | _ => false

def named (name : String) (members : List (String × Outline)) : List Outline :=
  (members.filter (·.1 = name)).map (·.2)

def only? (name : String) (members : List (String × Outline)) : Option Outline :=
  match named name members with
  | [v] => some v
  | _ => none

def atMostOnce (names : List String) (members : List (String × Outline)) : Bool :=
  names.all fun name => (named name members).length ≤ 1

def topFields : List String :=
  ["openapi", "info", "servers", "paths", "components", "security", "tags", "externalDocs"]

def infoFields : List String :=
  ["title", "description", "termsOfService", "contact", "license", "version"]

def serverFields : List String := ["url", "description", "variables"]

def infoTitle? (info : Outline) : Option String := do
  let members ← info.record?
  let title ← (← only? "title" members).text?
  let _ ← (← only? "version" members).text?
  if atMostOnce infoFields members then some title else none

def isServer (server : Outline) : Bool :=
  match server.record? with
  | some members =>
    ((only? "url" members).bind text?).isSome && atMostOnce serverFields members
  | none => false

def areServers (servers : Outline) : Bool :=
  match servers.list? with
  | some items => items.all isServer
  | none => false

def arePaths (paths : Outline) : Bool :=
  match paths.record? with
  | some members => members.all fun (name, item) => name.startsWith "x-" || item.isRecord
  | none => false

def title? (top : Outline) : Option String := do
  let members ← if top.isRecord then top.record? else none
  let _ ← (← only? "openapi" members).text?
  let title ← infoTitle? (← only? "info" members)
  let paths ← only? "paths" members
  if arePaths paths && (named "servers" members).all areServers &&
      atMostOnce topFields members then some title
  else none

end Outline

end AccountVault
