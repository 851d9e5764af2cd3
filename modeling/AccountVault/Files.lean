import AccountVault.Text.Utf8

/-!
# Paths and files

A path is a text whose components are separated by slashes. The name of a file is the last component
that is not empty and not a single dot. Reading walks from directory to directory and says why it
stops: a component that is missing, a file where a directory is needed, or a directory at the end.
-/

namespace AccountVault

inductive ReadError where
  | notFound
  | notDirectory
  | isDirectory
  | nameTooLong
  | other (text : String)
  deriving DecidableEq

def ReadError.message : ReadError → String
  | notFound => "No such file or directory (os error 2)"
  | notDirectory => "Not a directory (os error 20)"
  | isDirectory => "Is a directory (os error 21)"
  | nameTooLong => "File name too long (os error 36)"
  | other text => text

namespace Path

def splitSlash : List Char → List (List Char)
  | [] => [[]]
  | '/' :: rest => [] :: splitSlash rest
  | c :: rest =>
    match splitSlash rest with
    | first :: others => (c :: first) :: others
    | [] => [[c]]

def components (path : String) : List String := (splitSlash path.toList).map String.ofList

def steps (path : String) : List String := (components path).filter fun s => s ≠ "" && s ≠ "."

def fileName? (path : String) : Option String :=
  match (steps path).getLast? with
  | some name => if name = ".." then none else some name
  | none => none

end Path

/-- The files below a working directory, each by the names that lead to it, and the directories. -/
structure FileTree where
  files : List (List String × Bytes)
  directories : List (List String)

namespace FileTree

def empty : FileTree := ⟨[], [[]]⟩

def longestName : Nat := 255

/-- The directory that the last of the given names lie in, with every directory on the way. -/
def visited : (here : List String) → (names : List String) → List (List String)
  | here, [] => [here]
  | here, name :: rest =>
    let next := if name = ".." then here.dropLast else here ++ [name]
    here :: visited next rest

def insert (tree : FileTree) (path : String) (body : Bytes) : FileTree :=
  let names := Path.steps path
  let way := visited [] names.dropLast
  let place := way.getLastD [] ++ names.getLast?.toList
  ⟨(place, body) :: tree.files.filter (·.1 ≠ place), way ++ tree.directories⟩

def ofList (files : List (String × Bytes)) : FileTree :=
  files.foldl (fun tree file => tree.insert file.1 file.2) empty

def readFrom (tree : FileTree) : (here : List String) → (names : List String) →
    Except ReadError Bytes
  | here, [] =>
    match tree.files.find? (·.1 = here) with
    | some file => .ok file.2
    | none => .error (if tree.directories.contains here then .isDirectory else .notFound)
  | here, name :: rest =>
    if tree.files.any (·.1 = here) then .error .notDirectory
    else if !tree.directories.contains here then .error .notFound
    else if name = "" || name = "." then readFrom tree here rest
    else if name = ".." then readFrom tree here.dropLast rest
    else if name.utf8ByteSize > longestName then .error .nameTooLong
    else readFrom tree (here ++ [name]) rest

def read (tree : FileTree) (path : String) : Except ReadError Bytes :=
  if path.startsWith "/" then .error .notFound else tree.readFrom [] (Path.components path)

end FileTree

end AccountVault
