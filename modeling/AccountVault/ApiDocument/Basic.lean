import AccountVault.ApiDocument.Yaml
import AccountVault.Files

/-!
# API documents

The service shows one API document, read once when it starts. The notation follows from the file's
name. The document is served as it was read; only its title is taken from the text.
-/

namespace AccountVault

inductive ApiFormat where
  | json
  | yaml
  deriving DecidableEq

namespace ApiFormat

def ofFileName (name : String) : ApiFormat :=
  let name := name.map Char.toLower
  if name.endsWith ".yaml" || name.endsWith ".yml" then yaml else json

def contentType : ApiFormat → String
  | json => "application/json"
  | yaml => "text/yaml"

def name : ApiFormat → String
  | json => "JSON"
  | yaml => "YAML"

def read? (body : Bytes) : ApiFormat → Option Outline
  | json => (Json.Value.read? body).map Outline.ofValue
  | yaml => Yaml.read? body

end ApiFormat

structure ApiDocument where
  fileName : String
  title : String
  body : Bytes

inductive ApiDocument.Error where
  | noFileName (path : String)
  | unreadable (path : String) (cause : ReadError)
  | invalid (fileName : String)

namespace ApiDocument

def Error.message : Error → String
  | noFileName path => "API document path has no file name: " ++ path
  | unreadable path _ => "failed to read API document " ++ path
  | invalid fileName =>
    fileName ++ " is not a valid OpenAPI " ++ (ApiFormat.ofFileName fileName).name ++ " document"

def Error.report : Error → String
  | unreadable path cause => (unreadable path cause).message ++ ": " ++ cause.message
  | e => e.message

def contentType (d : ApiDocument) : String := (ApiFormat.ofFileName d.fileName).contentType

def ofFile (fileName : String) (body : Bytes) : Except Error ApiDocument :=
  match ((ApiFormat.ofFileName fileName).read? body).bind Outline.title? with
  | some title => .ok ⟨fileName, title, body⟩
  | none => .error (.invalid fileName)

def load (path : String) (read : Except ReadError Bytes) : Except Error ApiDocument :=
  match Path.fileName? path with
  | none => .error (.noFileName path)
  | some fileName =>
    match read with
    | .error cause => .error (.unreadable path cause)
    | .ok body => ofFile fileName body

end ApiDocument

end AccountVault
