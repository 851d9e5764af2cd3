import AccountVault.Cipher.DataKey
import AccountVault.Environment
import AccountVault.Text.Blank
import AccountVault.Text.Quoted

/-!
# Settings

The settings are the texts under their names in the tree of the environment; a table or a list under
such a name cannot be read. They are accepted when the port is a positive number of sixteen bits,
bucket and key file are given and not blank, the base path is empty or starts but does not end with
a slash, and the data key, if it is not blank, can be decoded. The first check that fails is
reported.
-/

namespace AccountVault

structure Settings where
  bucket : String
  keyfile : String
  awsRegion : Option String
  dataKey : Option String
  s3EndpointUrl : Option String
  port : Nat
  basePath : String
  apiDocsPath : String
  otlpEndpoint : Option String
  logLevel : String
  deriving DecidableEq

inductive Branching where
  | table
  | list
  deriving DecidableEq

def Branching.name : Branching → String
  | table => "map"
  | list => "sequence"

inductive SettingsError where
  /-- The name of a variable counts back beyond the front of a list. The process panics, with this
  message where it was built to check for overflow. -/
  | placeOutside
  | branching (name : String) (found : Branching)
  | portNotNumber (text : String)
  | portTooLarge (value : Nat)
  | missing (name : String)
  | blank (name : String)
  | basePath
  | portZero
  | dataKey (error : KeyError)
  deriving DecidableEq

namespace SettingsError

def message : SettingsError → String
  | placeOutside => "attempt to subtract with overflow"
  | branching _ _ => "failed to deserialise configuration"
  | portNotNumber _ => "failed to deserialise configuration"
  | portTooLarge _ => "failed to deserialise configuration"
  | missing _ => "failed to deserialise configuration"
  | blank name => name ++ " is required and must not be empty"
  | basePath => "BASE_PATH must start with '/' and must not end with '/'"
  | portZero => "PORT must be > 0"
  | dataKey _ => "DATA_KEY is invalid"

def cause? : SettingsError → Option String
  | branching name found =>
    some ("invalid type: " ++ found.name ++ ", expected " ++
      (if name = "port" then "an integer" else "a string") ++ " for key `" ++ name ++ "`")
  | portNotNumber text =>
    some ("invalid type: string " ++ Quoted.quote text ++
      ", expected an integer for key `port` in the environment")
  | portTooLarge value =>
    some ("invalid type: 64-bit unsigned integer `" ++ toString value ++
      "`, expected an unsigned 16 bit integer for key `port`")
  | missing name => some ("missing field `" ++ name ++ "`")
  | dataKey error => some error.message
  | _ => none

def report (e : SettingsError) : String :=
  match e.cause? with
  | some cause => e.message ++ ": " ++ cause
  | none => e.message

end SettingsError

namespace Settings

def decimal (digits : List Char) : Nat := digits.foldl (fun n c => 10 * n + (c.toNat - 48)) 0

def natural? (text : String) : Option Nat :=
  let digits := match text.toList with
    | '+' :: rest => rest
    | chars => chars
  if digits.isEmpty || !digits.all Char.isDigit then none
  else
    let value := decimal digits
    if value < 0x10000000000000000 then some value else none

/-- The number that a setting denotes; the usual words for yes and no count as one and zero. -/
def number? (text : String) : Option Nat :=
  let word := text.map Char.toLower
  if word = "true" || word = "on" || word = "yes" then some 1
  else if word = "false" || word = "off" || word = "no" then some 0
  else natural? text

def defaultPort : Nat := 3000

def names : List String :=
  ["bucket", "keyfile", "aws_region", "data_key", "s3_endpoint_url", "port", "base_path",
    "api_docs_path", "otel_exporter_otlp_endpoint", "log_level"]

def portFault? (text : String) : Option SettingsError :=
  match number? text with
  | none => some (.portNotNumber text)
  | some value => if value < 65536 then none else some (.portTooLarge value)

def fault? (name : String) : Environment.Node → Option SettingsError
  | .text value => if name = "port" then portFault? value else none
  | .table _ => if name ∈ names then some (.branching name .table) else none
  | .list _ => if name ∈ names then some (.branching name .list) else none

def required (env : Environment) (name : String) : Except SettingsError String :=
  match env.setting? name with
  | some text => .ok text
  | none => .error (.missing name)

def read (env : Environment) : Except SettingsError Settings :=
  match env.entries? with
  | none => .error .placeOutside
  | some entries =>
    match entries.findSome? fun entry => fault? entry.1 entry.2 with
    | some e => .error e
    | none => do
      let bucket ← required env "bucket"
      let keyfile ← required env "keyfile"
      return {
        bucket, keyfile
        awsRegion := env.setting? "aws_region"
        dataKey := env.setting? "data_key"
        s3EndpointUrl := env.setting? "s3_endpoint_url"
        port := ((env.setting? "port").bind number?).getD defaultPort
        basePath := (env.setting? "base_path").getD "/identrust"
        apiDocsPath := (env.setting? "api_docs_path").getD "swagger/swagger.json"
        otlpEndpoint := env.setting? "otel_exporter_otlp_endpoint"
        logLevel := (env.setting? "log_level").getD "info" }

def filled? (value : Option String) : Option String := value.bind Blank.filled?

def region? (s : Settings) : Option String := filled? s.awsRegion

def s3Endpoint? (s : Settings) : Option String := filled? s.s3EndpointUrl

def spanEndpoint? (s : Settings) : Option String := filled? s.otlpEndpoint

def key? (s : Settings) : Except KeyError (Option DataKey) :=
  match filled? s.dataKey with
  | none => .ok none
  | some text =>
    match DataKey.ofBase64 text with
    | .ok key => .ok (some key)
    | .error e => .error e

def validBase (base : String) : Bool :=
  base.isEmpty || (base.startsWith "/" && !base.endsWith "/")

def validate (s : Settings) : Except SettingsError Unit :=
  if (Blank.filled? s.bucket).isNone then .error (.blank "BUCKET")
  else if (Blank.filled? s.keyfile).isNone then .error (.blank "KEYFILE")
  else if !validBase s.basePath then .error .basePath
  else if s.port = 0 then .error .portZero
  else
    match s.key? with
    | .ok _ => .ok ()
    | .error e => .error (.dataKey e)

def ofEnvironment (env : Environment) : Except SettingsError Settings := do
  let s ← read env
  s.validate
  return s

def shown (s : Settings) : String :=
  let fields := [
    ("bucket", Quoted.quote s.bucket),
    ("keyfile", Quoted.quote s.keyfile),
    ("aws_region", Quoted.quoteOption s.awsRegion),
    ("data_key", Quoted.quoteOption (s.dataKey.map fun _ => "[REDACTED]")),
    ("s3_endpoint_url", Quoted.quoteOption s.s3EndpointUrl),
    ("port", toString s.port),
    ("base_path", Quoted.quote s.basePath),
    ("api_docs_path", Quoted.quote s.apiDocsPath),
    ("otel_exporter_otlp_endpoint", Quoted.quoteOption s.otlpEndpoint),
    ("log_level", Quoted.quote s.logLevel)]
  "Config \x7b " ++ ", ".intercalate (fields.map fun field => field.1 ++ ": " ++ field.2) ++ " \x7d"

end Settings

end AccountVault
