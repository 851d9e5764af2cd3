import AccountVault.Cloud.Clients
import AccountVault.Http.Site
import AccountVault.Log.Filter
import AccountVault.Telemetry

/-!
# Start-up

The service reads its settings, sets up its log, probes the stored document, loads the API document,
builds its routes and then listens. Settings and the address for spans can stop it; a missing
document, key or API document are only logged.
-/

namespace AccountVault.Startup

structure Surroundings (σ : Type) where
  environment : Environment
  fileAt : String → Except ReadError Bytes
  link : Cloud.Link σ
  entropy : Nat → σ → Bytes × σ
  /-- Why the service's port cannot be listened on, if it cannot. -/
  portFault : Option String

inductive Ending where
  | invalidSettings (error : SettingsError)
  | spanExport (fault : Telemetry.AddressFault)
  | routes (error : Http.RouteError)
  | portRefused (reason : String)
  | listening (site : Http.Site)
  /-- A store call never returned. -/
  | stalled

/-- The exit status; a service that listens does not end by itself. -/
def Ending.status : Ending → Nat
  | invalidSettings .placeOutside => 101
  | routes _ => 101
  | listening _ => 0
  | _ => 1

def failureText (message : String) : Option String → String
  | none => "Error: " ++ message ++ "\n"
  | some cause => "Error: " ++ message ++ "\n\nCaused by:\n    " ++ cause ++ "\n"

def Ending.errorText : Ending → String
  | invalidSettings .placeOutside => SettingsError.placeOutside.message ++ "\n"
  | invalidSettings e =>
    "ERROR: configuration invalid: " ++ e.report ++ "\n" ++ failureText e.message e.cause?
  | spanExport fault =>
    failureText "failed to install OTLP tracing pipeline"
      (some ("Exporter otlp encountered the following error(s): invalid URI " ++ fault.message))
  | routes e => e.message ++ "\n"
  | portRefused reason => failureText reason none
  | listening _ => ""
  | stalled => ""

structure Report (σ : Type) where
  ending : Ending
  ignored : List Log.Ignored
  events : List Event
  state : σ

def Report.errorText {σ : Type} (report : Report σ) : String :=
  String.join (report.ignored.map fun i => i.message ++ "\n") ++ report.ending.errorText

def version : String := "0.1.0"

def note (level : Level) (message : String) (fields : List (String × FieldValue)) : Program Unit :=
  Program.note level .startup message fields

def address (port : Nat) : String := "0.0.0.0:" ++ toString port

def loadDocs (path : String) (read : Except ReadError Bytes) : Program (Option ApiDocument) := do
  match ApiDocument.load path read with
  | .ok docs =>
    note .info "API document loaded" [("file", .text docs.fileName)]
    return some docs
  | .error e =>
    note .warn "API document unavailable; docs routes will return 404" [("error", .text e.report)]
    return none

def prepare (settings : Settings) (key : Option DataKey) (managesKeys : Bool)
    (read : Except ReadError Bytes) : Program (Except Http.RouteError Http.Site) := do
  note .info "accounts-svc starting" [("version", .text version), ("port", .number settings.port),
    ("base_path", .text settings.basePath), ("bucket", .text settings.bucket),
    ("key", .text settings.keyfile)]
  note .info (if managesKeys then "IVs generated by KMS" else "IVs generated locally") []
  if key.isNone then
    note .warn "DATA_KEY is not configured; account create and update will be refused" []
  let location : Location := ⟨settings.bucket, settings.keyfile⟩
  if !(← DocumentStore.exists location) then
    note .warn "accounts document not found; requests will fail until it is created" []
  let docs ← loadDocs settings.apiDocsPath read
  match Http.Site.build ⟨location, key⟩ docs settings.basePath with
  | .error e => return .error e
  | .ok site =>
    note .info "listening" [("addr", .text (address settings.port))]
    return .ok site

def endingOf (portFault : Option String) : Except Http.RouteError Http.Site → Ending
  | .error e => .routes e
  | .ok site =>
    match portFault with
    | some reason => .portRefused reason
    | none => .listening site

def runWith {σ : Type} (around : Surroundings σ) (settings : Settings) (key : Option DataKey)
    (state : σ) : Report σ :=
  match Telemetry.check around.environment settings with
  | .error fault => ⟨.spanExport fault, [], [], state⟩
  | .ok () =>
    let (filter, ignored) := Log.Filter.ofEnvironment around.environment settings.logLevel
    let clients := Cloud.Clients.ofSettings around.link around.entropy settings
    let outcome := (prepare settings key clients.managesKeys
      (around.fileAt settings.apiDocsPath)).run clients.backend state
    let events := outcome.events.filter filter.lets
    match outcome.value with
    | some built => ⟨endingOf around.portFault built, ignored, events, outcome.state⟩
    | none => ⟨.stalled, ignored, events, outcome.state⟩

def run {σ : Type} (around : Surroundings σ) (state : σ) : Report σ :=
  match Settings.ofEnvironment around.environment with
  | .error e => ⟨.invalidSettings e, [], [], state⟩
  | .ok settings =>
    match settings.key? with
    | .error e => ⟨.invalidSettings (.dataKey e), [], [], state⟩
    | .ok key => runWith around settings key state

end AccountVault.Startup
