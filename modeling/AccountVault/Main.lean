import AccountVault.Json.Writer
import AccountVault.Startup

/-!
# The command

Starts the service from the environment that the process was given. Log lines go to standard output,
one JSON record each, and errors to standard error. The command has no connection to the cloud and
nothing to listen with: it ends after the start-up, with the log of it.
-/

namespace AccountVault.Main

def environmentOf (block : Bytes) : Environment :=
  (block.splitOn 0).filterMap fun entry => do
    let text ← Utf8.decode? entry
    let name := text.toList.takeWhile (· ≠ '=')
    return (String.ofList name, String.ofList (text.toList.drop (name.length + 1)))

def fieldValue : FieldValue → Json.Value
  | .number n => .number (.integer n)
  | .text s => .text s

def logLine (event : Event) : Bytes :=
  Json.Value.write (.record [
    ("level", .text event.level.name),
    ("fields", .record (("message", .text event.message) ::
      event.fields.map fun (name, value) => (name, fieldValue value))),
    ("target", .text event.source.target)])

/-- The kind of an error about what a path leads to. The system's code may come negated. -/
def wrongKind (code : UInt32) : ReadError :=
  if code = 20 || 0 - code = 20 then .notDirectory else .isDirectory

def readError : IO.Error → ReadError
  | .noFileOrDirectory .. => .notFound
  | .inappropriateType _ code _ => wrongKind code
  | e => .other (toString e)

def readBytes (path : String) : IO (Except ReadError Bytes) := do
  try
    let content ← IO.FS.readBinFile path
    return .ok content.data.toList
  catch e => return .error (readError e)

def surroundings : IO (Startup.Surroundings Unit) := do
  let block ← readBytes "/proc/self/environ"
  let environment := environmentOf (block.toOption.getD [])
  let document ← match Settings.ofEnvironment environment with
    | .ok settings => readBytes settings.apiDocsPath
    | .error _ => pure (.error .notFound)
  return {
    environment
    fileAt := fun _ => document
    link := Cloud.Link.unreachable
    entropy := fun count state => (List.replicate count 0, state)
    portFault := some "no listener is available" }

def writeLine (out : IO.FS.Stream) (line : Bytes) : IO Unit := do
  out.write ⟨(line ++ [0x0a]).toArray⟩

def run : IO UInt32 := do
  let report := Startup.run (← surroundings) ()
  let out ← IO.getStdout
  for event in report.events do
    writeLine out (logLine event)
  out.flush
  (← IO.getStderr).putStr report.errorText
  return UInt32.ofNat report.ending.status

end AccountVault.Main

def main : IO UInt32 := AccountVault.Main.run
