import AccountVault.Settings

/-!
# Where spans are sent

Spans are exported when an address is set that is not blank. The exporter reads the same variable
once more, as it stands, so blanks around the address are refused although the setting itself is
trimmed. An address is a path, or an authority after an optional scheme; a path may follow only
after a scheme.
-/

namespace AccountVault.Telemetry

inductive AddressFault where
  | character
  | format
  deriving DecidableEq

def AddressFault.message : AddressFault → String
  | character => "invalid uri character"
  | format => "invalid format"

def afterScheme? : List Char → Option (List Char)
  | [] => none
  | ':' :: '/' :: '/' :: rest => some rest
  | c :: rest =>
    if c.isAlphanum || c = '+' || c = '-' || c = '.' then afterScheme? rest else none

def authority (text : List Char) : List Char :=
  text.takeWhile fun c => c ≠ '/' && c ≠ '?' && c ≠ '#'

def checkAddress (address : String) : Except AddressFault Unit :=
  let chars := address.toList
  if chars.any Blank.isBlank then .error .character
  else if chars.head? = some '/' then .ok ()
  else
    match afterScheme? chars with
    | some rest => if (authority rest).isEmpty then .error .format else .ok ()
    | none => if authority chars = chars then .ok () else .error .format

def address? (env : Environment) (settings : Settings) : Option String :=
  settings.spanEndpoint?.map fun endpoint =>
    (env.exactly? "OTEL_EXPORTER_OTLP_ENDPOINT").getD endpoint

def check (env : Environment) (settings : Settings) : Except AddressFault Unit :=
  match address? env settings with
  | some address => checkAddress address
  | none => .ok ()

end AccountVault.Telemetry
