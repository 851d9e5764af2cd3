import AccountVault.Json.Number
import AccountVault.Text.Quoted
import AccountVault.Text.Utf8

/-!
# Why a JSON text is refused

A fault is a cause together with the number of bytes that were still unread when it was found. The
line and the column that a message shows are computed from that number and the whole text: lines are
counted from one, and the column is the number of bytes of its line that had been read.
-/

namespace AccountVault.Json

inductive Found where
  | null
  | boolean (value : Bool)
  | number (value : Number)
  | text (value : String)
  | list
  | record

inductive Cause where
  | endInList
  | endInRecord
  | endInText
  | endInValue
  | colonExpected
  | listCommaExpected
  | recordCommaExpected
  | wordExpected
  | valueExpected
  | badEscape
  | badNumber
  | numberTooLarge
  | badCodePoint
  | controlInText
  | keyNotText
  | loneSurrogate
  | trailingComma
  | trailingText
  | cutHexEscape
  | nestedTooDeep
  | wrongType (found : Found) (expected : String)
  | wrongValue (found : Found) (expected : String)
  | wrongLength (length : Nat) (expected : String)
  | missingField (name : String)
  | repeatedField (name : String)

structure Fault where
  cause : Cause
  unread : Nat

def Found.describe : Found → String
  | null => "null"
  | boolean true => "boolean `true`"
  | boolean false => "boolean `false`"
  | number (.integer i) => "integer `" ++ String.ofList (Number.integerChars i) ++ "`"
  | number (.real x) => "floating point `" ++ String.ofList (Number.realChars x) ++ "`"
  | text s => "string " ++ Quoted.quote s
  | list => "sequence"
  | record => "map"

def Cause.message : Cause → String
  | endInList => "EOF while parsing a list"
  | endInRecord => "EOF while parsing an object"
  | endInText => "EOF while parsing a string"
  | endInValue => "EOF while parsing a value"
  | colonExpected => "expected `:`"
  | listCommaExpected => "expected `,` or `]`"
  | recordCommaExpected => "expected `,` or `\x7d`"
  | wordExpected => "expected ident"
  | valueExpected => "expected value"
  | badEscape => "invalid escape"
  | badNumber => "invalid number"
  | numberTooLarge => "number out of range"
  | badCodePoint => "invalid unicode code point"
  | controlInText => "control character (\\u0000-\\u001F) found while parsing a string"
  | keyNotText => "key must be a string"
  | loneSurrogate => "lone leading surrogate in hex escape"
  | trailingComma => "trailing comma"
  | trailingText => "trailing characters"
  | cutHexEscape => "unexpected end of hex escape"
  | nestedTooDeep => "recursion limit exceeded"
  | wrongType found expected => "invalid type: " ++ found.describe ++ ", expected " ++ expected
  | wrongValue found expected => "invalid value: " ++ found.describe ++ ", expected " ++ expected
  | wrongLength length expected =>
    "invalid length " ++ toString length ++ ", expected " ++ expected
  | missingField name => "missing field `" ++ name ++ "`"
  | repeatedField name => "duplicate field `" ++ name ++ "`"

namespace Fault

def before (cause : Cause) (rest : Bytes) : Fault := ⟨cause, rest.length⟩

/-- A fault found by looking at the first byte of `rest`, which counts as read. -/
def looking (cause : Cause) (rest : Bytes) : Fault := ⟨cause, rest.length - 1⟩

def line (text : Bytes) (read : Nat) : Nat := 1 + (text.take read).count 0x0a

def column (text : Bytes) (read : Nat) : Nat :=
  ((text.take read).reverse.takeWhile (· ≠ 0x0a)).length

def message (fault : Fault) (text : Bytes) : String :=
  let read := text.length - fault.unread
  fault.cause.message ++ " at line " ++ toString (line text read) ++ " column " ++
    toString (column text read)

end Fault

end AccountVault.Json
