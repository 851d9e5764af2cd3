import AccountVault.Json.Skip
import AccountVault.Json.Value

/-!
# Fields of a known type

Readers for the fields of a record whose type is fixed. A refusal that concerns a record as a whole,
such as a missing or a repeated field, has no place of its own: it is placed where the end of the
record was looked for after the refusal, so blanks and a closing bracket that follow count as read.
-/

namespace AccountVault.Json

inductive Stop where
  | fault (fault : Fault)
  | refusal (cause : Cause) (input : Bytes)

namespace Field

def lift {α : Type} : Except Fault α → Except Stop α
  | .ok a => .ok a
  | .error fault => .error (.fault fault)

def enclosed {α : Type} (ending : Bytes → Option Fault × Bytes) :
    Except Stop (α × Bytes) → Read α
  | .error (.fault fault) => .error fault
  | .error (.refusal cause input) => .error (.before cause (ending input).2)
  | .ok (a, input) =>
    match ending input with
    | (none, rest) => .ok (a, rest)
    | (some fault, _) => .error fault

def found : Value → Found
  | .null => .null
  | .boolean b => .boolean b
  | .number n => .number n
  | .text s => .text s
  | .list _ => .list
  | .record _ => .record

/-- The fault of a value of another type. A list or a record is not entered. -/
def unexpected (expected : String) (byte : UInt8) (rest : Bytes) : Fault :=
  if byte = 0x5b then .before (.wrongType .list expected) (byte :: rest)
  else if byte = 0x7b then .before (.wrongType .record expected) (byte :: rest)
  else
    match Value.readScalar byte rest with
    | .error fault => fault
    | .ok (v, after) => .before (.wrongType (found v) expected) after

def leading {α : Type} (reader : UInt8 → Bytes → Read α) (input : Bytes) : Read α :=
  match Scan.skipBlank input with
  | [] => .error (.looking .endInValue [])
  | byte :: rest => reader byte rest

def text : Bytes → Read String :=
  leading fun byte rest =>
    if byte = 0x22 then Scan.text rest else .error (unexpected "a string" byte rest)

def optional {α : Type} (reader : Bytes → Read α) (input : Bytes) : Read (Option α) :=
  match Scan.skipBlank input with
  | byte :: rest =>
    if byte = 0x6e then Scan.constant [0x75, 0x6c, 0x6c] none rest
    else
      match reader (byte :: rest) with
      | .ok (a, after) => .ok (some a, after)
      | .error fault => .error fault
  | [] =>
    match reader [] with
    | .ok (a, after) => .ok (some a, after)
    | .error fault => .error fault

def boolean : Bytes → Read Bool :=
  leading fun byte rest =>
    if byte = 0x74 then Scan.constant [0x72, 0x75, 0x65] true rest
    else if byte = 0x66 then Scan.constant [0x61, 0x6c, 0x73, 0x65] false rest
    else .error (unexpected "a boolean" byte rest)

def short : Bytes → Read Nat :=
  leading fun byte rest =>
    if byte = 0x2d ∨ Scan.isDigit byte then
      match (if byte = 0x2d then Scan.number true rest else Scan.number false (byte :: rest)) with
      | .error fault => .error fault
      | .ok (.integer i, after) =>
        if 0 ≤ i ∧ i < 65536 then .ok (i.toNat, after)
        else .error (.before (.wrongValue (.number (.integer i)) "u16") after)
      | .ok (.real x, after) => .error (.before (.wrongType (.number (.real x)) "u16") after)
    else .error (unexpected "u16" byte rest)

/-- Any number. A list or a record is entered before it is refused. -/
def number : Bytes → Read Number :=
  leading fun byte rest =>
    let expected := "a JSON number"
    if byte = 0x5b then .error (.before (.wrongType .list expected) (Scan.listEnd rest).2)
    else if byte = 0x7b then .error (.before (.wrongType .record expected) (Scan.recordEnd rest).2)
    else
      match Value.readScalar byte rest with
      | .error fault => .error fault
      | .ok (.number n, after) => .ok (n, after)
      | .ok (v, after) => .error (.before (.wrongType (found v) expected) after)

def value {α : Type} (reader : Bytes → Read α) (input : Bytes) : Except Stop (α × Bytes) :=
  match Scan.colon input with
  | .error fault => .error (.fault fault)
  | .ok rest => lift (reader rest)

def once {α : Type} (name : String) (present : Bool) (reader : Bytes → Read α) (input : Bytes) :
    Except Stop (α × Bytes) :=
  if present then .error (.refusal (.repeatedField name) input) else value reader input

def skipped (input : Bytes) : Except Stop Bytes :=
  match Scan.colon input with
  | .error fault => .error (.fault fault)
  | .ok rest => lift (Skip.value rest)

def members {σ : Type} (field : σ → String → Bytes → Except Stop (σ × Bytes)) :
    (rounds : Nat) → (first : Bool) → σ → Bytes → Except Stop (σ × Bytes)
  | 0, _, _, input => .error (.fault (.looking .endInRecord input))
  | rounds + 1, first, state, input =>
    match Scan.nextKey first input with
    | .error fault => .error (.fault fault)
    | .ok (false, rest) => .ok (state, rest)
    | .ok (true, rest) =>
      match Scan.text rest with
      | .error fault => .error (.fault fault)
      | .ok (name, rest) =>
        match field state name rest with
        | .error stop => .error stop
        | .ok (state, rest) => members field rounds false state rest

def allMembers {σ : Type} (field : σ → String → Bytes → Except Stop (σ × Bytes)) (start : σ)
    (input : Bytes) : Except Stop (σ × Bytes) :=
  members field (input.length + 1) true start input

def item {α : Type} (position : Nat) (type : String) (reader : Bytes → Read α) (input : Bytes) :
    Except Stop (α × Bytes) :=
  match Scan.nextElement (position = 0) input with
  | .error fault => .error (.fault fault)
  | .ok (false, rest) => .error (.refusal (.wrongLength position type) rest)
  | .ok (true, rest) => lift (reader rest)

def lastItem {α : Type} (position : Nat) (default : α) (reader : Bytes → Read α) (input : Bytes) :
    Except Stop (α × Bytes) :=
  match Scan.nextElement (position = 0) input with
  | .error fault => .error (.fault fault)
  | .ok (false, rest) => .ok (default, rest)
  | .ok (true, rest) => lift (reader rest)

/-- A record, or the same fields in a list. -/
def structured {α : Type} (type : String) (asList asRecord : Bytes → Except Stop (α × Bytes)) :
    Bytes → Read α :=
  leading fun byte rest =>
    if byte = 0x5b then enclosed Scan.listEnd (asList rest)
    else if byte = 0x7b then enclosed Scan.recordEnd (asRecord rest)
    else .error (unexpected type byte rest)

def required {α : Type} (name : String) (value : Option α) (input : Bytes) : Except Stop α :=
  match value with
  | some a => .ok a
  | none => .error (.refusal (.missingField name) input)

end Field

end AccountVault.Json
