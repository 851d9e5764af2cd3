import AccountVault.Json.Scan

/-!
# Skipped values

The value of an unknown field is only checked for its shape. Its numbers have no range, its texts
may hold any bytes and any escapes of the right form, and its nesting is not limited: the open lists
and records stand on a stack, innermost first.
-/

namespace AccountVault.Json.Skip

inductive Frame where
  | list
  | record
  deriving DecidableEq

inductive TextState where
  | plain
  | escape
  | hex (count : Nat) (good : Bool)

def text : (state : TextState) → Bytes → Except Fault Bytes
  | _, [] => .error (.before .endInText [])
  | .plain, byte :: rest =>
    if byte = 0x22 then .ok rest
    else if byte = 0x5c then text .escape rest
    else if byte < 0x20 then .error (.before .controlInText (byte :: rest))
    else text .plain rest
  | .escape, byte :: rest =>
    if byte = 0x75 then text (.hex 0 true) rest
    else if (Scan.simpleEscape? byte).isSome then text .plain rest
    else .error (.before .badEscape rest)
  | .hex count good, byte :: rest =>
    let good' := good && (Scan.hexValue? byte).isSome
    if count < 3 then text (.hex (count + 1) good') rest
    else if good' then text .plain rest
    else .error (.before .badEscape rest)

def exponent (input : Bytes) : Except Fault Bytes :=
  let unsigned :=
    match input with
    | byte :: rest => if byte = 0x2b || byte = 0x2d then rest else input
    | [] => []
  match unsigned with
  | [] => .error (.before .badNumber [])
  | byte :: rest =>
    if Scan.isDigit byte then .ok (rest.dropWhile Scan.isDigit)
    else .error (.before .badNumber rest)

def tail (input : Bytes) : Except Fault Bytes :=
  match input with
  | byte :: rest => if byte = 0x65 || byte = 0x45 then exponent rest else .ok input
  | [] => .ok []

def afterDigits (input : Bytes) : Except Fault Bytes :=
  match input with
  | byte :: rest =>
    if byte = 0x2e then
      if (rest.takeWhile Scan.isDigit).isEmpty then .error (.looking .badNumber rest)
      else tail (rest.dropWhile Scan.isDigit)
    else tail input
  | [] => .ok []

def number (input : Bytes) : Except Fault Bytes :=
  match input with
  | [] => .error (.before .badNumber [])
  | first :: rest =>
    if first = 0x30 then
      match rest with
      | second :: _ =>
        if Scan.isDigit second then .error (.looking .badNumber rest) else afterDigits rest
      | [] => .ok []
    else if Scan.isDigit first then afterDigits (rest.dropWhile Scan.isDigit)
    else .error (.before .badNumber rest)

def key (input : Bytes) : Except Fault Bytes :=
  match Scan.skipBlank input with
  | [] => .error (.looking .endInRecord [])
  | byte :: rest =>
    if byte = 0x22 then
      match text .plain rest with
      | .error fault => .error fault
      | .ok after => Scan.colon after
    else .error (.looking .keyNotText (byte :: rest))

inductive Next where
  | value (frames : List Frame) (input : Bytes)
  | done (input : Bytes)

def enter (frames : List Frame) (input : Bytes) : Except Fault Next :=
  match frames with
  | .record :: _ =>
    match key input with
    | .error fault => .error fault
    | .ok after => .ok (.value frames after)
  | _ => .ok (.value frames input)

def afterValue : (frames : List Frame) → Bytes → Except Fault Next
  | [], input => .ok (.done input)
  | frame :: frames, input =>
    match Scan.skipBlank input with
    | [] => .error (.looking (if frame = .list then .endInList else .endInRecord) [])
    | byte :: rest =>
      if byte = 0x2c then enter (frame :: frames) rest
      else if byte = (if frame = .list then 0x5d else 0x7d) then afterValue frames rest
      else .error (.looking
        (if frame = .list then .listCommaExpected else .recordCommaExpected) (byte :: rest))

def afterOpen (frame : Frame) (frames : List Frame) (input : Bytes) : Except Fault Next :=
  match Scan.skipBlank input with
  | [] => .error (.looking (if frame = .list then .endInList else .endInRecord) [])
  | byte :: rest =>
    if byte = (if frame = .list then 0x5d else 0x7d) then afterValue frames rest
    else enter (frame :: frames) (byte :: rest)

def closing (frames : List Frame) (result : Except Fault Bytes) : Except Fault Next :=
  match result with
  | .error fault => .error fault
  | .ok rest => afterValue frames rest

def step (frames : List Frame) (input : Bytes) : Except Fault Next :=
  match Scan.skipBlank input with
  | [] => .error (.looking .endInValue [])
  | byte :: rest =>
    if byte = 0x6e then closing frames (Scan.word [0x75, 0x6c, 0x6c] rest)
    else if byte = 0x74 then closing frames (Scan.word [0x72, 0x75, 0x65] rest)
    else if byte = 0x66 then closing frames (Scan.word [0x61, 0x6c, 0x73, 0x65] rest)
    else if byte = 0x2d then closing frames (number rest)
    else if Scan.isDigit byte then closing frames (number (byte :: rest))
    else if byte = 0x22 then closing frames (text .plain rest)
    else if byte = 0x5b then afterOpen .list frames rest
    else if byte = 0x7b then afterOpen .record frames rest
    else .error (.looking .valueExpected (byte :: rest))

/-- Each round reads at least one byte, so as many rounds as there are bytes are enough. -/
def loop : (rounds : Nat) → (frames : List Frame) → Bytes → Except Fault Bytes
  | 0, _, input => .error (.looking .endInValue input)
  | rounds + 1, frames, input =>
    match step frames input with
    | .error fault => .error fault
    | .ok (.done rest) => .ok rest
    | .ok (.value frames' rest) => loop rounds frames' rest

def value (input : Bytes) : Except Fault Bytes := loop (input.length + 1) [] input

end AccountVault.Json.Skip
