import AccountVault.Json.Scan

/-!
# JSON values

A value keeps the members of a record as they stand in the text, repeated names included; looking a
name up finds the last of them. A text is read to one value by `readFirst?`, which ignores what
follows, or by `read`, which refuses it. Lists and records nest at most one hundred and twenty-seven
deep.
-/

namespace AccountVault.Json

inductive Value where
  | null
  | boolean (value : Bool)
  | number (value : Number)
  | text (value : String)
  | list (items : List Value)
  | record (members : List (String × Value))

namespace Value

def lastNamed? (name : String) (members : List (String × Value)) : Option Value :=
  (members.reverse.find? (·.1 = name)).map (·.2)

def member? (name : String) : Value → Option Value
  | record members => lastNamed? name members
  | _ => none

def number? : Value → Option Number
  | number n => some n
  | _ => none

def text? : Value → Option String
  | text s => some s
  | _ => none

def deepest : Nat := 127

def readItems (item : Bytes → Read Value) :
    (rounds : Nat) → (first : Bool) → (seen : List Value) → Bytes → Read (List Value)
  | 0, _, _, input => .error (.looking .endInList input)
  | rounds + 1, first, seen, input =>
    match Scan.nextElement first input with
    | .error fault => .error fault
    | .ok (false, rest) => .ok (seen.reverse, rest)
    | .ok (true, rest) =>
      match item rest with
      | .error fault => .error fault
      | .ok (v, rest) => readItems item rounds false (v :: seen) rest

def readMembers (item : Bytes → Read Value) :
    (rounds : Nat) → (first : Bool) → (seen : List (String × Value)) → Bytes →
      Read (List (String × Value))
  | 0, _, _, input => .error (.looking .endInRecord input)
  | rounds + 1, first, seen, input =>
    match Scan.nextKey first input with
    | .error fault => .error fault
    | .ok (false, rest) => .ok (seen.reverse, rest)
    | .ok (true, rest) =>
      match Scan.text rest with
      | .error fault => .error fault
      | .ok (name, rest) =>
        match Scan.colon rest with
        | .error fault => .error fault
        | .ok rest =>
          match item rest with
          | .error fault => .error fault
          | .ok (v, rest) => readMembers item rounds false ((name, v) :: seen) rest

def finish (ending : Bytes → Option Fault × Bytes) (v : Value) (input : Bytes) : Read Value :=
  match ending input with
  | (none, rest) => .ok (v, rest)
  | (some fault, _) => .error fault

def readNumber (negative : Bool) (input : Bytes) : Read Value :=
  match Scan.number negative input with
  | .ok (n, rest) => .ok (.number n, rest)
  | .error fault => .error fault

def readText (input : Bytes) : Read Value :=
  match Scan.text input with
  | .ok (s, rest) => .ok (.text s, rest)
  | .error fault => .error fault

def readScalar (byte : UInt8) (rest : Bytes) : Read Value :=
  if byte = 0x6e then Scan.constant [0x75, 0x6c, 0x6c] .null rest
  else if byte = 0x74 then Scan.constant [0x72, 0x75, 0x65] (.boolean true) rest
  else if byte = 0x66 then Scan.constant [0x61, 0x6c, 0x73, 0x65] (.boolean false) rest
  else if byte = 0x2d then readNumber true rest
  else if Scan.isDigit byte then readNumber false (byte :: rest)
  else if byte = 0x22 then readText rest
  else .error (.looking .valueExpected (byte :: rest))

def readValue : (depth : Nat) → Bytes → Read Value
  | depth, input =>
    match Scan.skipBlank input with
    | [] => .error (.looking .endInValue [])
    | byte :: rest =>
      if byte = 0x5b then
        match depth with
        | 0 => .error (.looking .nestedTooDeep (byte :: rest))
        | depth + 1 =>
          match readItems (readValue depth) (rest.length + 1) true [] rest with
          | .error fault => .error fault
          | .ok (items, rest) => finish Scan.listEnd (.list items) rest
      else if byte = 0x7b then
        match depth with
        | 0 => .error (.looking .nestedTooDeep (byte :: rest))
        | depth + 1 =>
          match readMembers (readValue depth) (rest.length + 1) true [] rest with
          | .error fault => .error fault
          | .ok (members, rest) => finish Scan.recordEnd (.record members) rest
      else readScalar byte rest

def readFirst (text : Bytes) : Read Value := readValue deepest text

def readFirst? (text : Bytes) : Option Value := (readFirst text).toOption.map (·.1)

end Value

def readWhole {α : Type} (reader : Bytes → Read α) (text : Bytes) : Except Fault α :=
  match reader text with
  | .error fault => .error fault
  | .ok (a, rest) =>
    match Scan.skipBlank rest with
    | [] => .ok a
    | byte :: after => .error (.looking .trailingText (byte :: after))

def Value.read? (text : Bytes) : Option Value := (readWhole Value.readFirst text).toOption

end AccountVault.Json
