import AccountVault.Program
import AccountVault.Store.Memory

/-!
# A backend that follows a script

The calls of a program are answered from a store in memory, except where a script says otherwise: a
call may fail before it touches the store, never return, lose a tag, or let another writer in.
Random bytes come from a list of prepared answers and, once that is used up, from a counter. Every
store call and the length of every draw is recorded.
-/

namespace AccountVault

inductive Call where
  | head (location : Location)
  | get (location : Location)
  | put (location : Location) (ifMatch : Option String)
  deriving DecidableEq

def Call.text : Call → String
  | head location => "head " ++ location.bucket ++ " " ++ location.key
  | get location => "get " ++ location.bucket ++ " " ++ location.key
  | put location ifMatch =>
    "put " ++ location.bucket ++ " " ++ location.key ++ " " ++ ifMatch.getD "-"

inductive HeadFault where
  | fail (error : StoreError)
  | hang

inductive GetFault where
  | fail (error : StoreError)
  | hang
  /-- The object comes back without its tag. -/
  | untagged
  /-- Once the object has been read, another writer replaces it. -/
  | race (body : Bytes)

inductive PutFault where
  | fail (error : StoreError)
  | hang
  /-- The write is carried out, but no tag comes back. -/
  | unconfirmed

structure Faults where
  head : Option HeadFault := none
  get : Option GetFault := none
  put : Option PutFault := none

inductive PreparedDraw where
  | bytes (value : Bytes)
  | kms (text : String)
  | empty
  | mismatch (actual : Nat)
  | invalidLength (length : Nat)

def PreparedDraw.answer (requested : Nat) : PreparedDraw → Except IvError Bytes
  | bytes value => .ok value
  | kms text => .error (.kms text)
  | empty => .error .empty
  | mismatch actual => .error (.mismatch requested actual)
  | invalidLength length => .error (.invalidLength length)

structure Scripted where
  store : MemoryStore
  prepared : List PreparedDraw := []
  drawn : List Nat := []
  calls : List Call := []

namespace Scripted

def record (state : Scripted) (call : Call) : Scripted :=
  { state with calls := state.calls ++ [call] }

/-- The bytes of a draw once the prepared answers are used up: a counter in steps of sixteen. -/
def counted (draws count : Nat) : Bytes :=
  (List.range count).map fun i => UInt8.ofNat (16 * draws + i)

def draw (count : Nat) (state : Scripted) : Except IvError Bytes × Scripted :=
  let after := { state with drawn := state.drawn ++ [count], prepared := state.prepared.tail }
  match state.prepared with
  | item :: _ => (item.answer count, after)
  | [] => (.ok (counted state.drawn.length count), after)

def head (fault : Option HeadFault) (location : Location) (state : Scripted) :
    Option (Except StoreError Unit) × Scripted :=
  let state := state.record (.head location)
  match fault with
  | some (.fail e) => (some (.error e), state)
  | some .hang => (none, state)
  | none => (some (state.store.head location), state)

def get (fault : Option GetFault) (location : Location) (state : Scripted) :
    Option (Except StoreError StoredObject) × Scripted :=
  let state := state.record (.get location)
  match fault with
  | some (.fail e) => (some (.error e), state)
  | some .hang => (none, state)
  | some .untagged =>
    (some ((state.store.get location).map fun object => { object with etag := none }), state)
  | some (.race body) =>
    match state.store.get location with
    | .ok object =>
      (some (.ok object), { state with store := state.store.insert location body })
    | .error e => (some (.error e), state)
  | none => (some (state.store.get location), state)

def put (fault : Option PutFault) (location : Location) (body : Bytes) (ifMatch : Option String)
    (state : Scripted) : Option (Except StoreError (Option String)) × Scripted :=
  let state := state.record (.put location ifMatch)
  match fault with
  | some (.fail e) => (some (.error e), state)
  | some .hang => (none, state)
  | some .unconfirmed =>
    let (answer, store) := state.store.put location body ifMatch
    (some (answer.map fun _ => none), { state with store := store })
  | none =>
    let (answer, store) := state.store.put location body ifMatch
    (some answer, { state with store := store })

def backend (faults : Faults) : Backend Scripted where
  head := head faults.head
  get := get faults.get
  put := put faults.put
  draw := draw

end Scripted

end AccountVault
