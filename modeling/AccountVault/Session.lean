import AccountVault.Http.Site
import AccountVault.Operation
import AccountVault.Store.Scripted

/-!
# Sessions

A session is the service over a scripted backend, used step by step: by direct operations, by HTTP
requests, and by writes that go past the service. A step reports what came back, which store calls
it made, and what it logged; the backend's state goes from step to step.
-/

namespace AccountVault

structure Session.Setup where
  base : String
  location : Location
  key : Option String
  docs : Option ApiDocument
  body : Option Bytes
  prepared : List PreparedDraw

inductive Session.SetupError where
  | key (error : KeyError)
  | route (error : Http.RouteError)

inductive Session.Action where
  | operation (operation : Operation)
  /-- Replaces the stored bytes. -/
  | seed (body : Bytes)
  | seedDocument (document : Document)
  /-- Reads a stored document past the service. -/
  | readDocument (location : Location)
  | request (request : Http.Request)

inductive Session.Result where
  | reply (reply : Reply)
  | stored (document : Option Document)
  | response (response : Http.Response)
  /-- A direct operation made a call that never returned. -/
  | cutOff

structure Session.Report where
  result : Result
  state : Scripted
  events : List Event

structure Session where
  site : Http.Site

namespace Session

def readKey : Option String → Except KeyError (Option DataKey)
  | none => .ok none
  | some text => (DataKey.ofBase64 text).map some

def Setup.state (setup : Setup) : Scripted where
  store :=
    match setup.body with
    | some body => MemoryStore.empty.insert setup.location body
    | none => MemoryStore.empty
  prepared := setup.prepared

def start (setup : Setup) : Except SetupError Session :=
  match readKey setup.key with
  | .error e => .error (.key e)
  | .ok key =>
    match Http.Site.build ⟨setup.location, key⟩ setup.docs setup.base with
    | .error e => .error (.route e)
    | .ok site => .ok ⟨site⟩

def location (session : Session) : Location := session.site.service.location

def Action.readSeedDocument (body : Bytes) : Except Reply Action :=
  match Document.parse body with
  | .ok document => .ok (seedDocument document)
  | .error _ => .error .unreadable

def perform (session : Session) (faults : Faults) (operation : Operation) (state : Scripted) :
    Report :=
  let outcome := (operation.run session.site.service).run (Scripted.backend faults) state
  let result := match outcome.value with
    | some reply => .reply reply
    | none => .cutOff
  ⟨result, outcome.state, outcome.events⟩

def exchange (session : Session) (faults : Faults) (request : Http.Request) (state : Scripted) :
    Report :=
  let outcome := (session.site.handle request).run (Scripted.backend faults) state
  ⟨.response (Http.Site.answer request outcome.value), outcome.state, outcome.events⟩

def readStored (state : Scripted) (location : Location) : Result :=
  match state.store.document? location with
  | none => .stored none
  | some (.ok document) => .stored (some document)
  | some (.error _) => .reply .unreadable

def step (session : Session) (faults : Faults) (action : Action) (state : Scripted) : Report :=
  let state := { state with calls := [] }
  match action with
  | .operation operation => session.perform faults operation state
  | .request request => session.exchange faults request state
  | .seed body =>
    ⟨.reply .finished, { state with store := state.store.insert session.location body }, []⟩
  | .seedDocument document =>
    ⟨.reply .finished,
      { state with store := state.store.insertDocument session.location document }, []⟩
  | .readDocument location => ⟨readStored state location, state, []⟩

def refuse (reply : Reply) (state : Scripted) : Report :=
  ⟨.reply reply, { state with calls := [] }, []⟩

def run (session : Session) : List (Faults × Action) → Scripted → List Report
  | [], _ => []
  | (faults, action) :: rest, state =>
    let report := session.step faults action state
    report :: run session rest report.state

end Session

end AccountVault
