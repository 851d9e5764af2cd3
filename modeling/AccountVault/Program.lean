import AccountVault.Failure
import AccountVault.Log
import AccountVault.Store.Object

/-!
# Programs over a store and a source of random bytes

What the service does for one request is a program: it asks for one object store call or one draw of
random bytes at a time, continues with the answer, and may log events in between. A backend answers
the calls; a call that is never answered leaves the program cut off, with everything that happened
before it done. Because the calls are separate steps, programs of several callers can also be
interleaved.
-/

namespace AccountVault

inductive Program (α : Type) : Type where
  | done (value : α)
  | head (location : Location) (next : Except StoreError Unit → Program α)
  | get (location : Location) (next : Except StoreError StoredObject → Program α)
  | put (location : Location) (body : Bytes) (ifMatch : Option String)
      (next : Except StoreError (Option String) → Program α)
  | draw (count : Nat) (next : Except IvError Bytes → Program α)
  | log (event : Event) (next : Program α)

namespace Program

def bind {α β : Type} : Program α → (α → Program β) → Program β
  | done a, f => f a
  | head location next, f => head location fun answer => (next answer).bind f
  | get location next, f => get location fun answer => (next answer).bind f
  | put location body ifMatch next, f =>
    put location body ifMatch fun answer => (next answer).bind f
  | draw count next, f => draw count fun answer => (next answer).bind f
  | log event next, f => log event (next.bind f)

instance : Monad Program where
  pure := done
  bind := bind

abbrev Attempt (α : Type) := ExceptT Failure Program α

def note (level : Level) (source : Source) (message : String)
    (fields : List (String × FieldValue)) : Program Unit :=
  log ⟨level, source, message, fields⟩ (done ())

theorem bind_done {α : Type} (p : Program α) : p.bind done = p := by
  induction p with
  | done a => rfl
  | head location next ih => simp [bind, ih]
  | get location next ih => simp [bind, ih]
  | put location body ifMatch next ih => simp [bind, ih]
  | draw count next ih => simp [bind, ih]
  | log event next ih => simp [bind, ih]

theorem bind_assoc {α β γ : Type} (p : Program α) (f : α → Program β) (g : β → Program γ) :
    (p.bind f).bind g = p.bind fun a => (f a).bind g := by
  induction p with
  | done a => rfl
  | head location next ih => simp [bind, ih]
  | get location next ih => simp [bind, ih]
  | put location body ifMatch next ih => simp [bind, ih]
  | draw count next ih => simp [bind, ih]
  | log event next ih => simp [bind, ih]

instance : LawfulMonad Program :=
  LawfulMonad.mk' Program (fun p => bind_done p) (fun _ _ => rfl) bind_assoc

end Program

/-- What answers the calls of a program. An answer of none is a call that never returns. -/
structure Backend (σ : Type) where
  head : Location → σ → Option (Except StoreError Unit) × σ
  get : Location → σ → Option (Except StoreError StoredObject) × σ
  put : Location → Bytes → Option String → σ → Option (Except StoreError (Option String)) × σ
  draw : Nat → σ → Except IvError Bytes × σ

structure Outcome (σ α : Type) where
  value : Option α
  state : σ
  events : List Event

namespace Program

def run {σ α : Type} (backend : Backend σ) : Program α → σ → Outcome σ α
  | done a, state => ⟨some a, state, []⟩
  | head location next, state =>
    match backend.head location state with
    | (some answer, state) => run backend (next answer) state
    | (none, state) => ⟨none, state, []⟩
  | get location next, state =>
    match backend.get location state with
    | (some answer, state) => run backend (next answer) state
    | (none, state) => ⟨none, state, []⟩
  | put location body ifMatch next, state =>
    match backend.put location body ifMatch state with
    | (some answer, state) => run backend (next answer) state
    | (none, state) => ⟨none, state, []⟩
  | draw count next, state =>
    let (answer, state) := backend.draw count state
    run backend (next answer) state
  | log event next, state =>
    let rest := run backend next state
    { rest with events := event :: rest.events }

end Program

end AccountVault
