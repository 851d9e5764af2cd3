import AccountVault.Proofs.Account.Conduct
import AccountVault.Proofs.Store.Versions

/-!
# Callers that share a store

Any number of callers run account operations over one store in memory, and other writers replace
stored bytes as they like. A schedule says whose next call is answered, one call at a time, and
where a replacement falls; every list of moves is a schedule. The world keeps what each caller has
exchanged so far, and the commits, that is, the writes that were carried out and the replacements,
in the order they happened.
-/

namespace AccountVault

open Program

structure Caller where
  service : Service
  operation : Operation
  draw : Nat → Except IvError Bytes

def Caller.program (caller : Caller) : Program Reply := caller.operation.run caller.service

structure Progress where
  rest : Program Reply
  past : List Exchange

inductive Move (ι : Type) where
  /-- The next call of a caller is answered; a fetched object may come without its tag. -/
  | advance (caller : ι) (tagged : Bool)
  /-- Another writer replaces the bytes at a location. -/
  | replace (location : Location) (body : Bytes)

def Move.Tagged {ι : Type} : Move ι → Prop
  | advance _ tagged => tagged = true
  | replace _ _ => True

instance {ι : Type} (move : Move ι) : Decidable move.Tagged :=
  match move with
  | .advance _ tagged => inferInstanceAs (Decidable (tagged = true))
  | .replace _ _ => isTrue trivial

inductive Commit (ι : Type) where
  /-- A write of a caller, with its exchanges and the store just before it. -/
  | write (caller : ι) (past : List Exchange) (before : MemoryStore) (body : Bytes)
  | replace (location : Location) (body : Bytes)

structure World (ι : Type) where
  store : MemoryStore
  progress : ι → Progress
  history : List (Commit ι)

def MemoryStore.fetch (store : MemoryStore) (tagged : Bool) (location : Location) :
    Except StoreError StoredObject :=
  (store.get location).map fun object => if tagged then object else { object with etag := none }

theorem MemoryStore.etag_of_fetch {store : MemoryStore} {location : Location}
    {object : StoredObject} (h : store.fetch true location = .ok object) :
    ∃ etag, object.etag = some etag := by
  unfold fetch MemoryStore.get at h
  cases found : store.objects location with
  | none => simp [found, Except.map] at h
  | some entry =>
    simp only [found, Except.map, if_true, Except.ok.injEq] at h
    subst h
    exact ⟨entry.2, rfl⟩

namespace World

variable {ι : Type} [DecidableEq ι]

def start (callers : ι → Caller) : World ι where
  store := .empty
  progress i := ⟨(callers i).program, []⟩
  history := []

def resume (world : World ι) (i : ι) (rest : Program Reply) (exchanged : List Exchange) :
    World ι :=
  { world with progress := fun j =>
      if j = i then ⟨rest, (world.progress i).past ++ exchanged⟩ else world.progress j }

def advance (callers : ι → Caller) (world : World ι) (i : ι) (tagged : Bool) : World ι :=
  match (world.progress i).rest with
  | .done _ => world
  | .log _ next => world.resume i next []
  | .head location next =>
    let answer := world.store.head location
    world.resume i (next answer) [.head location answer]
  | .get location next =>
    let answer := world.store.fetch tagged location
    world.resume i (next answer) [.get location answer]
  | .draw count next =>
    let answer := (callers i).draw count
    world.resume i (next answer) [.draw count answer]
  | .put location body ifMatch next =>
    let (answer, store) := world.store.put location body ifMatch
    let after := world.resume i (next answer) [.put location body ifMatch answer]
    match answer with
    | .ok _ =>
      { after with store, history :=
          world.history ++ [.write i (world.progress i).past world.store body] }
    | .error _ => after

def step (callers : ι → Caller) (world : World ι) : Move ι → World ι
  | .advance i tagged => world.advance callers i tagged
  | .replace location body =>
    { world with
      store := world.store.insert location body
      history := world.history ++ [.replace location body] }

def run (callers : ι → Caller) (moves : List (Move ι)) : World ι :=
  moves.foldl (step callers) (start callers)

@[simp] theorem history_resume (world : World ι) (i : ι) (rest : Program Reply)
    (exchanged : List Exchange) : (world.resume i rest exchanged).history = world.history := rfl

theorem progress_resume (world : World ι) (i j : ι) (rest : Program Reply)
    (exchanged : List Exchange) : (world.resume i rest exchanged).progress j =
      if j = i then ⟨rest, (world.progress i).past ++ exchanged⟩ else world.progress j := rfl

theorem mem_past_resume {world : World ι} {i j : ι} {rest : Program Reply}
    {exchanged : List Exchange} {x : Exchange}
    (h : x ∈ ((world.resume i rest exchanged).progress j).past) :
    x ∈ (world.progress j).past ∨ j = i ∧ x ∈ exchanged := by
  rw [progress_resume] at h
  by_cases hj : j = i
  · subst hj
    rw [if_pos rfl] at h
    rcases List.mem_append.1 h with h | h
    · exact .inl h
    · exact .inr ⟨rfl, h⟩
  · rw [if_neg hj] at h
    exact .inl h

end World

def Exchange.AnsweredBy (draw : Nat → Except IvError Bytes) (tagged : Bool) (store : MemoryStore) :
    Exchange → Prop
  | head location answer => answer = store.head location
  | get location answer => answer = store.fetch tagged location
  | put _ _ _ answer => ∃ e, answer = .error e
  | Exchange.draw count answer => answer = draw count

def World.commit {ι : Type} [DecidableEq ι] (world : World ι) (i : ι) (rest : Program Reply)
    (location : Location) (body : Bytes) (ifMatch : Option String) : World ι :=
  { world.resume i rest
      [.put location body ifMatch (.ok (some (MemoryStore.tag (world.store.version + 1))))] with
    store := world.store.insert location body
    history := world.history ++ [.write i (world.progress i).past world.store body] }

theorem World.progress_commit {ι : Type} [DecidableEq ι] (world : World ι) (i : ι)
    (rest : Program Reply) (location : Location) (body : Bytes) (ifMatch : Option String) :
    (world.commit i rest location body ifMatch).progress = (world.resume i rest
      [.put location body ifMatch
        (.ok (some (MemoryStore.tag (world.store.version + 1))))]).progress :=
  rfl

theorem World.advance_cases {ι : Type} [DecidableEq ι] (callers : ι → Caller) (world : World ι)
    (i : ι) (tagged : Bool) :
    world.advance callers i tagged = world ∨
    (∃ rest exchanged, (world.progress i).rest.Step exchanged rest ∧
      (∀ x ∈ exchanged, x.AnsweredBy (callers i).draw tagged world.store) ∧
      world.advance callers i tagged = world.resume i rest exchanged) ∨
    ∃ rest location body ifMatch,
      (world.progress i).rest.Step
        [.put location body ifMatch (.ok (some (MemoryStore.tag (world.store.version + 1))))] rest ∧
      world.store.permits location ifMatch = .ok () ∧
      world.advance callers i tagged = world.commit i rest location body ifMatch := by
  unfold advance
  cases hp : (world.progress i).rest with
  | done reply => exact .inl rfl
  | log event next => exact .inr (.inl ⟨next, [], .log, by simp, rfl⟩)
  | head location next =>
    exact .inr (.inl ⟨_, _, .head _, by simp [Exchange.AnsweredBy], rfl⟩)
  | get location next =>
    exact .inr (.inl ⟨_, _, .get _, by simp [Exchange.AnsweredBy], rfl⟩)
  | draw count next =>
    exact .inr (.inl ⟨_, _, .draw _, by simp [Exchange.AnsweredBy], rfl⟩)
  | put location body ifMatch next =>
    rcases world.store.put_cases location body ifMatch with ⟨granted, hput⟩ | ⟨e, -, hput⟩
    · simp only [hput]
      exact .inr (.inr ⟨_, location, body, ifMatch, .put _, granted, rfl⟩)
    · simp only [hput]
      exact .inr (.inl ⟨_, _, .put _, by simp [Exchange.AnsweredBy], rfl⟩)

end AccountVault
