import AccountVault.Program

/-!
# Contracts of programs

A run of a program is a sequence of exchanges with its backend, each a call together with its
answer. A contract says which exchanges may follow which, and which values may come back at the
end. A program meets a contract when it keeps to it whatever the answers are; what is proved of a
program in this way holds over every backend, in every run that ends and in every run that is cut
off, and at every point where programs of several callers are interleaved.
-/

namespace AccountVault

inductive Exchange where
  | head (location : Location) (answer : Except StoreError Unit)
  | get (location : Location) (answer : Except StoreError StoredObject)
  | put (location : Location) (body : Bytes) (ifMatch : Option String)
      (answer : Except StoreError (Option String))
  | draw (count : Nat) (answer : Except IvError Bytes)

namespace Program

variable {σ α β : Type}

def exchanges (backend : Backend σ) : Program α → σ → List Exchange
  | done _, _ => []
  | head location next, state =>
    match backend.head location state with
    | (some answer, state) => .head location answer :: exchanges backend (next answer) state
    | (none, _) => []
  | get location next, state =>
    match backend.get location state with
    | (some answer, state) => .get location answer :: exchanges backend (next answer) state
    | (none, _) => []
  | put location body ifMatch next, state =>
    match backend.put location body ifMatch state with
    | (some answer, state) =>
      .put location body ifMatch answer :: exchanges backend (next answer) state
    | (none, _) => []
  | draw count next, state =>
    let (answer, state) := backend.draw count state
    .draw count answer :: exchanges backend (next answer) state
  | log _ next, state => exchanges backend next state

/-- The program goes on from the exchanges in `past` with exchanges that `allowed` lets follow, and
ends, if it does, with a value that `result` admits. -/
def Meets (allowed : List Exchange → Exchange → Prop) (result : List Exchange → α → Prop) :
    Program α → (past : List Exchange) → Prop
  | done a, past => result past a
  | head location next, past => ∀ answer,
    allowed past (.head location answer) ∧
      (next answer).Meets allowed result (past ++ [.head location answer])
  | get location next, past => ∀ answer,
    allowed past (.get location answer) ∧
      (next answer).Meets allowed result (past ++ [.get location answer])
  | put location body ifMatch next, past => ∀ answer,
    allowed past (.put location body ifMatch answer) ∧
      (next answer).Meets allowed result (past ++ [.put location body ifMatch answer])
  | draw count next, past => ∀ answer,
    allowed past (.draw count answer) ∧
      (next answer).Meets allowed result (past ++ [.draw count answer])
  | log _ next, past => next.Meets allowed result past

variable {allowed : List Exchange → Exchange → Prop} {result : List Exchange → α → Prop}

theorem meets_bind {result : List Exchange → β → Prop} (p : Program α) (f : α → Program β)
    (past : List Exchange) :
    (p.bind f).Meets allowed result past ↔
      p.Meets allowed (fun past a => (f a).Meets allowed result past) past := by
  induction p generalizing past with
  | done a => exact Iff.rfl
  | head location next ih => simp only [bind, Meets, ih]
  | get location next ih => simp only [bind, Meets, ih]
  | put location body ifMatch next ih => simp only [bind, Meets, ih]
  | draw count next ih => simp only [bind, Meets, ih]
  | log event next ih => simp only [bind, Meets, ih]

theorem Meets.mono {allowed' : List Exchange → Exchange → Prop}
    {result' : List Exchange → α → Prop} {p : Program α} {past : List Exchange}
    (h : p.Meets allowed result past) (ha : ∀ past x, allowed past x → allowed' past x)
    (hr : ∀ past a, result past a → result' past a) : p.Meets allowed' result' past := by
  induction p generalizing past with
  | done a => exact hr _ _ h
  | head location next ih => exact fun answer => ⟨ha _ _ (h answer).1, ih answer (h answer).2⟩
  | get location next ih => exact fun answer => ⟨ha _ _ (h answer).1, ih answer (h answer).2⟩
  | put location body ifMatch next ih =>
    exact fun answer => ⟨ha _ _ (h answer).1, ih answer (h answer).2⟩
  | draw count next ih => exact fun answer => ⟨ha _ _ (h answer).1, ih answer (h answer).2⟩
  | log event next ih => exact ih h

theorem meets_attempt_bind {result : List Exchange → Except Failure β → Prop} (x : Attempt α)
    (f : α → Attempt β) (past : List Exchange) :
    Meets allowed result (x >>= f).run past ↔
      Meets allowed (fun past outcome => match outcome with
        | .ok a => Meets allowed result (f a).run past
        | .error failure => result past (.error failure)) x.run past := by
  change Meets allowed result (Program.bind x.run (ExceptT.bindCont f)) past ↔ _
  rw [meets_bind]
  have same : (fun past outcome => Meets allowed result (ExceptT.bindCont f outcome) past) =
      fun past outcome => match outcome with
        | .ok a => Meets allowed result (f a).run past
        | .error failure => result past (.error failure) := by
    funext past outcome
    cases outcome with
    | ok a => rfl
    | error failure => rfl
  rw [same]

inductive Silent : Program α → Prop
  | done (a : α) : Silent (done a)
  | log (event : Event) {next : Program α} (h : Silent next) : Silent (log event next)

theorem Silent.bind {p : Program α} {f : α → Program β} (h : p.Silent) (hf : ∀ a, (f a).Silent) :
    (p.bind f).Silent := by
  induction h with
  | done a => exact hf a
  | log event h ih => exact .log event ih

theorem Silent.meets {p : Program α} (h : p.Silent) {past : List Exchange}
    (hr : ∀ a, result past a) : p.Meets allowed result past := by
  induction h with
  | done a => exact hr a
  | log event h ih => exact ih

theorem Silent.exchanges_eq {p : Program α} (h : p.Silent) (backend : Backend σ) (state : σ) :
    p.exchanges backend state = [] := by
  induction h with
  | done a => rfl
  | log event h ih => exact ih

inductive Step : Program α → (exchanged : List Exchange) → Program α → Prop
  | log {event : Event} {next : Program α} : Step (log event next) [] next
  | head {location next} (answer) :
    Step (head location next) [.head location answer] (next answer)
  | get {location next} (answer) : Step (get location next) [.get location answer] (next answer)
  | put {location body ifMatch next} (answer) :
    Step (put location body ifMatch next) [.put location body ifMatch answer] (next answer)
  | draw {count next} (answer) : Step (draw count next) [.draw count answer] (next answer)

theorem Meets.step {p q : Program α} {past exchanged : List Exchange}
    (h : p.Meets allowed result past) (hs : p.Step exchanged q) :
    (∀ x ∈ exchanged, allowed past x) ∧ q.Meets allowed result (past ++ exchanged) := by
  cases hs with
  | log => exact ⟨by simp, (List.append_nil past).symm ▸ h⟩
  | head answer => exact ⟨by simpa using (h answer).1, (h answer).2⟩
  | get answer => exact ⟨by simpa using (h answer).1, (h answer).2⟩
  | put answer => exact ⟨by simpa using (h answer).1, (h answer).2⟩
  | draw answer => exact ⟨by simpa using (h answer).1, (h answer).2⟩

/-- Every exchange of a list may follow those before it. -/
def Follows (allowed : List Exchange → Exchange → Prop) :
    (past : List Exchange) → List Exchange → Prop
  | _, [] => True
  | past, x :: rest => allowed past x ∧ Follows allowed (past ++ [x]) rest

theorem Follows.of_append {past before after : List Exchange} {x : Exchange}
    (h : Follows allowed past (before ++ x :: after)) : allowed (past ++ before) x := by
  induction before generalizing past with
  | nil => simpa using h.1
  | cons y before ih => simpa using ih h.2

theorem Meets.follows {p : Program α} {past : List Exchange} (h : p.Meets allowed result past)
    (backend : Backend σ) (state : σ) : Follows allowed past (p.exchanges backend state) := by
  induction p generalizing past state with
  | done a => trivial
  | head location next ih =>
    simp only [exchanges]
    split
    · rename_i answer state' _
      exact ⟨(h answer).1, ih answer (h answer).2 state'⟩
    · trivial
  | get location next ih =>
    simp only [exchanges]
    split
    · rename_i answer state' _
      exact ⟨(h answer).1, ih answer (h answer).2 state'⟩
    · trivial
  | put location body ifMatch next ih =>
    simp only [exchanges]
    split
    · rename_i answer state' _
      exact ⟨(h answer).1, ih answer (h answer).2 state'⟩
    · trivial
  | draw count next ih => exact ⟨(h _).1, ih _ (h _).2 _⟩
  | log event next ih => exact ih h state

theorem Meets.value_cases {p : Program α} {past : List Exchange} (h : p.Meets allowed result past)
    (backend : Backend σ) (state : σ) :
    (∃ a, (p.run backend state).value = some a ∧
        result (past ++ p.exchanges backend state) a) ∨
      ((p.run backend state).value = none ∧
        ∃ x, allowed (past ++ p.exchanges backend state) x) := by
  induction p generalizing past state with
  | done a =>
    left
    exact ⟨a, rfl, (List.append_nil past).symm ▸ h⟩
  | head location next ih =>
    simp only [run, exchanges]
    rcases backend.head location state with ⟨_ | answer, middle⟩
    · right
      exact ⟨rfl, _, by simpa using (h (.ok ())).1⟩
    · simpa using ih answer (h answer).2 middle
  | get location next ih =>
    simp only [run, exchanges]
    rcases backend.get location state with ⟨_ | answer, middle⟩
    · right
      exact ⟨rfl, _, by simpa using (h (.error .notFound)).1⟩
    · simpa using ih answer (h answer).2 middle
  | put location body ifMatch next ih =>
    simp only [run, exchanges]
    rcases backend.put location body ifMatch state with ⟨_ | answer, middle⟩
    · right
      exact ⟨rfl, _, by simpa using (h (.ok none)).1⟩
    · simpa using ih answer (h answer).2 middle
  | draw count next ih =>
    simp only [run, exchanges]
    simpa using ih _ (h _).2 _
  | log event next ih => exact ih h state

end Program

end AccountVault
